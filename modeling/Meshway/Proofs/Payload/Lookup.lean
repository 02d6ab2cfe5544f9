import Meshway.Proofs.Payload.Codec
import Meshway.Proofs.TagMap.Spelling
set_option autoImplicit false

/-!
# Fields are looked up by their tags (SPEC §4.1)

Eleven tags have a meaning.  Two envelopes that agree on these hold the same
payload or are wrong in the same way, except that what is said of an envelope of
no known shape names all its tags.  Main statement: what is read from a spelled
envelope does not depend on the order of the fields, on the form of keys and
values, or on fields whose tags have no meaning.
-/

namespace Meshway

open Meshway.Cbor

/-- Whether a tag has a meaning. -/
def Tag.Meaningful (tag : UInt64) : Prop := Tag.payload ≤ tag ∧ tag ≤ Tag.streamId

instance (tag : UInt64) : Decidable (Tag.Meaningful tag) :=
  inferInstanceAs (Decidable (Tag.payload ≤ tag ∧ tag ≤ Tag.streamId))

/-! ## Envelopes that agree -/

namespace Envelope

/-- Whether two envelopes have the same under every tag that has a meaning. -/
def Agree (env env' : Envelope) : Prop :=
  ∀ tag, Tag.Meaningful tag → TagMap.get? env tag = TagMap.get? env' tag

namespace Agree

variable {env env' : Envelope} (h : env.Agree env') (tag : UInt64) (htag : Tag.Meaningful tag)
include h htag

theorem contains : TagMap.contains env tag = TagMap.contains env' tag := by
  rw [TagMap.contains, TagMap.contains, h tag htag]

theorem bytes : env.bytes tag = env'.bytes tag := by
  rw [Envelope.bytes, Envelope.bytes, bytes?, bytes?, h tag htag]

theorem text : env.text tag = env'.text tag := by
  rw [Envelope.text, Envelope.text, text?, text?, h tag htag]

theorem uint : env.uint tag = env'.uint tag := by
  rw [Envelope.uint, Envelope.uint, uint?, uint?, h tag htag]

theorem octet : env.octet tag = env'.octet tag := by
  rw [Envelope.octet, Envelope.octet, h.uint tag htag]

end Agree

end Envelope

section Shapes

variable {env env' : Envelope} (h : env.Agree env')
include h

theorem Chunk.ofEnvelope_congr : Chunk.ofEnvelope env = Chunk.ofEnvelope env' := by
  have hid : idOf env = idOf env' := by
    rw [idOf, idOf, h.bytes Tag.streamId (by decide)]
  have hdestination : destinationOf env = destinationOf env' := by
    rw [destinationOf, destinationOf, h.text Tag.host (by decide), h.uint Tag.port (by decide)]
  have hplace : placeOf env = placeOf env' := by
    rw [placeOf, placeOf, h.contains Tag.host (by decide), h.contains Tag.port (by decide),
      h.octet Tag.index (by decide), hdestination]
  rw [ofEnvelope, ofEnvelope, hid, h.bytes Tag.payload (by decide),
    h.octet Tag.count (by decide), hplace]

theorem TxSegment.ofEnvelope_congr : TxSegment.ofEnvelope env = TxSegment.ofEnvelope env' := by
  have hshort : shortIdOf env = shortIdOf env' := by
    rw [shortIdOf, shortIdOf, h.bytes Tag.shortId (by decide)]
  have hid : txIdOf env = txIdOf env' := by
    rw [txIdOf, txIdOf, h.bytes Tag.txId (by decide)]
  have hnetwork : networkOf env = networkOf env' := by
    rw [networkOf, networkOf, h Tag.network (by decide)]
  have hopening : openingOf env = openingOf env' := by
    rw [openingOf, openingOf, hid, h.octet Tag.count (by decide), hnetwork]
  rw [ofEnvelope, ofEnvelope, hshort, h.bytes Tag.payload (by decide),
    h.contains Tag.txId (by decide), h.contains Tag.network (by decide), hopening,
    h.octet Tag.index (by decide)]

theorem Sms.ofEnvelope_congr : Sms.ofEnvelope env = Sms.ofEnvelope env' := by
  rw [ofEnvelope, ofEnvelope, h.text Tag.phone (by decide), h.text Tag.text (by decide)]

/-- Envelopes that agree hold the same payload or are wrong in the same way, or neither has a known
shape. -/
theorem Payload.ofEnvelope_congr :
    ofEnvelope env = ofEnvelope env' ∨
      ofEnvelope env = .error (.unknownShape (TagMap.tags env)) ∧
        ofEnvelope env' = .error (.unknownShape (TagMap.tags env')) := by
  simp only [ofEnvelope, Chunk.ofEnvelope_congr h, TxSegment.ofEnvelope_congr h,
    Sms.ofEnvelope_congr h, h.contains Tag.streamId (by decide),
    h.contains Tag.payload (by decide), h.contains Tag.host (by decide),
    h.contains Tag.port (by decide), h.contains Tag.index (by decide),
    h.contains Tag.count (by decide), h.contains Tag.shortId (by decide),
    h.contains Tag.txId (by decide), h.contains Tag.network (by decide),
    h.contains Tag.phone (by decide), h.contains Tag.text (by decide)]
  -- every branch reads fields with a meaning, except the three that fit no shape
  split
  · split
    · exact .inl rfl
    · exact .inr ⟨rfl, rfl⟩
  split
  · split
    · exact .inl rfl
    · exact .inr ⟨rfl, rfl⟩
  split
  · exact .inl rfl
  · exact .inr ⟨rfl, rfl⟩

end Shapes

/-! ## Spelled envelopes -/

/-- Entries with distinct tags, put into any order, and others whose tags have no meaning make an
envelope that agrees. -/
theorem Envelope.agree_ofList {es es' foreign : List (UInt64 × Value)}
    (hdistinct : (es.map Prod.fst).Nodup) (hforeign : ∀ e ∈ foreign, ¬ Tag.Meaningful e.1)
    (hperm : es'.Perm (es ++ foreign)) : Agree (TagMap.ofList es') (TagMap.ofList es) := by
  intro tag htag
  refine TagMap.get?_ofList_congr (TagMap.givenOnce_of_nodup hdistinct tag) fun v => ?_
  rw [hperm.mem_iff, List.mem_append]
  refine ⟨?_, .inl⟩
  rintro (hv | hv)
  · exact hv
  · exact absurd htag (hforeign _ hv)

namespace Payload

theorem decode_spelling (s : TagMap.Spelling) :
    decode s.octets = ofEnvelope (TagMap.ofList s.entries) := by
  rw [decode, Envelope.decode, s.decode_octets]

/-- A well-formed payload is read from every spelling of its fields, whatever fields without a
meaning stand among them. -/
theorem decode_spelling_of_wellFormed {p : Payload} (h : p.WellFormed) {s : TagMap.Spelling}
    {foreign : List (UInt64 × Value)} (hforeign : ∀ e ∈ foreign, ¬ Tag.Meaningful e.1)
    (hperm : s.entries.Perm (p.toEnvelope.entries ++ foreign)) : decode s.octets = .ok p := by
  have hagree := Envelope.agree_ofList (TagMap.nodup_tags p.toEnvelope) hforeign hperm
  rw [TagMap.ofList_entries] at hagree
  rw [decode_spelling]
  rcases ofEnvelope_congr hagree with heq | ⟨-, hunknown⟩
  · rw [heq, ofEnvelope_toEnvelope h]
  · rw [ofEnvelope_toEnvelope h] at hunknown
    cases hunknown

/-- The fields of an envelope with distinct tags may be put into any order, their keys and values
written in any form, and fields put among them whose tags have no meaning.  What is found under a
tag with a meaning is what the field with this tag gives, and so the same payload is read, or the
same is found wrong, or neither envelope has a known shape. -/
theorem decode_looks_up_by_tag {s s' : TagMap.Spelling} {foreign : List (UInt64 × Value)}
    (hdistinct : (s.entries.map Prod.fst).Nodup) (hforeign : ∀ e ∈ foreign, ¬ Tag.Meaningful e.1)
    (hperm : s'.entries.Perm (s.entries ++ foreign)) :
    (∃ env, Envelope.decode s'.octets = .ok env ∧ ∀ tag v, Tag.Meaningful tag →
      (TagMap.get? env tag = some v ↔ (tag, v) ∈ s.entries)) ∧
    (decode s'.octets = decode s.octets ∨
      ∃ tags tags', decode s.octets = .error (.unknownShape tags) ∧
        decode s'.octets = .error (.unknownShape tags')) := by
  have hagree := Envelope.agree_ofList hdistinct hforeign hperm
  refine ⟨⟨_, by rw [Envelope.decode, s'.decode_octets], fun tag v htag => ?_⟩, ?_⟩
  · rw [hagree tag htag]
    exact TagMap.get?_ofList_eq_some_iff (TagMap.givenOnce_of_nodup hdistinct tag)
  · rw [decode_spelling, decode_spelling]
    rcases ofEnvelope_congr hagree with heq | ⟨hs', hs⟩
    · exact .inl heq
    · exact .inr ⟨_, _, hs, hs'⟩

/-- A short message, and the same with its text before its phone number, wide keys, an array under a
tag that has no meaning between them, and an end mark. -/
theorem decode_looks_up_in_reordered_sms :
    decode [0xa2, 0x18, 25, 0x62, 0x2b, 0x31, 0x18, 26, 0x62, 0x68, 0x69] =
        .ok (.sms ⟨"+1", "hi"⟩) ∧
      decode [0xbf, 0x19, 0, 26, 0x62, 0x68, 0x69, 7, 0x81, 0xf6, 0x1b, 0, 0, 0, 0, 0, 0, 0, 25,
        0x62, 0x2b, 0x31, 0xff] = .ok (.sms ⟨"+1", "hi"⟩) := by
  have hread : decode [0xa2, 0x18, 25, 0x62, 0x2b, 0x31, 0x18, 26, 0x62, 0x68, 0x69] =
      .ok (.sms ⟨"+1", "hi"⟩) := rfl
  have hperm : List.Perm
      ([(26, .text "hi"), (7, .array [.null]), (25, .text "+1")] : List (UInt64 × Value))
      ([(25, .text "+1"), (26, .text "hi")] ++ [(7, .array [.null])]) :=
    @List.perm_append_comm _ [_, _] [_]
  obtain ⟨-, hlook⟩ := @decode_looks_up_by_tag
    ⟨[⟨25, .one, by decide, .text "+1", [0x62, 0x2b, 0x31], rfl⟩,
      ⟨26, .one, by decide, .text "hi", [0x62, 0x68, 0x69], rfl⟩], some .inline,
        by simp [HeadForm.limit]⟩
    ⟨[⟨26, .two, by decide, .text "hi", [0x62, 0x68, 0x69], rfl⟩,
      ⟨7, .inline, by decide, .array [.null], [0x81, 0xf6], rfl⟩,
      ⟨25, .eight, by decide, .text "+1", [0x62, 0x2b, 0x31], rfl⟩], none, by simp⟩
    [(7, .array [.null])] (by decide) (by decide) hperm
  rcases hlook with heq | ⟨tags, _, hunknown, _⟩
  · exact ⟨hread, heq.trans hread⟩
  · cases hread.symm.trans hunknown

end Payload

end Meshway
