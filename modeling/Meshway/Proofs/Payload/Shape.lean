import Meshway.Proofs.Payload.Codec
set_option autoImplicit false

/-!
# Which envelopes are short messages (SPEC §10.3 item 3)

The shape of an envelope is told by its tags, one shape after the other.  A
short message is found wherever its two texts are, unless there is a payload
with an identity beside it.  So an identity alone does not keep an envelope with
two texts from being a short message; main statement: that is the one case in
which the rule that no identity stands beside a short message is not kept.
-/

namespace Meshway

/-! ## Shapes -/

/-- Whether an envelope has the two texts of a short message. -/
structure Sms.LiesIn (m : Sms) (env : Envelope) : Prop where
  phone : TagMap.get? env Tag.phone = some (.text m.phone)
  text : TagMap.get? env Tag.text = some (.text m.text)

namespace Envelope

/-- Whether an envelope names a stream or a transaction. -/
def Identified (env : Envelope) : Prop :=
  TagMap.contains env Tag.streamId = true ∨ TagMap.contains env Tag.shortId = true

/-- Whether an envelope has the tags of a chunk: those of one that names a destination, or those of
one that tells its number. -/
def HasChunk (env : Envelope) : Prop :=
  (TagMap.contains env Tag.streamId = true ∧ TagMap.contains env Tag.payload = true) ∧
    (TagMap.contains env Tag.host = true ∨ TagMap.contains env Tag.port = true ∨
      TagMap.contains env Tag.index = true ∧ TagMap.contains env Tag.count = true)

/-- Whether an envelope has the tags of a segment of a transaction: those of one that opens it, or
those of one that tells its number. -/
def HasSegment (env : Envelope) : Prop :=
  (TagMap.contains env Tag.shortId = true ∧ TagMap.contains env Tag.payload = true) ∧
    (TagMap.contains env Tag.txId = true ∨ TagMap.contains env Tag.network = true ∨
      TagMap.contains env Tag.index = true)

instance (env : Envelope) : Decidable env.Identified := inferInstanceAs (Decidable (_ ∨ _))

instance (env : Envelope) : Decidable env.HasChunk := inferInstanceAs (Decidable (_ ∧ _))

instance (env : Envelope) : Decidable env.HasSegment := inferInstanceAs (Decidable (_ ∧ _))

end Envelope

theorem Sms.ofEnvelope_eq_ok_iff {env : Envelope} {m : Sms} :
    ofEnvelope env = .ok m ↔ m.LiesIn env := by
  unfold ofEnvelope
  constructor
  · intro h
    split at h
    · cases h
    · rename_i phone hphone
      obtain ⟨text, htext, rfl⟩ := Cbor.Reader.of_map_eq_ok h
      exact ⟨Envelope.text_eq_ok_iff.1 hphone, Envelope.text_eq_ok_iff.1 htext⟩
  · rintro ⟨hphone, htext⟩
    simp only [Envelope.text_eq_ok_iff.2 hphone, Envelope.text_eq_ok_iff.2 htext, Except.map]

namespace Payload

variable {env : Envelope}

theorem contains_of_get? {tag : UInt64} {v : Cbor.Value} (h : TagMap.get? env tag = some v) :
    TagMap.contains env tag = true := by
  rw [TagMap.contains, h]
  rfl

/-! ## What is made of each shape -/

/-- Where there is no identity with a payload, two fields of text are all that is asked for. -/
theorem ofEnvelope_of_no_part
    (h : env.Identified → TagMap.contains env Tag.payload = false)
    (hphone : TagMap.contains env Tag.phone = true)
    (htext : TagMap.contains env Tag.text = true) :
    ofEnvelope env = (Sms.ofEnvelope env).map .sms := by
  have hstream : (TagMap.contains env Tag.streamId && TagMap.contains env Tag.payload) = false := by
    cases hid : TagMap.contains env Tag.streamId with
    | false => rfl
    | true => exact h (.inl hid)
  have hshort : (TagMap.contains env Tag.shortId && TagMap.contains env Tag.payload) = false := by
    cases hid : TagMap.contains env Tag.shortId with
    | false => rfl
    | true => exact h (.inr hid)
  simp [ofEnvelope, hstream, hshort, hphone, htext]

/-- Where there is, no short message is found. -/
theorem ofEnvelope_ne_sms (hid : env.Identified) (hpayload : TagMap.contains env Tag.payload = true)
    (m : Sms) : ofEnvelope env ≠ .ok (.sms m) := by
  intro h
  unfold ofEnvelope at h
  simp only [hpayload, Bool.and_true] at h
  split at h
  · split at h
    · obtain ⟨c, -, heq⟩ := Cbor.Reader.of_map_eq_ok h
      cases heq
    · cases h
  · rename_i hstream
    split at h
    · split at h
      · obtain ⟨s, -, heq⟩ := Cbor.Reader.of_map_eq_ok h
        cases heq
      · cases h
    · rename_i hshort
      exact hid.elim hstream hshort

/-- An identity with a payload, but in neither shape, is nothing that is known. -/
theorem ofEnvelope_of_part (hid : env.Identified)
    (hpayload : TagMap.contains env Tag.payload = true) (hchunk : ¬ env.HasChunk)
    (hsegment : ¬ env.HasSegment) : ofEnvelope env = .error (.unknownShape env.tags) := by
  unfold ofEnvelope
  simp only [hpayload, Bool.and_true]
  split
  · rename_i hstream
    exact if_neg fun h => hchunk ⟨⟨hstream, hpayload⟩, by simpa [or_assoc] using h⟩
  · rename_i hstream
    split
    · rename_i hshort
      exact if_neg fun h => hsegment ⟨⟨hshort, hpayload⟩, by simpa [or_assoc] using h⟩
    · rename_i hshort
      exact absurd hid (not_or.2 ⟨hstream, hshort⟩)

/-- A short message is read where its texts are, and no identity with a payload. -/
theorem ofEnvelope_eq_sms_iff {m : Sms} :
    ofEnvelope env = .ok (.sms m) ↔
      m.LiesIn env ∧ (env.Identified → TagMap.contains env Tag.payload = false) := by
  constructor
  · intro h
    refine ⟨?_, fun hid => Bool.eq_false_iff.2 fun hpayload => ofEnvelope_ne_sms hid hpayload m h⟩
    rcases ofEnvelope_eq_ok h with ⟨c, -, heq⟩ | ⟨s, -, heq⟩ | ⟨m', hm', heq⟩
    · cases heq
    · cases heq
    · cases heq
      exact Sms.ofEnvelope_eq_ok_iff.1 hm'
  · rintro ⟨hm, hno⟩
    rw [ofEnvelope_of_no_part hno (contains_of_get? hm.phone) (contains_of_get? hm.text),
      Sms.ofEnvelope_eq_ok_iff.2 hm]
    rfl

/-! ## The rule for short messages -/

/-- When an envelope is read as a short message.  The rule that this is so just when both texts are
there and no identity of a stream or transaction is kept unless there are texts and an identity, but
no payload.  And where tags of a message stand with an identity that is part of no other shape, the
envelope is refused if there is a payload, else read as if the identity were not there. -/
theorem ofEnvelope_eq_sms_iff_liesIn (env : Envelope) :
    (∀ m, ofEnvelope env = .ok (.sms m) ↔
      m.LiesIn env ∧ (env.Identified → TagMap.contains env Tag.payload = false)) ∧
    (((∃ m, ofEnvelope env = .ok (.sms m)) ↔ (∃ m : Sms, m.LiesIn env) ∧ ¬ env.Identified) ↔
      ((∃ m : Sms, m.LiesIn env) → env.Identified → TagMap.contains env Tag.payload = true)) ∧
    (TagMap.contains env Tag.phone = true → TagMap.contains env Tag.text = true →
      env.Identified → ¬ env.HasChunk → ¬ env.HasSegment →
        ofEnvelope env = if TagMap.contains env Tag.payload then .error (.unknownShape env.tags)
          else (Sms.ofEnvelope env).map .sms) := by
  refine ⟨fun m => ofEnvelope_eq_sms_iff, ⟨fun hrule hm hid => ?_, fun hpayload => ⟨?_, ?_⟩⟩, ?_⟩
  · obtain ⟨m, hm⟩ := hm
    refine Bool.of_not_eq_false fun hno => ?_
    exact (hrule.1 ⟨m, ofEnvelope_eq_sms_iff.2 ⟨hm, fun _ => hno⟩⟩).2 hid
  · rintro ⟨m, h⟩
    obtain ⟨hm, hno⟩ := ofEnvelope_eq_sms_iff.1 h
    refine ⟨⟨m, hm⟩, fun hid => ?_⟩
    exact Bool.false_ne_true ((hno hid).symm.trans (hpayload ⟨m, hm⟩ hid))
  · rintro ⟨⟨m, hm⟩, hid⟩
    exact ⟨m, ofEnvelope_eq_sms_iff.2 ⟨hm, fun h => absurd h hid⟩⟩
  · intro hphone htext hid hchunk hsegment
    cases hpayload : TagMap.contains env Tag.payload with
    | true => exact ofEnvelope_of_part hid hpayload hchunk hsegment
    | false => exact ofEnvelope_of_no_part (fun _ => hpayload) hphone htext

/-- Two texts and the identity of a stream are refused beside a payload. -/
theorem ofEnvelope_ne_sms_beside_payload :
    let texts : Envelope := (Envelope.withText TagMap.empty Tag.phone "+").withText Tag.text "hi"
    let env := (texts.withBytes Tag.streamId [1, 2, 3, 4, 5, 6, 7, 8]).withBytes Tag.payload [9]
    env.Identified ∧ ¬ env.HasChunk ∧ ¬ env.HasSegment ∧
      ofEnvelope env = .error (.unknownShape [24, 25, 26, 34]) := by
  intro texts env
  have hid : env.Identified := by decide
  have hchunk : ¬ env.HasChunk := by decide
  have hsegment : ¬ env.HasSegment := by decide
  exact ⟨hid, hchunk, hsegment, (ofEnvelope_eq_sms_iff_liesIn env).2.2 rfl rfl hid hchunk hsegment⟩

/-- Two texts beside the identity of a stream, or of a transaction, are read as a short message when
there is no payload. -/
theorem ofEnvelope_eq_sms_beside_identity :
    let texts : Envelope := (Envelope.withText TagMap.empty Tag.phone "+").withText Tag.text "hi"
    let ofStream := texts.withBytes Tag.streamId [1, 2, 3, 4, 5, 6, 7, 8]
    let ofTransaction := texts.withBytes Tag.shortId [1, 2, 3, 4, 5, 6, 7, 8]
    (ofStream.Identified ∧ ofEnvelope ofStream = .ok (.sms ⟨"+", "hi"⟩)) ∧
      ofTransaction.Identified ∧ ofEnvelope ofTransaction = .ok (.sms ⟨"+", "hi"⟩) := by
  intro texts ofStream ofTransaction
  exact ⟨⟨by decide, rfl⟩, by decide, rfl⟩

end Payload

end Meshway
