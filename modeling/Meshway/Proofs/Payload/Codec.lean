import Meshway.Proofs.Payload
import Meshway.Proofs.TagMap.Canonical
set_option autoImplicit false

/-!
# Payloads and what is read as one (SPEC §4.1)

Every payload has a written form, but not every payload is read back from it: a
chunk that names a destination and a segment that opens a transaction have no
room for their number, and some numbers are refused.  Well-formed payloads are
those that are read back.  Main statement: they are also all that is ever read,
whatever the input, so that a payload that was read can be written and read
again.
-/

namespace Meshway

open Meshway.Cbor

/-! ## Fields -/

namespace Envelope

variable {env : Envelope} {tag : UInt64}

theorem mem_entries_of_get? {v : Value} (h : TagMap.get? env tag = some v) :
    (tag, v) ∈ env.entries := by
  rw [TagMap.get?] at h
  generalize env.entries = es at h
  induction es with
  | nil => cases h
  | cons e es ih =>
    obtain ⟨t, w⟩ := e
    rw [TagMap.lookup_cons_ite] at h
    split at h
    · rename_i heq
      cases h
      exact heq ▸ List.mem_cons_self ..
    · exact List.mem_cons_of_mem _ (ih h)

/-- Octets are read where there are octets. -/
theorem bytes_eq_ok_iff {bs : Bytes} :
    env.bytes tag = .ok bs ↔ TagMap.get? env tag = some (.bytes bs) := by
  unfold bytes bytes?
  cases TagMap.get? env tag with
  | none => simp [need]
  | some v => cases v <;> simp [need]

/-- Text is read where there is text. -/
theorem text_eq_ok_iff {s : String} :
    env.text tag = .ok s ↔ TagMap.get? env tag = some (.text s) := by
  unfold text text?
  cases TagMap.get? env tag with
  | none => simp [need]
  | some v => cases v <;> simp [need]

/-- Octets in a regular envelope fit a head. -/
theorem length_of_bytes (h : TagMap.Regular env) {bs : Bytes} (hread : env.bytes tag = .ok bs) :
    bs.length < UInt64.size := by
  have hregular := h.values _ (mem_entries_of_get? (bytes_eq_ok_iff.1 hread))
  cases hregular with
  | bytes hlen => exact hlen

/-- Text in a regular envelope fits a head. -/
theorem size_of_text (h : TagMap.Regular env) {s : String} (hread : env.text tag = .ok s) :
    Utf8.size s < UInt64.size := by
  have hregular := h.values _ (mem_entries_of_get? (text_eq_ok_iff.1 hread))
  cases hregular with
  | text hlen => exact hlen

end Envelope

/-! ## Chunks -/

namespace Chunk

variable {env : Envelope} {c : Chunk}

/-- A destination stands in the place of the number zero. -/
theorem placeOf_eq_ok {destination : Option Destination} {index : UInt8}
    (h : placeOf env = .ok (destination, index)) :
    (destination ≠ none → index = 0) ∧
      ∀ d, destination = some d → env.text Tag.host = .ok d.host := by
  unfold placeOf at h
  split at h
  · obtain ⟨d, hd, heq⟩ := Reader.of_map_eq_ok h
    cases heq
    refine ⟨fun _ => rfl, fun d' hd' => ?_⟩
    cases hd'
    unfold destinationOf at hd
    split at hd
    · cases hd
    · rename_i host hhost
      split at hd
      · cases hd
      · split at hd
        · cases hd
          exact hhost
        · cases hd
  · obtain ⟨i, -, heq⟩ := Reader.of_map_eq_ok h
    cases heq
    exact ⟨fun hne => absurd rfl hne, fun d hd => by cases hd⟩

/-- Every chunk that is read has its place among the others of its message, and its strings are
those of its fields. -/
theorem ofEnvelope_eq_ok (h : ofEnvelope env = .ok c) :
    c.WellFormed ∧ env.bytes Tag.payload = .ok c.payload ∧
      ∀ d, c.destination = some d → env.text Tag.host = .ok d.host := by
  unfold ofEnvelope at h
  split at h
  · cases h
  · split at h
    · cases h
    · rename_i payload hpayload
      split at h
      · cases h
      · split at h
        · cases h
        · rename_i destination index hplace
          obtain ⟨hindex, hhost⟩ := placeOf_eq_ok hplace
          split at h
          · cases h
          · rename_i hinside
            cases h
            refine ⟨⟨hindex, fun hne => ?_⟩, hpayload, hhost⟩
            exact UInt8.not_le.1 fun hle => hinside ⟨hne, hle⟩

theorem sized_of_ofEnvelope (henv : TagMap.Regular env) (h : ofEnvelope env = .ok c) : c.Sized := by
  obtain ⟨-, hpayload, hhost⟩ := ofEnvelope_eq_ok h
  exact ⟨Envelope.length_of_bytes henv hpayload,
    fun d hd => Envelope.size_of_text henv (hhost d hd)⟩

end Chunk

/-! ## Segments of a transaction -/

namespace TxSegment

/-- The number of a segment is as its opening asks, and a transaction has segments. -/
structure WellFormed (s : TxSegment) : Prop where
  index_of_opening : s.opening ≠ none → s.index = 0
  count_pos : ∀ o, s.opening = some o → 1 ≤ o.count

/-- The octets of a segment are no more than a head can say. -/
def Sized (s : TxSegment) : Prop := s.payload.length < UInt64.size

/-- The fields of a segment that tells its number. -/
theorem entries_toEnvelope_of_none {s : TxSegment} (h : s.opening = none) :
    s.toEnvelope.entries =
      [(Tag.payload, .bytes s.payload), (Tag.index, .int s.index.toUInt64.toNat),
        (Tag.shortId, .bytes s.shortId.octets)] := by
  unfold toEnvelope
  rw [h]
  rfl

/-- The fields of a segment that opens a transaction. -/
theorem entries_toEnvelope_of_some {s : TxSegment} {o : TxOpening} (h : s.opening = some o) :
    s.toEnvelope.entries =
      [(Tag.payload, .bytes s.payload), (Tag.network, .int o.network.selector.toUInt64.toNat),
        (Tag.count, .int o.count.toUInt64.toNat), (Tag.shortId, .bytes s.shortId.octets),
        (Tag.txId, .bytes o.txId.octets)] := by
  unfold toEnvelope
  rw [h]
  rfl

theorem readable_toEnvelope {s : TxSegment} (h : s.Sized) : Envelope.Readable s.toEnvelope := by
  have hid : s.shortId.octets.length < UInt64.size := by
    rw [s.shortId.length_octets]
    decide
  have hbase : Envelope.Readable (Envelope.withBytes TagMap.empty Tag.shortId s.shortId.octets) :=
    Envelope.readable_withBytes Envelope.readable_empty hid
  refine Envelope.readable_withBytes ?_ h
  cases s.opening with
  | none => exact Envelope.readable_withUInt hbase
  | some o =>
    have htxId : o.txId.octets.length < UInt64.size := by
      rw [o.txId.length_octets]
      decide
    exact Envelope.readable_withUInt
      (Envelope.readable_withUInt (Envelope.readable_withBytes hbase htxId))

theorem size_toEnvelope_lt (s : TxSegment) : TagMap.size s.toEnvelope < UInt64.size := by
  cases ho : s.opening with
  | none =>
    rw [TagMap.size, entries_toEnvelope_of_none ho]
    simp [UInt64.size]
  | some o =>
    rw [TagMap.size, entries_toEnvelope_of_some ho]
    simp [UInt64.size]

/-- The network of a segment is found in its fields. -/
theorem networkOf_of_get? {env : Envelope} {n : Network}
    (h : TagMap.get? env Tag.network = some (.int n.selector.toUInt64.toNat)) :
    networkOf env = .ok n := by
  have hlt : n.selector.toNat < 256 := n.selector.toNat_lt
  have hoctet : n.selector.toUInt64.toNat = n.selector.toNat := UInt8.toNat_toUInt64 _
  rw [hoctet] at h
  simp only [networkOf, h]
  rw [if_pos (by omega), Int.toNat_natCast, UInt8.ofNat_toNat, Network.ofSelector_selector]

/-- What a segment opens is found in its fields. -/
theorem openingOf_toEnvelope {s : TxSegment} {o : TxOpening} (h : s.opening = some o)
    (hcount : 1 ≤ o.count) : openingOf s.toEnvelope = .ok o := by
  have hget : ∀ tag, TagMap.get? s.toEnvelope tag = List.lookup tag _ := fun tag =>
    congrArg (List.lookup tag) (entries_toEnvelope_of_some h)
  have htxId : txIdOf s.toEnvelope = .ok o.txId := by
    have hbytes : Envelope.bytes s.toEnvelope Tag.txId = .ok o.txId.octets :=
      Envelope.bytes_eq_ok_iff.2 (hget _)
    simp [txIdOf, hbytes, TxId.ofBytes?, o.txId.length_octets]
  have hoctet : Envelope.octet s.toEnvelope Tag.count = .ok o.count :=
    Envelope.octet_of_get? (hget _)
  have hnetwork : networkOf s.toEnvelope = .ok o.network := networkOf_of_get? (hget _)
  have hpos : o.count ≠ 0 := by
    rintro hzero
    rw [hzero] at hcount
    exact absurd hcount (by decide)
  simp only [openingOf, htxId, hoctet, hnetwork, hpos, if_false, Except.map]

/-- What every segment has under the tags that all segments have. -/
theorem get?_toEnvelope (s : TxSegment) :
    TagMap.get? s.toEnvelope Tag.shortId = some (.bytes s.shortId.octets) ∧
      TagMap.get? s.toEnvelope Tag.payload = some (.bytes s.payload) := by
  cases ho : s.opening with
  | none =>
    rw [TagMap.get?, TagMap.get?, entries_toEnvelope_of_none ho]
    exact ⟨rfl, rfl⟩
  | some o =>
    rw [TagMap.get?, TagMap.get?, entries_toEnvelope_of_some ho]
    exact ⟨rfl, rfl⟩

/-- The fields of a segment are those of a segment again. -/
theorem ofEnvelope_toEnvelope {s : TxSegment} (h : s.WellFormed) :
    ofEnvelope s.toEnvelope = .ok s := by
  obtain ⟨hid, hpayload⟩ := get?_toEnvelope s
  have hidOf : shortIdOf s.toEnvelope = .ok s.shortId := by
    have hbytes : Envelope.bytes s.toEnvelope Tag.shortId = .ok s.shortId.octets :=
      Envelope.bytes_eq_ok_iff.2 hid
    simp [shortIdOf, hbytes, ShortId.ofBytes?, s.shortId.length_octets]
  have hbytes : Envelope.bytes s.toEnvelope Tag.payload = .ok s.payload :=
    Envelope.bytes_eq_ok_iff.2 hpayload
  cases ho : s.opening with
  | none =>
    have hopens : (TagMap.contains s.toEnvelope Tag.txId ||
        TagMap.contains s.toEnvelope Tag.network) = false := by
      simp only [TagMap.contains, TagMap.get?, entries_toEnvelope_of_none ho]
      rfl
    have hindex : Envelope.octet s.toEnvelope Tag.index = .ok s.index :=
      Envelope.octet_of_get? (congrArg (List.lookup Tag.index) (entries_toEnvelope_of_none ho))
    have heq : (⟨s.shortId, s.index, none, s.payload⟩ : TxSegment) = s := by rw [← ho]
    simp [ofEnvelope, hidOf, hbytes, hopens, hindex, Except.map, heq]
  | some o =>
    have hopens : (TagMap.contains s.toEnvelope Tag.txId ||
        TagMap.contains s.toEnvelope Tag.network) = true := by
      simp only [TagMap.contains, TagMap.get?, entries_toEnvelope_of_some ho]
      rfl
    have hopening : openingOf s.toEnvelope = .ok o := openingOf_toEnvelope ho (h.count_pos o ho)
    have hzero : s.index = 0 := h.index_of_opening (by simp [ho])
    have heq : (⟨s.shortId, 0, some o, s.payload⟩ : TxSegment) = s := by rw [← ho, ← hzero]
    simp only [ofEnvelope, hidOf, hbytes, hopens, hopening, Except.map, heq, if_true]

/-- A transaction that is opened has segments. -/
theorem one_le_of_openingOf {env : Envelope} {o : TxOpening} (h : openingOf env = .ok o) :
    1 ≤ o.count := by
  unfold openingOf at h
  split at h
  · cases h
  · split at h
    · cases h
    · rename_i count hcount
      split at h
      · cases h
      · rename_i hne
        obtain ⟨n, -, rfl⟩ := Reader.of_map_eq_ok h
        have hne' : count.toNat ≠ 0 := fun h0 => hne (UInt8.toNat_inj.1 h0)
        exact UInt8.le_iff_toNat_le.2 (Nat.one_le_iff_ne_zero.2 hne')

/-- Every segment that is read is as its opening asks, and its octets are those of its field. -/
theorem ofEnvelope_eq_ok {env : Envelope} {s : TxSegment} (h : ofEnvelope env = .ok s) :
    s.WellFormed ∧ env.bytes Tag.payload = .ok s.payload := by
  unfold ofEnvelope at h
  split at h
  · cases h
  · split at h
    · cases h
    · rename_i payload hpayload
      split at h
      · obtain ⟨o, ho, rfl⟩ := Reader.of_map_eq_ok h
        refine ⟨⟨fun _ => rfl, fun o' ho' => ?_⟩, hpayload⟩
        cases ho'
        exact one_le_of_openingOf ho
      · obtain ⟨i, -, rfl⟩ := Reader.of_map_eq_ok h
        exact ⟨⟨fun hne => absurd rfl hne, fun o ho => by cases ho⟩, hpayload⟩

/-- The fields of a segment are told from those of other payloads. -/
theorem payload_ofEnvelope_toEnvelope (s : TxSegment) :
    Payload.ofEnvelope s.toEnvelope = (TxSegment.ofEnvelope s.toEnvelope).map .segment := by
  cases ho : s.opening with
  | none =>
    simp only [Payload.ofEnvelope, TagMap.contains, TagMap.get?, entries_toEnvelope_of_none ho]
    rfl
  | some o =>
    simp only [Payload.ofEnvelope, TagMap.contains, TagMap.get?, entries_toEnvelope_of_some ho]
    rfl

end TxSegment

/-! ## Short messages -/

namespace Sms

/-- The texts of a short message are no longer than a head can say. -/
structure Sized (m : Sms) : Prop where
  phone_lt : Utf8.size m.phone < UInt64.size
  text_lt : Utf8.size m.text < UInt64.size

theorem readable_toEnvelope {m : Sms} (h : m.Sized) : Envelope.Readable m.toEnvelope :=
  Envelope.readable_withText
    (Envelope.readable_withText Envelope.readable_empty h.phone_lt) h.text_lt

theorem size_toEnvelope_lt (m : Sms) : TagMap.size m.toEnvelope < UInt64.size := by
  have hsize : TagMap.size m.toEnvelope = 2 := rfl
  rw [hsize]
  decide

/-- The fields of a short message are told from those of other payloads. -/
theorem payload_ofEnvelope_toEnvelope (m : Sms) :
    Payload.ofEnvelope m.toEnvelope = .ok (.sms m) := rfl

theorem sized_of_ofEnvelope {env : Envelope} {m : Sms} (henv : TagMap.Regular env)
    (h : ofEnvelope env = .ok m) : m.Sized := by
  unfold ofEnvelope at h
  split at h
  · cases h
  · rename_i phone hphone
    obtain ⟨text, htext, rfl⟩ := Reader.of_map_eq_ok h
    exact ⟨Envelope.size_of_text henv hphone, Envelope.size_of_text henv htext⟩

end Sms

/-! ## Payloads -/

namespace Payload

/-- Whether the numbers of a payload are as its other fields ask. -/
def WellFormed : Payload → Prop
  | .sms _ => True
  | .chunk c => c.WellFormed
  | .segment s => s.WellFormed

/-- Whether the strings of a payload are no longer than a head can say, as all strings in a memory
of sixty-four-bit addresses are. -/
def Sized : Payload → Prop
  | .sms m => m.Sized
  | .chunk c => c.Sized
  | .segment s => s.Sized

/-- The fields of a payload are read from its written form. -/
theorem decode_encode_eq {p : Payload} (h : p.Sized) :
    decode p.encode = ofEnvelope p.toEnvelope := by
  have hread : Envelope.decode p.encode = .ok p.toEnvelope := by
    cases p with
    | sms m => exact Envelope.decode_wire m.size_toEnvelope_lt (Sms.readable_toEnvelope h)
    | chunk c => exact Envelope.decode_wire c.size_toEnvelope_lt (Chunk.readable_toEnvelope h)
    | segment s => exact Envelope.decode_wire s.size_toEnvelope_lt (TxSegment.readable_toEnvelope h)
  rw [decode, hread]

/-- A well-formed payload is found in its fields. -/
theorem ofEnvelope_toEnvelope {p : Payload} (h : p.WellFormed) :
    ofEnvelope p.toEnvelope = .ok p := by
  cases p with
  | sms m => exact m.payload_ofEnvelope_toEnvelope
  | chunk c =>
    rw [toEnvelope, Chunk.payload_ofEnvelope_toEnvelope, Chunk.ofEnvelope_toEnvelope h]
    rfl
  | segment s =>
    rw [toEnvelope, TxSegment.payload_ofEnvelope_toEnvelope, TxSegment.ofEnvelope_toEnvelope h]
    rfl

/-- A well-formed payload is read back from its written form. -/
theorem decode_encode {p : Payload} (h : p.WellFormed) (hsize : p.Sized) :
    decode p.encode = .ok p :=
  (decode_encode_eq hsize).trans (ofEnvelope_toEnvelope h)

theorem decode_encode_chunk {c : Chunk} (h : c.WellFormed) (hsize : c.Sized) :
    decode (encode (.chunk c)) = .ok (.chunk c) :=
  decode_encode (p := .chunk c) h hsize

/-- A payload that is found in an envelope is a payload of one of the three kinds. -/
theorem ofEnvelope_eq_ok {env : Envelope} {p : Payload} (h : ofEnvelope env = .ok p) :
    (∃ c, Chunk.ofEnvelope env = .ok c ∧ p = .chunk c) ∨
      (∃ s, TxSegment.ofEnvelope env = .ok s ∧ p = .segment s) ∨
        ∃ m, Sms.ofEnvelope env = .ok m ∧ p = .sms m := by
  unfold ofEnvelope at h
  simp only at h
  split at h
  · split at h
    · obtain ⟨c, hc, rfl⟩ := Reader.of_map_eq_ok h
      exact .inl ⟨c, hc, rfl⟩
    · cases h
  · split at h
    · split at h
      · obtain ⟨s, hs, rfl⟩ := Reader.of_map_eq_ok h
        exact .inr (.inl ⟨s, hs, rfl⟩)
      · cases h
    · split at h
      · obtain ⟨m, hm, rfl⟩ := Reader.of_map_eq_ok h
        exact .inr (.inr ⟨m, hm, rfl⟩)
      · cases h

theorem wellFormed_of_ofEnvelope {env : Envelope} {p : Payload} (h : ofEnvelope env = .ok p) :
    p.WellFormed := by
  rcases ofEnvelope_eq_ok h with ⟨c, hc, rfl⟩ | ⟨s, hs, rfl⟩ | ⟨m, -, rfl⟩
  · exact (Chunk.ofEnvelope_eq_ok hc).1
  · exact (TxSegment.ofEnvelope_eq_ok hs).1
  · exact trivial

theorem sized_of_ofEnvelope {env : Envelope} {p : Payload} (henv : TagMap.Regular env)
    (h : ofEnvelope env = .ok p) : p.Sized := by
  rcases ofEnvelope_eq_ok h with ⟨c, hc, rfl⟩ | ⟨s, hs, rfl⟩ | ⟨m, hm, rfl⟩
  · exact Chunk.sized_of_ofEnvelope henv hc
  · exact Envelope.length_of_bytes henv (TxSegment.ofEnvelope_eq_ok hs).2
  · exact Sms.sized_of_ofEnvelope henv hm

/-- What is read is found in an envelope, which is regular when the input can be said to have a
length. -/
theorem decode_eq_ok {b : Bytes} {p : Payload} (h : decode b = .ok p) :
    ∃ env, ofEnvelope env = .ok p ∧ (b.length < UInt64.size → TagMap.Regular env) := by
  unfold decode at h
  split at h
  · cases h
  · rename_i env henv
    refine ⟨env, h, fun hb => ?_⟩
    unfold Envelope.decode at henv
    split at henv
    · cases henv
    · rename_i m hm
      cases henv
      exact (TagMap.regular_of_decode hb hm).1

/-- Every payload has a written form, from which it is read back if and only if it is well-formed.
All that is read from any input is well-formed, so it is read back from its own written form. -/
theorem decode_encode_iff_wellFormed :
    (∀ p : Payload, p.toEnvelope.encode? = some p.encode ∧
        (p.Sized → (decode p.encode = .ok p ↔ p.WellFormed))) ∧
      ∀ (b : Bytes) (p : Payload), decode b = .ok p →
        p.WellFormed ∧ (b.length < UInt64.size → decode p.encode = .ok p) := by
  have hformed : ∀ (b : Bytes) (p : Payload), decode b = .ok p → p.WellFormed := by
    intro b p h
    obtain ⟨env, hread, -⟩ := decode_eq_ok h
    exact wellFormed_of_ofEnvelope hread
  refine ⟨fun p => ⟨encode?_toEnvelope p, fun hsized => ⟨hformed _ _, (decode_encode · hsized)⟩⟩,
    fun b p h => ⟨hformed b p h, fun hb => ?_⟩⟩
  obtain ⟨env, hread, hregular⟩ := decode_eq_ok h
  exact decode_encode (hformed b p h) (sized_of_ofEnvelope (hregular hb) hread)

/-- A chunk that ends its stream with a number beyond its count is read back, the opening of a
transaction that is numbered one is not, and a short message is read from a map of indefinite length
with its fields in the other order. -/
theorem decode_encode_of_close_and_numbered_opening :
    let close : Payload := .chunk ⟨default, none, 7, 2, []⟩
    let opening : Payload := .segment ⟨default, 1, some ⟨default, 3, .testnet⟩, [1]⟩
    let b : Bytes := [0xbf, 0x18, 0x1a, 0x62, 0x68, 0x69, 0x18, 0x19, 0x61, 0x2b, 0xff]
    decode close.encode = .ok close ∧ decode opening.encode ≠ .ok opening ∧
      decode b = .ok (.sms ⟨"+", "hi"⟩) ∧
        decode (Payload.encode (.sms ⟨"+", "hi"⟩)) = .ok (.sms ⟨"+", "hi"⟩) := by
  intro close opening b
  obtain ⟨hwritten, hread⟩ := decode_encode_iff_wellFormed
  have hclose : Chunk.WellFormed ⟨default, none, 7, 2, []⟩ :=
    ⟨fun h => absurd rfl h, fun h => absurd rfl h⟩
  have hopening : ¬ TxSegment.WellFormed ⟨default, 1, some ⟨default, 3, .testnet⟩, [1]⟩ :=
    fun h => absurd (h.index_of_opening (Option.some_ne_none _)) (by decide)
  have hb : decode b = .ok (.sms ⟨"+", "hi"⟩) := rfl
  refine ⟨((hwritten close).2 ⟨by decide, fun d hd => by cases hd⟩).2 hclose, fun h => ?_, hb,
    (hread b _ hb).2 (by decide)⟩
  have hsized : opening.Sized := show [1].length < UInt64.size by decide
  exact hopening (((hwritten opening).2 hsized).1 h)

end Payload

end Meshway
