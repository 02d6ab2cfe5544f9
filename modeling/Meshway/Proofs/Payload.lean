import Meshway.Payload
import Meshway.Proofs.TagMap
set_option autoImplicit false

/-!
# The fields of a chunk (SPEC §3)

A chunk travels in an envelope and is found in its fields unchanged, if its
number is below the number of chunks.  A chunk that names a destination has
number zero, because the destination stands in the place of the number.  An
envelope is read back if its strings are no longer than a head can say.
-/

namespace Meshway

open Meshway.Cbor

/-! ## Envelopes -/

namespace Envelope

/-- Whether all values of an envelope are read back, however deep it is. -/
def Readable (env : Envelope) : Prop :=
  ∀ e ∈ env.entries, ∀ depth, Reader.ReadsBack (depth + 1) e.2

theorem readable_empty : Readable TagMap.empty := by
  intro e he
  cases he

theorem readable_insert {env : Envelope} {tag : UInt64} {v : Value} (h : Readable env)
    (hv : ∀ depth, Reader.ReadsBack (depth + 1) v) : Readable (TagMap.insert env tag v) := by
  intro e he
  rcases TagMap.mem_insertEntry he with rfl | he
  · exact hv
  · exact h e he

theorem readable_withBytes {env : Envelope} {tag : UInt64} {bs : Bytes} (h : Readable env)
    (hlen : bs.length < UInt64.size) : Readable (env.withBytes tag bs) :=
  readable_insert h fun _ => Reader.readsBack_bytes hlen

theorem readable_withText {env : Envelope} {tag : UInt64} {s : String} (h : Readable env)
    (hlen : Utf8.size s < UInt64.size) : Readable (env.withText tag s) :=
  readable_insert h fun _ => Reader.readsBack_text hlen

theorem readable_withUInt {env : Envelope} {tag n : UInt64} (h : Readable env) :
    Readable (env.withUInt tag n) :=
  readable_insert h fun _ => Reader.readsBack_int (Value.intFits_ofNat n.toNat_lt)

/-- An envelope of readable values is read back. -/
theorem decode_wire {env : Envelope} (hsize : TagMap.size env < UInt64.size) (h : Readable env) :
    Envelope.decode env.toValue.wire = .ok env := by
  rw [Envelope.decode, TagMap.decode_wire hsize h]

/-- The number under a tag that was given one. -/
theorem uint?_of_get? {env : Envelope} {tag n : UInt64}
    (h : TagMap.get? env tag = some (.int n.toNat)) : env.uint? tag = .ok (some n) := by
  have hlt : n.toNat < UInt64.size := n.toNat_lt
  have hfit : (0 : Int) ≤ (n.toNat : Int) ∧ (n.toNat : Int) < UInt64.size := by omega
  rw [uint?, h]
  simp only
  rw [if_pos hfit]
  simp

/-- The number of one octet under a tag that was given one. -/
theorem octet_of_get? {env : Envelope} {tag : UInt64} {n : UInt8}
    (h : TagMap.get? env tag = some (.int n.toUInt64.toNat)) : env.octet tag = .ok n := by
  have hlt : n.toNat < 256 := n.toNat_lt
  rw [octet, uint, uint?_of_get? h]
  simp [need, hlt]

end Envelope

/-! ## Chunks -/

namespace Chunk

/-- The number of a chunk is as its other fields ask: zero with a destination, and below the
number of chunks where there is a payload. -/
structure WellFormed (c : Chunk) : Prop where
  index_of_destination : c.destination ≠ none → c.index = 0
  index_lt_count : c.payload ≠ [] → c.index < c.count

/-- The strings of a chunk are no longer than a head can say. -/
structure Sized (c : Chunk) : Prop where
  payload_lt : c.payload.length < UInt64.size
  host_lt : ∀ d, c.destination = some d → Utf8.size d.host < UInt64.size

/-- The fields of a chunk that tells its number. -/
theorem entries_toEnvelope_of_none {c : Chunk} (h : c.destination = none) :
    c.toEnvelope.entries =
      [(Tag.payload, .bytes c.payload), (Tag.index, .int c.index.toUInt64.toNat),
        (Tag.count, .int c.count.toUInt64.toNat), (Tag.streamId, .bytes c.streamId.octets)] := by
  unfold toEnvelope
  rw [h]
  rfl

/-- The fields of a chunk that names a destination. -/
theorem entries_toEnvelope_of_some {c : Chunk} {d : Destination} (h : c.destination = some d) :
    c.toEnvelope.entries =
      [(Tag.payload, .bytes c.payload), (Tag.count, .int c.count.toUInt64.toNat),
        (Tag.host, .text d.host), (Tag.port, .int d.port.toUInt64.toNat),
        (Tag.streamId, .bytes c.streamId.octets)] := by
  unfold toEnvelope
  rw [h]
  rfl

theorem readable_toEnvelope {c : Chunk} (h : c.Sized) : Envelope.Readable c.toEnvelope := by
  have hid : c.streamId.octets.length < UInt64.size := by
    rw [c.streamId.length_octets]
    decide
  have hbase : Envelope.Readable (Envelope.withBytes TagMap.empty Tag.streamId c.streamId.octets) :=
    Envelope.readable_withBytes Envelope.readable_empty hid
  refine Envelope.readable_withBytes (Envelope.readable_withUInt ?_) h.payload_lt
  cases hd : c.destination with
  | none => exact Envelope.readable_withUInt hbase
  | some d =>
    exact Envelope.readable_withUInt (Envelope.readable_withText hbase (h.host_lt d hd))

theorem size_toEnvelope_lt (c : Chunk) : TagMap.size c.toEnvelope < UInt64.size := by
  cases hd : c.destination with
  | none =>
    rw [TagMap.size, entries_toEnvelope_of_none hd]
    simp [UInt64.size]
  | some d =>
    rw [TagMap.size, entries_toEnvelope_of_some hd]
    simp [UInt64.size]

/-- What every chunk has under the tags that all chunks have. -/
theorem get?_toEnvelope (c : Chunk) :
    TagMap.get? c.toEnvelope Tag.streamId = some (.bytes c.streamId.octets) ∧
      TagMap.get? c.toEnvelope Tag.payload = some (.bytes c.payload) ∧
      TagMap.get? c.toEnvelope Tag.count = some (.int c.count.toUInt64.toNat) := by
  cases hd : c.destination with
  | none =>
    rw [TagMap.get?, TagMap.get?, TagMap.get?, entries_toEnvelope_of_none hd]
    exact ⟨rfl, rfl, rfl⟩
  | some d =>
    rw [TagMap.get?, TagMap.get?, TagMap.get?, entries_toEnvelope_of_some hd]
    exact ⟨rfl, rfl, rfl⟩

/-- A chunk's place is found in its fields. -/
theorem placeOf_toEnvelope {c : Chunk} (h : c.destination ≠ none → c.index = 0) :
    placeOf c.toEnvelope = .ok (c.destination, c.index) := by
  cases hd : c.destination with
  | none =>
    have hhost : TagMap.get? c.toEnvelope Tag.host = none := by
      rw [TagMap.get?, entries_toEnvelope_of_none hd]
      rfl
    have hport : TagMap.get? c.toEnvelope Tag.port = none := by
      rw [TagMap.get?, entries_toEnvelope_of_none hd]
      rfl
    have hindex : TagMap.get? c.toEnvelope Tag.index = some (.int c.index.toUInt64.toNat) := by
      rw [TagMap.get?, entries_toEnvelope_of_none hd]
      rfl
    simp [placeOf, TagMap.contains, hhost, hport, Envelope.octet_of_get? hindex, Except.map]
  | some d =>
    have hhost : TagMap.get? c.toEnvelope Tag.host = some (.text d.host) := by
      rw [TagMap.get?, entries_toEnvelope_of_some hd]
      rfl
    have hport : TagMap.get? c.toEnvelope Tag.port = some (.int d.port.toUInt64.toNat) := by
      rw [TagMap.get?, entries_toEnvelope_of_some hd]
      rfl
    have hlt : d.port.toNat < 0x10000 := d.port.toNat_lt
    have hdest : destinationOf c.toEnvelope = .ok d := by
      simp [destinationOf, Envelope.text, Envelope.text?, hhost, Envelope.uint,
        Envelope.uint?_of_get? hport, Envelope.need, hlt]
    simp [placeOf, TagMap.contains, hhost, hdest, Except.map, h (by simp [hd])]

/-- The fields of a chunk are those of a chunk again. -/
theorem ofEnvelope_toEnvelope {c : Chunk} (h : c.WellFormed) :
    Chunk.ofEnvelope c.toEnvelope = .ok c := by
  obtain ⟨hid, hpayload, hcount⟩ := get?_toEnvelope c
  have hidOf : idOf c.toEnvelope = .ok c.streamId := by
    simp [idOf, Envelope.bytes, Envelope.bytes?, hid, Envelope.need, StreamId.ofBytes?,
      c.streamId.length_octets]
  have hbytes : Envelope.bytes c.toEnvelope Tag.payload = .ok c.payload := by
    simp [Envelope.bytes, Envelope.bytes?, hpayload, Envelope.need]
  have hinside : ¬ (c.payload ≠ [] ∧ c.count ≤ c.index) := by
    rintro ⟨hne, hle⟩
    exact absurd (h.index_lt_count hne) (UInt8.not_lt.2 hle)
  simp only [ofEnvelope, hidOf, hbytes, Envelope.octet_of_get? hcount,
    placeOf_toEnvelope h.index_of_destination]
  rw [if_neg hinside]

/-- The fields of a chunk are told from those of other payloads. -/
theorem payload_ofEnvelope_toEnvelope (c : Chunk) :
    Payload.ofEnvelope c.toEnvelope = (Chunk.ofEnvelope c.toEnvelope).map .chunk := by
  obtain ⟨hid, hpayload, hcount⟩ := get?_toEnvelope c
  have hshape :
      (TagMap.contains c.toEnvelope Tag.host || TagMap.contains c.toEnvelope Tag.port ||
        (TagMap.contains c.toEnvelope Tag.index && TagMap.contains c.toEnvelope Tag.count)) =
      true := by
    cases hd : c.destination with
    | none =>
      simp only [TagMap.contains, TagMap.get?, entries_toEnvelope_of_none hd]
      rfl
    | some d =>
      simp only [TagMap.contains, TagMap.get?, entries_toEnvelope_of_some hd]
      rfl
  simp only [Payload.ofEnvelope, hshape]
  simp [TagMap.contains, hid, hpayload]

end Chunk

end Meshway
