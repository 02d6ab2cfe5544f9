import Meshway.Proofs.Payload.Codec
import Meshway.Proofs.Segmentation
set_option autoImplicit false

/-!
# Parts fit their packets (SPEC §4.2, §10.3 item 7)

The fields around a part are measured with the largest number and count, and
with room for the largest head of the part.  Whatever the part is, the chunk or
segment that carries it takes up no more than that and its octets.  Main
statement: everything that a message or a transaction is cut into fits the
packet it was cut for, and so does the chunk that ends the stream.
-/

namespace Meshway

open Meshway.Cbor Meshway.Segmentation

/-! ## Lengths -/

/-- A number of one octet is no longer than the largest of them. -/
theorem headLength_octet_le (n : UInt8) : headLength n.toUInt64.toNat ≤ headLength 255 := by
  have hlt : n.toNat < 256 := n.toNat_lt
  refine headLength_mono ?_
  simp only [UInt8.toNat_toUInt64]
  omega

/-- A part no larger than the room beside it fits the packet, if what is written is no longer than
the shape with the part in place of none. -/
theorem Segmentation.length_le_of_room {shape max room size length : Nat}
    (hroom : overhead shape max + room = max) (hsize : size ≤ room) (hshape : headLength 0 ≤ shape)
    (hlength : length + headLength 0 ≤ shape + headLength size + size) : length ≤ max := by
  have hhead : headLength size ≤ headLength max := headLength_mono (by omega)
  unfold overhead at hroom
  omega

/-! ## Chunks -/

namespace Chunk

/-- The length of a chunk that tells its number. -/
theorem length_encode_of_none {c : Chunk} (h : c.destination = none) :
    (Payload.encode (.chunk c)).length =
      18 + headLength c.index.toUInt64.toNat + headLength c.count.toUInt64.toNat +
        (headLength c.payload.length + c.payload.length) := by
  rw [Payload.encode, Payload.toEnvelope, TagMap.length_wire, TagMap.size,
    entries_toEnvelope_of_none h]
  simp only [TagMap.entriesLength, Value.wire, Value.length_wireInt, List.length_append,
    length_head, c.streamId.length_octets]
  have hfixed : headLength 4 = 1 ∧ headLength 8 = 1 ∧ headLength Tag.payload.toNat = 2 ∧
      headLength Tag.index.toNat = 2 ∧ headLength Tag.count.toNat = 2 ∧
      headLength Tag.streamId.toNat = 2 := by decide
  obtain ⟨h1, h2, h3, h4, h5, h6⟩ := hfixed
  simp only [List.length_cons, List.length_nil, h1, h2, h3, h4, h5, h6]
  omega

/-- The length of a chunk that names a destination. -/
theorem length_encode_of_some {c : Chunk} {d : Destination} (h : c.destination = some d) :
    (Payload.encode (.chunk c)).length =
      20 + (headLength (Utf8.size d.host) + Utf8.size d.host) +
        headLength d.port.toUInt64.toNat + headLength c.count.toUInt64.toNat +
        (headLength c.payload.length + c.payload.length) := by
  rw [Payload.encode, Payload.toEnvelope, TagMap.length_wire, TagMap.size,
    entries_toEnvelope_of_some h]
  simp only [TagMap.entriesLength, Value.wire, Value.length_wireInt, List.length_append,
    length_head, c.streamId.length_octets]
  have hfixed : headLength 5 = 1 ∧ headLength 8 = 1 ∧ headLength Tag.payload.toNat = 2 ∧
      headLength Tag.host.toNat = 2 ∧ headLength Tag.port.toNat = 2 ∧
      headLength Tag.count.toNat = 2 ∧ headLength Tag.streamId.toNat = 2 := by decide
  obtain ⟨h1, h2, h3, h4, h5, h6, h7⟩ := hfixed
  simp only [List.length_cons, List.length_nil, h1, h2, h3, h4, h5, h6, h7, Utf8.size]
  omega

theorem shapeLength_none (id : StreamId) : shapeLength id none = 23 := by
  rw [shapeLength, length_encode_of_none rfl]
  rfl

theorem shapeLength_some (id : StreamId) (d : Destination) :
    shapeLength id (some d) =
      23 + (headLength (Utf8.size d.host) + Utf8.size d.host) +
        headLength d.port.toUInt64.toNat := by
  have hcount : headLength ((255 : UInt8).toUInt64.toNat) = 2 := rfl
  have hempty : headLength 0 = 1 := rfl
  rw [shapeLength, length_encode_of_some (d := d) rfl]
  simp only [hcount, hempty, List.length_nil]
  omega

/-- A destination takes room away. -/
theorem shapeLength_none_le (id : StreamId) (destination : Option Destination) :
    shapeLength id none ≤ shapeLength id destination := by
  cases destination with
  | none => exact Nat.le_refl _
  | some d =>
    rw [shapeLength_none, shapeLength_some]
    omega

/-- The first chunk of a message has no more room than the others. -/
theorem first_le_rest {id : StreamId} {destination : Option Destination} {size max : Nat} {p : Plan}
    (h : plan id destination size max = .ok p) : p.first ≤ p.rest := by
  obtain ⟨-, hfirst, hrest⟩ := plan_eq_ok h
  have hshape := shapeLength_none_le id destination
  unfold overhead at hfirst hrest
  omega

/-- A chunk is no longer than its shape with its payload in place of none. -/
theorem length_encode_le (c : Chunk) :
    (Payload.encode (.chunk c)).length + headLength 0 ≤
      shapeLength c.streamId c.destination + headLength c.payload.length + c.payload.length := by
  have hindex := headLength_octet_le c.index
  have hcount := headLength_octet_le c.count
  have hlargest : headLength ((255 : UInt8).toUInt64.toNat) = headLength 255 := rfl
  rw [shapeLength]
  cases hd : c.destination with
  | none =>
    rw [length_encode_of_none hd, length_encode_of_none rfl]
    simp only [List.length_nil, hlargest]
    omega
  | some d =>
    rw [length_encode_of_some hd, length_encode_of_some rfl]
    simp only [List.length_nil, hlargest]
    omega

theorem headLength_zero_le_shapeLength (id : StreamId) (destination : Option Destination) :
    headLength 0 ≤ shapeLength id destination := by
  rw [shapeLength]
  cases destination with
  | none =>
    rw [length_encode_of_none rfl]
    simp only [List.length_nil]
    omega
  | some d =>
    rw [length_encode_of_some rfl]
    simp only [List.length_nil]
    omega

/-- A chunk is no shorter than its payload. -/
theorem length_payload_le (c : Chunk) :
    c.payload.length ≤ (Payload.encode (.chunk c)).length := by
  cases hd : c.destination with
  | none =>
    rw [length_encode_of_none hd]
    omega
  | some d =>
    rw [length_encode_of_some hd]
    omega

/-- A chunk whose payload is no larger than the room of its shape fits the packet. -/
theorem length_encode_le_of_room {c : Chunk} {max room : Nat}
    (hroom : overhead (shapeLength c.streamId c.destination) max + room = max)
    (hlen : c.payload.length ≤ room) : (Payload.encode (.chunk c)).length ≤ max :=
  length_le_of_room hroom hlen (headLength_zero_le_shapeLength _ _) (length_encode_le c)

/-- A chunk that ends its stream fits every packet that leaves room for payload. -/
theorem length_encode_close_le {id : StreamId} {max room : Nat}
    (hroom : overhead (shapeLength id none) max + room = max) :
    (Payload.encode (.chunk (close id))).length ≤ max :=
  length_encode_le_of_room (c := close id) hroom (Nat.zero_le _)

/-- A host is shorter than a packet that leaves room beside it. -/
theorem size_host_lt {id : StreamId} {d : Destination} {max room : Nat} (hpos : 0 < room)
    (hroom : overhead (shapeLength id (some d)) max + room = max) : Utf8.size d.host < max := by
  have hlen : shapeLength id (some d) = _ := length_encode_of_some (d := d) rfl
  have hzero : headLength ([] : Bytes).length = headLength 0 := rfl
  unfold overhead at hroom
  simp only [hzero] at hlen
  omega

/-- A plan leaves room for each part in its own shape. -/
theorem length_encode_of_mem_segments {id : StreamId} {destination : Option Destination}
    {payload : Bytes} {chunks : List Chunk} {max : Nat}
    (h : segments id destination payload max = .ok chunks) {c : Chunk} (hc : c ∈ chunks) :
    (Payload.encode (.chunk c)).length ≤ max := by
  obtain ⟨p, hplan, rfl⟩ := segments_eq_ok h
  obtain ⟨-, hfirst, hrest⟩ := plan_eq_ok hplan
  obtain ⟨i, -, rfl⟩ := List.mem_map.1 hc
  have hlen : (p.slice payload i).length ≤ p.room i := length_slice_le p payload i
  cases i with
  | zero => exact length_encode_le_of_room hfirst hlen
  | succ i => exact length_encode_le_of_room hrest hlen

end Chunk

/-! ## Segments of a transaction -/

namespace TxSegment

/-- The length of a segment that tells its number. -/
theorem length_encode_of_none {s : TxSegment} (h : s.opening = none) :
    (Payload.encode (.segment s)).length =
      16 + headLength s.index.toUInt64.toNat +
        (headLength s.payload.length + s.payload.length) := by
  rw [Payload.encode, Payload.toEnvelope, TagMap.length_wire, TagMap.size,
    entries_toEnvelope_of_none h]
  simp only [TagMap.entriesLength, Value.wire, Value.length_wireInt, List.length_append,
    length_head, s.shortId.length_octets]
  have hfixed : headLength 3 = 1 ∧ headLength 8 = 1 ∧ headLength Tag.payload.toNat = 2 ∧
      headLength Tag.index.toNat = 2 ∧ headLength Tag.shortId.toNat = 2 := by decide
  obtain ⟨h1, h2, h3, h4, h5⟩ := hfixed
  simp only [List.length_cons, List.length_nil, h1, h2, h3, h4, h5]
  omega

/-- The length of a segment that opens a transaction. -/
theorem length_encode_of_some {s : TxSegment} {o : TxOpening} (h : s.opening = some o) :
    (Payload.encode (.segment s)).length =
      56 + headLength o.count.toUInt64.toNat +
        (headLength s.payload.length + s.payload.length) := by
  rw [Payload.encode, Payload.toEnvelope, TagMap.length_wire, TagMap.size,
    entries_toEnvelope_of_some h]
  simp only [TagMap.entriesLength, Value.wire, Value.length_wireInt, List.length_append,
    length_head, s.shortId.length_octets, o.txId.length_octets]
  have hnetwork : headLength o.network.selector.toUInt64.toNat = 2 := by cases o.network <;> decide
  have hfixed : headLength 5 = 1 ∧ headLength 8 = 1 ∧ headLength 32 = 2 ∧
      headLength Tag.payload.toNat = 2 ∧ headLength Tag.network.toNat = 2 ∧
      headLength Tag.count.toNat = 2 ∧ headLength Tag.shortId.toNat = 2 ∧
      headLength Tag.txId.toNat = 2 := by decide
  obtain ⟨h1, h2, h3, h4, h5, h6, h7, h8⟩ := hfixed
  simp only [List.length_cons, List.length_nil, hnetwork, h1, h2, h3, h4, h5, h6, h7, h8]
  omega

theorem shapeLength_none (shortId : ShortId) : shapeLength shortId none = 19 := by
  rw [shapeLength, length_encode_of_none rfl]
  rfl

theorem shapeLength_some (shortId : ShortId) (o : TxOpening) :
    shapeLength shortId (some o) = 57 + headLength o.count.toUInt64.toNat := by
  have hempty : headLength 0 = 1 := rfl
  rw [shapeLength, length_encode_of_some rfl]
  simp only [hempty, List.length_nil]
  omega

/-- What only the first segment says takes room away. -/
theorem shapeLength_none_le (shortId : ShortId) (opening : Option TxOpening) :
    shapeLength shortId none ≤ shapeLength shortId opening := by
  cases opening with
  | none => exact Nat.le_refl _
  | some o =>
    have hindex : headLength ((255 : UInt8).toUInt64.toNat) = 2 := rfl
    rw [shapeLength, shapeLength, length_encode_of_none rfl, length_encode_of_some rfl]
    simp only [hindex]
    omega

/-- The first segment of a transaction has no more room than the others. -/
theorem first_le_rest {txId : TxId} {network : Network} {size max : Nat} {p : Plan}
    (h : plan txId network size max = .ok p) : p.first ≤ p.rest := by
  obtain ⟨-, -, hfirst, hrest⟩ := plan_eq_ok h
  have hshape := shapeLength_none_le txId.short (some ⟨txId, 255, network⟩)
  unfold overhead at hfirst hrest
  omega

/-- A segment that tells its number is no longer than its shape with its payload in place of
none. -/
theorem length_encode_le_of_none {s : TxSegment} (h : s.opening = none) :
    (Payload.encode (.segment s)).length + headLength 0 ≤
      shapeLength s.shortId none + headLength s.payload.length + s.payload.length := by
  have hindex := headLength_octet_le s.index
  have hlargest : headLength ((255 : UInt8).toUInt64.toNat) = headLength 255 := rfl
  rw [shapeLength, length_encode_of_none h, length_encode_of_none rfl]
  simp only [List.length_nil, hlargest]
  omega

/-- So is a segment that opens a transaction, whatever transaction the shape is measured with. -/
theorem length_encode_le_of_some {s : TxSegment} {o : TxOpening} (h : s.opening = some o)
    (txId : TxId) (network : Network) :
    (Payload.encode (.segment s)).length + headLength 0 ≤
      shapeLength s.shortId (some ⟨txId, 255, network⟩) + headLength s.payload.length +
        s.payload.length := by
  have hcount := headLength_octet_le o.count
  have hlargest : headLength ((255 : UInt8).toUInt64.toNat) = headLength 255 := rfl
  rw [shapeLength, length_encode_of_some h, length_encode_of_some rfl]
  simp only [List.length_nil, hlargest]
  omega

theorem headLength_zero_le_shapeLength (shortId : ShortId) (opening : Option TxOpening) :
    headLength 0 ≤ shapeLength shortId opening := by
  rw [shapeLength]
  cases opening with
  | none =>
    rw [length_encode_of_none rfl]
    simp only [List.length_nil]
    omega
  | some o =>
    rw [length_encode_of_some rfl]
    simp only [List.length_nil]
    omega

/-- A segment is no shorter than its payload. -/
theorem length_payload_le (s : TxSegment) :
    s.payload.length ≤ (Payload.encode (.segment s)).length := by
  cases ho : s.opening with
  | none =>
    rw [length_encode_of_none ho]
    omega
  | some o =>
    rw [length_encode_of_some ho]
    omega

/-- A plan leaves room for each part of a transaction in its own shape. -/
theorem length_encode_of_mem_segments {txId : TxId} {network : Network} {raw : Bytes}
    {segments : List TxSegment} {max : Nat}
    (h : TxSegment.segments txId network raw max = .ok segments) {s : TxSegment}
    (hs : s ∈ segments) : (Payload.encode (.segment s)).length ≤ max := by
  obtain ⟨p, hplan, rfl⟩ := segments_eq_ok h
  obtain ⟨-, -, hfirst, hrest⟩ := plan_eq_ok hplan
  obtain ⟨i, -, rfl⟩ := List.mem_map.1 hs
  have hlen : (p.slice raw i).length ≤ p.room i := length_slice_le p raw i
  cases i with
  | zero =>
    exact length_le_of_room hfirst hlen (headLength_zero_le_shapeLength _ _)
      (length_encode_le_of_some rfl txId network)
  | succ i =>
    exact length_le_of_room hrest hlen (headLength_zero_le_shapeLength _ _)
      (length_encode_le_of_none rfl)

end TxSegment

/-! ## All parts -/

namespace Payload

/-- Whether a payload has a written form of at most `max` octets. -/
def Fits (max : Nat) (p : Payload) : Prop :=
  ∃ wire, p.toEnvelope.encode? = some wire ∧ wire.length ≤ max

theorem fits_iff {max : Nat} {p : Payload} : p.Fits max ↔ p.encode.length ≤ max := by
  simp [Fits, encode?_toEnvelope]

/-- The chunks of a message and the segments of a transaction fit the packets that they were cut
for.  A stream whose messages can be cut can be ended in such a packet. -/
theorem fits_of_mem_segments (max : Nat) :
    (∀ (id : StreamId) (destination : Option Destination) (message : Bytes) (chunks : List Chunk),
      Chunk.segments id destination message max = .ok chunks →
        (∀ c ∈ chunks, (Payload.chunk c).Fits max) ∧ (Payload.chunk (.close id)).Fits max) ∧
    (∀ (txId : TxId) (network : Network) (raw : Bytes) (segments : List TxSegment),
      TxSegment.segments txId network raw max = .ok segments →
        ∀ s ∈ segments, (Payload.segment s).Fits max) := by
  constructor
  · intro id destination message chunks h
    obtain ⟨p, hplan, -⟩ := Chunk.segments_eq_ok h
    obtain ⟨-, -, hroom⟩ := Chunk.plan_eq_ok hplan
    exact ⟨fun c hc => fits_iff.2 (Chunk.length_encode_of_mem_segments h hc),
      fits_iff.2 (Chunk.length_encode_close_le hroom)⟩
  · intro txId network raw segments h s hs
    exact fits_iff.2 (TxSegment.length_encode_of_mem_segments h hs)

/-- Packets of 48 octets, which the last of twenty-five chunks fills, and a transaction of two
segments in packets of 64. -/
theorem fits_of_last_chunk_and_last_segment :
    ∃ (chunks : List Chunk) (c : Chunk) (segments : List TxSegment) (s : TxSegment),
      Chunk.segments default none (List.replicate 600 7) 48 = .ok chunks ∧
      c = ⟨default, none, 24, 25, List.replicate 24 7⟩ ∧ c ∈ chunks ∧
      (Payload.chunk c).Fits 48 ∧ (Payload.chunk (.close default)).Fits 48 ∧
      TxSegment.segments default .testnet (List.replicate 40 1) 64 = .ok segments ∧
      s = ⟨default, 1, none, List.replicate 36 1⟩ ∧ s ∈ segments ∧
      (Payload.segment s).Fits 64 := by
  have hchunks : Chunk.segments default none (List.replicate 600 7) 48 =
      .ok (((Plan.start ⟨24, 24, 25⟩ (List.replicate 600 7)).toList).map
        (Chunk.ofPart default none 25)) := by
    have hplan : Chunk.plan default none 600 48 = .ok ⟨24, 24, 25⟩ := rfl
    rw [Chunk.segments, List.length_replicate, hplan]
  have hsegments : TxSegment.segments default .testnet (List.replicate 40 1) 64 =
      .ok [⟨default, 0, some ⟨default, 2, .testnet⟩, List.replicate 4 1⟩,
        ⟨default, 1, none, List.replicate 36 1⟩] := rfl
  have hc : (⟨default, none, 24, 25, List.replicate 24 7⟩ : Chunk) ∈
      ((Plan.start ⟨24, 24, 25⟩ (List.replicate 600 7)).toList).map
        (Chunk.ofPart default none 25) := by
    rw [Plan.toList_start, List.map_map]
    have hslice : Plan.slice ⟨24, 24, 25⟩ (List.replicate 600 7) 24 = List.replicate 24 7 := by
      rw [Plan.slice, List.drop_replicate, List.take_replicate]
      rfl
    refine List.mem_map.2 ⟨24, by decide, ?_⟩
    rw [Function.comp, hslice]
    rfl
  have hs : (⟨default, 1, none, List.replicate 36 1⟩ : TxSegment) ∈
      [⟨default, 0, some ⟨default, 2, .testnet⟩, List.replicate 4 1⟩,
        ⟨default, 1, none, List.replicate 36 1⟩] := List.mem_cons_of_mem _ List.mem_cons_self
  obtain ⟨hfits, hclose⟩ := (fits_of_mem_segments 48).1 _ _ _ _ hchunks
  exact ⟨_, _, _, _, hchunks, rfl, hc, hfits _ hc, hclose, hsegments, rfl, hs,
    (fits_of_mem_segments 64).2 _ _ _ _ hsegments _ hs⟩

end Payload

end Meshway
