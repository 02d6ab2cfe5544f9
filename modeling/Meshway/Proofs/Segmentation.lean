import Meshway.Segmentation
set_option autoImplicit false

/-!
# What a cut payload consists of (SPEC §4.2)

The parts of a payload are slices at fixed offsets: the first part, and parts of
one size after it.  Joined they are the payload, and none is empty unless the
payload is, because the number of parts is the least that reaches its end.
-/

namespace Meshway

open Meshway.Cbor

namespace Segmentation

/-! ## Parts as slices -/

namespace Plan

/-- Where a part begins. -/
def offset (p : Plan) : Nat → Nat
  | 0 => 0
  | k + 1 => p.first + k * p.rest

/-- The room for a part. -/
def room (p : Plan) (k : Nat) : Nat := if k = 0 then p.first else p.rest

/-- The octets of a part. -/
def slice (p : Plan) (payload : Bytes) (k : Nat) : Bytes :=
  (payload.drop (p.offset k)).take (p.room k)

theorem offset_succ (p : Plan) (k : Nat) : p.offset (k + 1) = p.offset k + p.room k := by
  cases k with
  | zero => simp [offset, room]
  | succ k => simp [offset, room, Nat.succ_mul, Nat.add_assoc]

/-- The parts before a number are the octets before its offset. -/
theorem flatten_slices (p : Plan) (payload : Bytes) (n : Nat) :
    ((List.range n).map (p.slice payload)).flatten = payload.take (p.offset n) := by
  induction n with
  | zero => simp [offset]
  | succ n ih =>
    rw [List.range_succ, List.map_append, List.flatten_append, ih, offset_succ, List.take_add]
    simp [slice]

end Plan

/-- So many parts are taken as slices from where the cutter stands. -/
theorem Cutter.take_slices (p : Plan) (payload : Bytes) (n k : Nat) (h : k + n ≤ p.count.toNat) :
    (Cutter.take n ⟨p, k, payload.drop (p.offset k)⟩).1 =
      (List.range' k n).map fun i => (i, p.slice payload i) := by
  induction n generalizing k with
  | zero => rfl
  | succ n ih =>
    have hnext : Cutter.next? ⟨p, k, payload.drop (p.offset k)⟩ =
        some ((k, p.slice payload k), ⟨p, k + 1, payload.drop (p.offset (k + 1))⟩) := by
      have hleft : ¬ p.count.toNat ≤ k := by omega
      simp only [Cutter.next?, hleft, if_false, Cutter.nextSize, Plan.slice, Plan.offset_succ]
      rw [List.drop_drop]
      rfl
    simp only [Cutter.take, hnext]
    rw [ih (k + 1) (by omega), List.range'_succ]
    rfl

/-- The parts of a payload are its slices in order. -/
theorem Plan.toList_start (p : Plan) (payload : Bytes) :
    (p.start payload).toList =
      (List.range p.count.toNat).map fun i => (i, p.slice payload i) := by
  have h := Cutter.take_slices p payload p.count.toNat 0 (by omega)
  rw [List.range_eq_range']
  exact h

/-! ## Plans -/

/-- Parts of which so many reach the end of the payload. -/
theorem le_offset_segmentCount (size first : Nat) {rest : Nat} (hrest : 0 < rest) :
    size ≤ first + (segmentCount size first rest - 1) * rest := by
  unfold segmentCount
  split
  · omega
  · have hdiv := Nat.div_add_mod (size - first + rest - 1) rest
    have hmod := Nat.mod_lt (size - first + rest - 1) hrest
    rw [Nat.add_sub_cancel_left, Nat.mul_comm]
    omega

/-- One part fewer does not reach the end of the payload. -/
theorem offset_lt_of_lt_segmentCount {size first rest k : Nat} (hrest : 0 < rest)
    (h : k + 1 < segmentCount size first rest) : first + k * rest < size := by
  unfold segmentCount at h
  split at h
  · omega
  · have hk : k + 1 ≤ (size - first + rest - 1) / rest := by omega
    have hmul := (Nat.le_div_iff_mul_le hrest).1 hk
    rw [Nat.succ_mul] at hmul
    omega

theorem segmentCount_pos (size first rest : Nat) : 0 < segmentCount size first rest := by
  unfold segmentCount
  split
  · exact Nat.one_pos
  · exact Nat.lt_of_lt_of_le Nat.one_pos (Nat.le_add_right _ _)

/-- A plan that leaves room in every part and has as many parts as a payload of some size needs. -/
structure Plan.Covers (p : Plan) (size : Nat) : Prop where
  first_pos : 0 < p.first
  rest_pos : 0 < p.rest
  count_eq : p.count.toNat = segmentCount size p.first p.rest

namespace Plan.Covers

variable {p : Plan} {payload : Bytes}

theorem count_pos {size : Nat} (h : p.Covers size) : 0 < p.count.toNat := by
  rw [h.count_eq]
  exact segmentCount_pos _ _ _

/-- The parts joined are the payload. -/
theorem flatten_eq (h : p.Covers payload.length) :
    ((List.range p.count.toNat).map (p.slice payload)).flatten = payload := by
  have hpos := h.count_pos
  have hreach : payload.length ≤ p.offset p.count.toNat := by
    have hle := le_offset_segmentCount payload.length p.first h.rest_pos
    rw [← h.count_eq] at hle
    obtain ⟨n, hn⟩ : ∃ n, p.count.toNat = n + 1 := ⟨p.count.toNat - 1, by omega⟩
    rw [hn] at hle ⊢
    simpa [Plan.offset] using hle
  rw [Plan.flatten_slices, List.take_of_length_le hreach]

/-- No part of a payload that is not empty is empty. -/
theorem slice_ne_nil (h : p.Covers payload.length) (hne : payload ≠ []) {k : Nat}
    (hk : k < p.count.toNat) : p.slice payload k ≠ [] := by
  have hlen : 0 < payload.length := List.length_pos_iff.2 hne
  have hroom : 0 < p.room k := by
    unfold Plan.room
    split
    · exact h.first_pos
    · exact h.rest_pos
  have hoffset : p.offset k < payload.length := by
    cases k with
    | zero => exact hlen
    | succ k =>
      rw [h.count_eq] at hk
      exact offset_lt_of_lt_segmentCount h.rest_pos hk
  apply List.ne_nil_of_length_pos
  rw [Plan.slice, List.length_take, List.length_drop]
  omega

/-- An empty payload is one part. -/
theorem count_of_nil (h : p.Covers 0) : p.count.toNat = 1 := by
  rw [h.count_eq]
  simp [segmentCount]

end Plan.Covers

theorem length_slice_le (p : Plan) (payload : Bytes) (k : Nat) :
    (p.slice payload k).length ≤ p.room k := by
  rw [Plan.slice, List.length_take]
  exact Nat.min_le_left _ _

/-- A plan has as many parts as are needed, and no more than can be numbered. -/
theorem count_of_plan {size first rest : Nat} {p : Plan} (h : plan size first rest = .ok p) :
    p.first = first ∧ p.rest = rest ∧ p.count.toNat = segmentCount size first rest := by
  by_cases hle : segmentCount size first rest ≤ 255
  · have hp : Plan.mk first rest (UInt8.ofNat (segmentCount size first rest)) = p := by
      simpa [plan, maxSegments, hle] using h
    subst hp
    refine ⟨rfl, rfl, ?_⟩
    rw [UInt8.toNat_ofNat']
    exact Nat.mod_eq_of_lt (by omega)
  · simp [plan, maxSegments, hle] at h

/-- So many parts are enough for a payload that they reach the end of. -/
theorem segmentCount_le_iff {size first rest n : Nat} (hrest : 0 < rest) :
    segmentCount size first rest ≤ n + 1 ↔ size ≤ first + n * rest := by
  constructor
  · intro hle
    have hreach := le_offset_segmentCount size first hrest
    have hparts : (segmentCount size first rest - 1) * rest ≤ n * rest :=
      Nat.mul_le_mul_right rest (by omega)
    omega
  · intro hle
    refine Nat.le_of_not_lt fun hmore => ?_
    have hbefore := offset_lt_of_lt_segmentCount hrest hmore
    omega

/-- There is a plan for a payload that all the parts that can be numbered reach the end of. -/
theorem exists_plan_iff {size first rest : Nat} (hrest : 0 < rest) :
    (∃ p, plan size first rest = .ok p) ↔ size ≤ first + 254 * rest := by
  rw [← segmentCount_le_iff hrest]
  by_cases hle : segmentCount size first rest ≤ 255
  · simp [plan, maxSegments, hle]
  · simp [plan, maxSegments, hle]

/-- Otherwise the parts are too many. -/
theorem tooMany_of_plan {size first rest : Nat} {fault : Fault}
    (h : plan size first rest = .error fault) : ∃ count, fault = .tooManySegments count := by
  by_cases hle : segmentCount size first rest ≤ 255
  · simp [plan, maxSegments, hle] at h
  · simp only [plan, maxSegments, hle, if_false, Except.error.injEq] at h
    exact ⟨_, h.symm⟩

/-- The room of a shape is what the fields around a part leave of the packet. -/
theorem capacity_eq_ok {max overhead room : Nat} (h : capacity max overhead = .ok room) :
    0 < room ∧ overhead + room = max := by
  unfold capacity at h
  split at h
  · cases h
  · cases h
    omega

/-! ## Some of the parts, in order -/

section Places

variable {i n : Nat} {is : List Nat}

/-- No part stands behind the last one. -/
theorem eq_nil_of_last (habove : ∀ j ∈ is, i < j) (hlt : ∀ j ∈ is, j < n) (hlast : i + 1 = n) :
    is = [] := by
  refine List.eq_nil_iff_forall_not_mem.2 fun j hj => ?_
  have h1 := habove j hj
  have h2 := hlt j hj
  omega

/-- Where there is a part, the outcomes of all but one are one fewer. -/
theorem replicate_length_of_mem {α : Type} (h : i ∈ is) (x : α) :
    List.replicate is.length x = x :: List.replicate (is.length - 1) x := by
  rw [← List.replicate_succ, Nat.sub_add_cancel (List.length_pos_of_mem h)]

end Places

end Segmentation

/-! ## What carries a part -/

/-- Something that carries a numbered part of a whole. -/
class Part (α : Type) where
  index : α → UInt8
  payload : α → Bytes

instance : Part Chunk := ⟨Chunk.index, Chunk.payload⟩

instance : Part TxSegment := ⟨TxSegment.index, TxSegment.payload⟩

open Segmentation

/-! ## Chunks -/

namespace Chunk

variable {id : StreamId} {destination : Option Destination} {size max : Nat} {p : Plan}

/-- What a plan for a message promises. -/
theorem plan_eq_ok (h : plan id destination size max = .ok p) :
    p.Covers size ∧ overhead (shapeLength id destination) max + p.first = max ∧
      overhead (shapeLength id none) max + p.rest = max := by
  unfold plan at h
  split at h
  · cases h
  · rename_i rest hrest
    obtain ⟨hpos, hsum⟩ := capacity_eq_ok hrest
    split at h
    · obtain ⟨hf, hr, hc⟩ := count_of_plan h
      exact ⟨⟨by omega, by omega, by rw [hc, hf, hr]⟩, by omega, by omega⟩
    · split at h
      · cases h
      · rename_i d first hfirst
        obtain ⟨hpos', hsum'⟩ := capacity_eq_ok hfirst
        obtain ⟨hf, hr, hc⟩ := count_of_plan h
        exact ⟨⟨by omega, by omega, by rw [hc, hf, hr]⟩, by omega, by omega⟩

/-- The chunks of a message carry its slices. -/
theorem segments_eq_ok {payload : Bytes} {chunks : List Chunk}
    (h : segments id destination payload max = .ok chunks) :
    ∃ p, plan id destination payload.length max = .ok p ∧
      chunks = (List.range p.count.toNat).map
        fun i => ofPart id destination p.count (i, p.slice payload i) := by
  unfold segments at h
  split at h
  · cases h
  · rename_i p hp
    cases h
    refine ⟨p, hp, ?_⟩
    rw [Plan.toList_start, List.map_map]
    rfl

end Chunk

/-! ## Transactions -/

namespace TxSegment

variable {txId : TxId} {network : Network} {max : Nat}

/-- What a plan for a transaction promises. -/
theorem plan_eq_ok {size : Nat} {p : Plan} (h : plan txId network size max = .ok p) :
    size ≠ 0 ∧ p.Covers size ∧
      overhead (shapeLength txId.short (some ⟨txId, 255, network⟩)) max + p.first = max ∧
      overhead (shapeLength txId.short none) max + p.rest = max := by
  unfold plan at h
  split at h
  · cases h
  · rename_i hsize
    split at h
    · cases h
    · rename_i first hfirst
      obtain ⟨hpos, hsum⟩ := capacity_eq_ok hfirst
      split at h
      · cases h
      · rename_i rest hrest
        obtain ⟨hpos', hsum'⟩ := capacity_eq_ok hrest
        obtain ⟨hf, hr, hc⟩ := count_of_plan h
        exact ⟨hsize, ⟨by omega, by omega, by rw [hc, hf, hr]⟩, by omega, by omega⟩

/-- The segments of a transaction carry its slices. -/
theorem segments_eq_ok {raw : Bytes} {segments : List TxSegment}
    (h : TxSegment.segments txId network raw max = .ok segments) :
    ∃ p, plan txId network raw.length max = .ok p ∧
      segments = (List.range p.count.toNat).map
        fun i => ofPart txId network p.count (i, p.slice raw i) := by
  unfold TxSegment.segments at h
  split at h
  · cases h
  · rename_i p hp
    cases h
    refine ⟨p, hp, ?_⟩
    rw [Plan.toList_start, List.map_map]
    rfl

end TxSegment

end Meshway
