import Meshway.Proofs.PacketSize
import Meshway.Reassembly
set_option autoImplicit false

/-!
# A transaction crosses the radio unchanged (SPEC §8)

The segments of a transaction are its slices, and each is read back from its
packet.  What a segment leads to depends on what waits under its own short
identity and on nothing else, so a reassembler is many independent joiners, one
for each short identity.  The segments of a transaction lead to the transaction,
whatever waited before: the first of them replaces it.
-/

namespace Meshway

open Meshway.Segmentation

namespace TxSegment

/-! ## The segments of a transaction -/

section Segments

variable {txId : TxId} {network : Network} {raw : Bytes} {segments : List TxSegment}

/-- There is no transaction without octets. -/
theorem raw_ne_nil_of_segments {max : Nat}
    (h : TxSegment.segments txId network raw max = .ok segments) : raw ≠ [] := by
  obtain ⟨p, hplan, -⟩ := segments_eq_ok h
  rintro rfl
  exact (plan_eq_ok hplan).1 rfl

/-- Segments are numbered in order, from zero, and their numbers fit one octet. -/
theorem index_segments {max : Nat} (h : TxSegment.segments txId network raw max = .ok segments) :
    segments.map (·.index.toNat) = List.range segments.length := by
  obtain ⟨p, -, rfl⟩ := segments_eq_ok h
  rw [List.map_map, List.length_map, List.length_range]
  refine (List.map_congr_left fun i hi => ?_).trans (List.map_id _)
  exact UInt8.toNat_ofNat_of_lt' (Nat.lt_trans (List.mem_range.1 hi) p.count.toNat_lt)

/-- The segments of a transaction carry its short identity. -/
theorem shortId_of_mem_segments {max : Nat}
    (h : TxSegment.segments txId network raw max = .ok segments) {g : TxSegment}
    (hg : g ∈ segments) : g.shortId = txId.short := by
  obtain ⟨p, -, rfl⟩ := segments_eq_ok h
  obtain ⟨i, -, rfl⟩ := List.mem_map.1 hg
  rfl

/-- The segments of a transaction are as their openings ask. -/
theorem wellFormed_of_mem_segments {max : Nat}
    (h : TxSegment.segments txId network raw max = .ok segments) {g : TxSegment}
    (hg : g ∈ segments) : g.WellFormed := by
  obtain ⟨p, hplan, rfl⟩ := segments_eq_ok h
  obtain ⟨-, hcovers, -⟩ := plan_eq_ok hplan
  obtain ⟨i, -, rfl⟩ := List.mem_map.1 hg
  cases i with
  | zero =>
    refine ⟨fun _ => rfl, fun o ho => ?_⟩
    cases ho
    exact UInt8.le_iff_toNat_le.2 hcovers.count_pos
  | succ i => exact ⟨fun hne => absurd rfl hne, fun o ho => by cases ho⟩

/-- The octets of a segment fit its head, because they fit the packet. -/
theorem sized_of_mem_segments {max : UInt64}
    (h : TxSegment.segments txId network raw max.toNat = .ok segments) {g : TxSegment}
    (hg : g ∈ segments) : g.Sized := by
  have hmax : max.toNat < UInt64.size := max.toNat_lt
  have hlen := length_payload_le g
  have hfit := length_encode_of_mem_segments h hg
  exact Nat.lt_of_le_of_lt (Nat.le_trans hlen hfit) hmax

/-- Every segment of a transaction is read back from its packet. -/
theorem decode_encode_of_mem_segments {max : UInt64}
    (h : TxSegment.segments txId network raw max.toNat = .ok segments) {g : TxSegment}
    (hg : g ∈ segments) : Payload.decode (Payload.encode (.segment g)) = .ok (.segment g) :=
  Payload.decode_encode (p := .segment g) (wellFormed_of_mem_segments h hg)
    (sized_of_mem_segments h hg)

end Segments

/-! ## A short identity by itself -/

/-- What a segment leads to when so much of its transaction waits, and what waits then. -/
def join (waiting : Option PendingTx) (g : TxSegment) : TxJoined × Option PendingTx :=
  match g.opening with
  | some o =>
    if o.count ≤ 1 then (.complete o.txId o.network g.payload, none)
    else (.pending, some ⟨o, g.payload⟩)
  | none =>
    match waiting with
    | none => (.orphan, none)
    | some p =>
      if g.index.toNat + 1 < p.opening.count.toNat then
        (.pending, some ⟨p.opening, p.raw ++ g.payload⟩)
      else (.complete p.opening.txId p.opening.network (p.raw ++ g.payload), none)

/-- A first segment is all of its transaction or replaces what waited before it. -/
theorem join_of_opening {g : TxSegment} {o : TxOpening} (h : g.opening = some o)
    (waiting : Option PendingTx) :
    g.join waiting =
      if o.count ≤ 1 then (.complete o.txId o.network g.payload, none)
      else (.pending, some ⟨o, g.payload⟩) := by
  simp only [join, h]

/-- Another segment finds nothing to go behind if nothing waits. -/
theorem join_none {g : TxSegment} (h : g.opening = none) : g.join none = (.orphan, none) := by
  simp only [join, h]

/-- Another segment goes behind the octets that wait, and completes them if it is the last. -/
theorem join_some {g : TxSegment} (h : g.opening = none) (p : PendingTx) :
    g.join (some p) =
      if g.index.toNat + 1 < p.opening.count.toNat then
        (.pending, some ⟨p.opening, p.raw ++ g.payload⟩)
      else (.complete p.opening.txId p.opening.network (p.raw ++ g.payload), none) := by
  simp only [join, h]

/-- What segments of one short identity lead to one after the other, and what waits in the end. -/
def joinAll (waiting : Option PendingTx) : List TxSegment → List TxJoined × Option PendingTx
  | [] => ([], waiting)
  | g :: gs =>
    let (j, waiting) := g.join waiting
    let (js, waiting) := joinAll waiting gs
    (j :: js, waiting)

@[simp] theorem joinAll_nil (waiting : Option PendingTx) : joinAll waiting [] = ([], waiting) := rfl

@[simp] theorem joinAll_cons (waiting : Option PendingTx) (g : TxSegment) (gs : List TxSegment) :
    joinAll waiting (g :: gs) =
      ((g.join waiting).1 :: (joinAll (g.join waiting).2 gs).1,
        (joinAll (g.join waiting).2 gs).2) := rfl

section Joining

variable (txId : TxId) (network : Network) (count : UInt8)

/-- The first part replaces what waited before it. -/
theorem join_ofPart_zero (waiting : Option PendingTx) (part : Bytes) :
    (ofPart txId network count (0, part)).join waiting =
      if count.toNat ≤ 1 then (.complete txId network part, none)
      else (.pending, some ⟨⟨txId, count, network⟩, part⟩) := by
  simp only [join, ofPart, if_true, UInt8.le_iff_toNat_le]
  rfl

/-- A part that is not the first finds nothing to go behind if nothing waits. -/
theorem join_ofPart_none {k : Nat} (hk : 0 < k) (part : Bytes) :
    (ofPart txId network count (k, part)).join none = (.orphan, none) :=
  join_none (if_neg (Nat.ne_of_gt hk))

/-- A part that is not the first goes behind the octets that wait, and the last part completes
them. -/
theorem join_ofPart_some (octets : Bytes) {k : Nat} (hk : 0 < k) (hcount : k < count.toNat)
    (part : Bytes) :
    (ofPart txId network count (k, part)).join (some ⟨⟨txId, count, network⟩, octets⟩) =
      if k + 1 = count.toNat then (.complete txId network (octets ++ part), none)
      else (.pending, some ⟨⟨txId, count, network⟩, octets ++ part⟩) := by
  have hindex : (UInt8.ofNat k).toNat = k :=
    UInt8.toNat_ofNat_of_lt' (Nat.lt_trans hcount count.toNat_lt)
  rw [join_some (if_neg (Nat.ne_of_gt hk))]
  simp only [ofPart, hindex]
  by_cases hlast : k + 1 = count.toNat
  · rw [if_neg (by omega), if_pos hlast]
  · rw [if_pos (by omega), if_neg hlast]

variable (slice : Nat → Bytes) {is : List Nat}

/-- Parts of which none is the first find nothing to go behind if nothing waits. -/
theorem joinAll_parts_none (hpos : ∀ i ∈ is, 0 < i) :
    joinAll none (is.map fun i => ofPart txId network count (i, slice i)) =
      (List.replicate is.length .orphan, none) := by
  induction is with
  | nil => rfl
  | cons i is ih =>
    obtain ⟨hi, hpos⟩ := List.forall_mem_cons.1 hpos
    rw [List.map_cons, joinAll_cons, join_ofPart_none txId network count hi, ih hpos]
    rfl

/-- Some of the parts after the first, in order, go behind the octets that wait, and the last part
of the transaction completes them. -/
theorem joinAll_parts_some (hascending : is.Pairwise (· < ·))
    (hbounds : ∀ i ∈ is, 0 < i ∧ i < count.toNat) (octets : Bytes) :
    joinAll (some ⟨⟨txId, count, network⟩, octets⟩)
        (is.map fun i => ofPart txId network count (i, slice i)) =
      if count.toNat - 1 ∈ is then
        (List.replicate (is.length - 1) .pending ++
          [.complete txId network (octets ++ (is.map slice).flatten)], none)
      else
        (List.replicate is.length .pending,
          some ⟨⟨txId, count, network⟩, octets ++ (is.map slice).flatten⟩) := by
  induction is generalizing octets with
  | nil => simp
  | cons i is ih =>
    obtain ⟨⟨hpos, hi⟩, hbounds⟩ := List.forall_mem_cons.1 hbounds
    obtain ⟨habove, hascending⟩ := List.pairwise_cons.1 hascending
    have hjoin := join_ofPart_some txId network count octets hpos hi (slice i)
    rw [List.map_cons, joinAll_cons, hjoin]
    by_cases hlast : i + 1 = count.toNat
    · obtain rfl : is = [] := eq_nil_of_last habove (fun j hj => (hbounds j hj).2) hlast
      have hcount : count.toNat - 1 = i := by omega
      simp [hlast, hcount]
    · have hcount : count.toNat - 1 ≠ i := by omega
      rw [if_neg hlast, ih hascending hbounds]
      by_cases hmem : count.toNat - 1 ∈ is
      · simp [hmem, replicate_length_of_mem hmem]
      · simp [hmem, hcount, List.replicate_succ]

/-- The first part and some of the others, in order, lead to their octets once the last part of the
transaction is there, whatever waited before. -/
theorem joinAll_parts (hascending : (0 :: is).Pairwise (· < ·))
    (hlt : ∀ i ∈ 0 :: is, i < count.toNat) (waiting : Option PendingTx) :
    joinAll waiting ((0 :: is).map fun i => ofPart txId network count (i, slice i)) =
      if count.toNat - 1 ∈ 0 :: is then
        (List.replicate is.length .pending ++
          [.complete txId network ((0 :: is).map slice).flatten], none)
      else
        (List.replicate (is.length + 1) .pending,
          some ⟨⟨txId, count, network⟩, ((0 :: is).map slice).flatten⟩) := by
  obtain ⟨habove, hascending⟩ := List.pairwise_cons.1 hascending
  obtain ⟨hpos, hlt⟩ := List.forall_mem_cons.1 hlt
  rw [List.map_cons, joinAll_cons, join_ofPart_zero]
  by_cases hone : count.toNat ≤ 1
  · obtain rfl : is = [] := eq_nil_of_last habove hlt (by omega)
    have hcount : count.toNat - 1 = 0 := by omega
    simp [hone, hcount]
  · have hcount : count.toNat - 1 ≠ 0 := by omega
    rw [if_neg hone, joinAll_parts_some txId network count slice hascending
      fun i hi => ⟨habove i hi, hlt i hi⟩]
    by_cases hmem : count.toNat - 1 ∈ is
    · simp [hmem, replicate_length_of_mem hmem]
    · simp [hmem, hcount, List.replicate_succ]

end Joining

/-- The segments of a transaction lead to the transaction, whatever waited before. -/
theorem joinAll_segments {txId : TxId} {network : Network} {raw : Bytes} {max : Nat}
    {segments : List TxSegment} (h : TxSegment.segments txId network raw max = .ok segments)
    (waiting : Option PendingTx) :
    joinAll waiting segments =
      (List.replicate (segments.length - 1) .pending ++ [.complete txId network raw], none) := by
  obtain ⟨p, hplan, rfl⟩ := segments_eq_ok h
  obtain ⟨-, hcovers, -⟩ := plan_eq_ok hplan
  have hpos := hcovers.count_pos
  obtain ⟨is, his⟩ : ∃ is, List.range p.count.toNat = 0 :: is := by
    obtain ⟨n, hn⟩ : ∃ n, p.count.toNat = n + 1 := ⟨p.count.toNat - 1, by omega⟩
    refine ⟨List.range' 1 n, ?_⟩
    rw [hn, List.range_eq_range', List.range'_succ]
  have hflat := hcovers.flatten_eq
  have hascending : (0 :: is).Pairwise (· < ·) := his ▸ List.pairwise_lt_range
  have hlt : ∀ i ∈ 0 :: is, i < p.count.toNat := his ▸ fun i hi => List.mem_range.1 hi
  have hlast : p.count.toNat - 1 ∈ 0 :: is := his ▸ List.mem_range.2 (by omega)
  rw [his] at hflat ⊢
  rw [joinAll_parts txId network p.count (p.slice raw) hascending hlt, if_pos hlast, hflat]
  simp

end TxSegment

/-! ## Many transactions -/

namespace TxReassembler

/-- What a segment leads to is told by what waits under its own short identity. -/
theorem accept_fst (r : TxReassembler) (g : TxSegment) :
    (r.accept g).1 = (g.join (r.waiting.get? g.shortId)).1 := by
  unfold accept TxSegment.join
  cases g.opening with
  | some o =>
    simp only
    split <;> rfl
  | none =>
    cases r.waiting.get? g.shortId with
    | none => rfl
    | some p =>
      simp only
      split <;> rfl

/-- A segment changes what waits under its own short identity only. -/
theorem get?_accept (r : TxReassembler) (g : TxSegment) (id : ShortId) :
    (r.accept g).2.waiting.get? id =
      if id = g.shortId then (g.join (r.waiting.get? id)).2 else r.waiting.get? id := by
  unfold accept TxSegment.join
  by_cases hid : id = g.shortId
  · subst hid
    cases g.opening with
    | some o =>
      simp only
      split <;> simp [Table.get?_erase, Table.get?_insert]
    | none =>
      cases hget : r.waiting.get? g.shortId with
      | none => simp [hget]
      | some p =>
        simp only
        split <;> simp [Table.get?_erase, Table.get?_insert]
  · cases g.opening with
    | some o =>
      simp only
      split <;> simp [Table.get?_erase, Table.get?_insert, hid]
    | none =>
      cases r.waiting.get? g.shortId with
      | none => simp [hid]
      | some p =>
        simp only
        split <;> simp [Table.get?_erase, Table.get?_insert, hid]

/-- What the segments of one short identity lead to, among segments of any. -/
def outcomesOf (id : ShortId) : TxReassembler → List TxSegment → List TxJoined
  | _, [] => []
  | r, g :: gs =>
    let (j, r) := r.accept g
    if g.shortId = id then j :: outcomesOf id r gs else outcomesOf id r gs

/-- The segments of a short identity lead to what they lead to by themselves. -/
theorem outcomesOf_eq (id : ShortId) (r : TxReassembler) (gs : List TxSegment) :
    outcomesOf id r gs =
      (TxSegment.joinAll (r.waiting.get? id) (gs.filter (·.shortId = id))).1 := by
  induction gs generalizing r with
  | nil => rfl
  | cons g gs ih =>
    have hget := get?_accept r g id
    simp only [outcomesOf, accept_fst, ih]
    by_cases hid : g.shortId = id
    · subst hid
      simp [hget]
    · simp [hget, hid, Ne.symm hid]

end TxReassembler

end Meshway
