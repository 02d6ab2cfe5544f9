import Meshway.Reassembly
import Meshway.Proofs.Segmentation
set_option autoImplicit false

/-!
# Reassembly, one stream at a time (SPEC §4.3)

What a chunk leads to depends on the octets kept for its own stream and on
nothing else, and it changes those octets only.  So a reassembler is many
independent joiners, one for each stream, and what the chunks of a stream lead
to is found by leaving out all others.

The chunks of one message that is not empty lead to the message, from whatever
was kept before: the first of them drops it.
-/

namespace Meshway

open Meshway.Segmentation

/-! ## A stream by itself -/

namespace Chunk

/-- What a chunk leads to after the given octets of its stream, and the octets kept then. -/
def join (held : Bytes) (c : Chunk) : Joined × Bytes :=
  if c.isClose then (.closed, [])
  else
    let message := (if c.index = 0 then [] else held) ++ c.payload
    if c.isLast then (.complete message, []) else (.pending, message)

/-- What chunks of one stream lead to one after the other, and the octets kept in the end. -/
def joinAll (held : Bytes) : List Chunk → List Joined × Bytes
  | [] => ([], held)
  | c :: cs =>
    let (j, held) := c.join held
    let (js, held) := joinAll held cs
    (j :: js, held)

@[simp] theorem joinAll_nil (held : Bytes) : joinAll held [] = ([], held) := rfl

@[simp] theorem joinAll_cons (held : Bytes) (c : Chunk) (cs : List Chunk) :
    joinAll held (c :: cs) =
      ((c.join held).1 :: (joinAll (c.join held).2 cs).1, (joinAll (c.join held).2 cs).2) := rfl

theorem joinAll_append (held : Bytes) (cs ds : List Chunk) :
    joinAll held (cs ++ ds) =
      ((joinAll held cs).1 ++ (joinAll (joinAll held cs).2 ds).1,
        (joinAll (joinAll held cs).2 ds).2) := by
  induction cs generalizing held with
  | nil => rfl
  | cons c cs ih => simp [ih]

theorem join_of_close {held : Bytes} {c : Chunk} (h : c.isClose = true) :
    c.join held = (.closed, []) := by
  simp [join, h]

end Chunk

/-! ## Many streams -/

namespace Reassembler

@[simp] theorem held_empty (id : StreamId) : empty.held id = [] := rfl

theorem held_forget (r : Reassembler) (id id' : StreamId) :
    (r.forget id).held id' = if id' = id then [] else r.held id' := by
  simp only [held, forget, Table.get?_erase]
  split <;> rfl

/-- What a chunk leads to is told by its own stream. -/
theorem accept_fst (r : Reassembler) (c : Chunk) :
    (r.accept c).1 = (c.join (r.held c.streamId)).1 := by
  unfold accept Chunk.join
  by_cases hclose : c.isClose = true
  · simp [hclose]
  · by_cases hfirst : c.index = 0 <;> by_cases hlast : c.isLast = true <;>
      simp [hclose, hfirst, hlast]

/-- Only a chunk without payload ends its stream. -/
theorem accept_fst_eq_closed_iff (r : Reassembler) (c : Chunk) :
    (r.accept c).1 = .closed ↔ c.isClose = true := by
  rw [accept_fst]
  unfold Chunk.join
  cases hclose : c.isClose with
  | true => simp
  | false => cases hlast : c.isLast <;> simp

/-- A chunk changes what is kept for its own stream only. -/
theorem held_accept (r : Reassembler) (c : Chunk) (id : StreamId) :
    (r.accept c).2.held id = if id = c.streamId then (c.join (r.held id)).2 else r.held id := by
  have hinsert : ∀ message : Bytes,
      (Reassembler.mk (r.partials.insert c.streamId message)).held id =
        if id = c.streamId then message else r.held id := by
    intro message
    simp only [held, Table.get?_insert]
    split <;> rfl
  by_cases hid : id = c.streamId
  · subst hid
    unfold accept Chunk.join
    by_cases hclose : c.isClose = true
    · simp [hclose, held_forget]
    · by_cases hfirst : c.index = 0 <;> by_cases hlast : c.isLast = true <;>
        simp [hclose, hfirst, hlast, held_forget, hinsert]
  · unfold accept
    by_cases hclose : c.isClose = true
    · simp [hclose, held_forget, hid]
    · by_cases hfirst : c.index = 0 <;> by_cases hlast : c.isLast = true <;>
        simp [hclose, hfirst, hlast, held_forget, hinsert, hid]

/-- What the chunks of one stream lead to, among chunks of any streams. -/
def outcomesOf (id : StreamId) : Reassembler → List Chunk → List Joined
  | _, [] => []
  | r, c :: cs =>
    let (j, r) := r.accept c
    if c.streamId = id then j :: outcomesOf id r cs else outcomesOf id r cs

/-- Takes chunks in one after the other. -/
def acceptAll (r : Reassembler) (cs : List Chunk) : Reassembler :=
  cs.foldl (fun r c => (r.accept c).2) r

/-- The chunks of a stream lead to what they lead to by themselves. -/
theorem outcomesOf_eq (id : StreamId) (r : Reassembler) (cs : List Chunk) :
    outcomesOf id r cs = (Chunk.joinAll (r.held id) (cs.filter (·.streamId = id))).1 := by
  induction cs generalizing r with
  | nil => rfl
  | cons c cs ih =>
    have hheld := held_accept r c id
    simp only [outcomesOf, accept_fst, ih]
    by_cases hid : c.streamId = id
    · subst hid
      simp [hheld]
    · simp [hheld, hid, Ne.symm hid]

/-- What is kept for a stream in the end is what its own chunks leave. -/
theorem held_acceptAll (id : StreamId) (r : Reassembler) (cs : List Chunk) :
    (r.acceptAll cs).held id =
      (Chunk.joinAll (r.held id) (cs.filter (·.streamId = id))).2 := by
  induction cs generalizing r with
  | nil => rfl
  | cons c cs ih =>
    have hheld := held_accept r c id
    rw [acceptAll, List.foldl_cons]
    refine (ih (r.accept c).2).trans ?_
    by_cases hid : c.streamId = id
    · subst hid
      simp [hheld]
    · simp [hheld, hid, Ne.symm hid]

end Reassembler

/-! ## The chunks of a message -/

namespace Chunk

variable (id : StreamId) (destination : Option Destination) (count : UInt8)

/-- A part goes behind the octets kept before it, which the first part drops, and the last part
completes them. -/
theorem join_ofPart (held : Bytes) {part : Bytes} {k : Nat} (hk : k < count.toNat)
    (hne : part ≠ []) :
    (ofPart id destination count (k, part)).join held =
      if k + 1 = count.toNat then (.complete ((if k = 0 then [] else held) ++ part), [])
      else (.pending, (if k = 0 then [] else held) ++ part) := by
  have hnumber : (UInt8.ofNat k).toNat = k :=
    UInt8.toNat_ofNat_of_lt' (Nat.lt_trans hk count.toNat_lt)
  have hindex : UInt8.ofNat k = 0 ↔ k = 0 := by
    rw [← UInt8.toNat_inj, hnumber]
    rfl
  have hclose : (ofPart id destination count (k, part)).isClose = false := by
    simpa [isClose, ofPart] using hne
  have hlast : (ofPart id destination count (k, part)).isLast = decide (k + 1 = count.toNat) := by
    simp only [isLast, ofPart, hnumber, decide_eq_decide]
    omega
  simp only [join, hclose, hlast]
  simp [ofPart, hindex]

/-- Some of the parts of a message, in order: each goes behind those before it, the first part of
the message drops what was kept before, and the last part of the message completes the rest. -/
theorem joinAll_parts {slice : Nat → Bytes} (hne : ∀ i, i < count.toNat → slice i ≠ [])
    {is : List Nat} (hascending : is.Pairwise (· < ·)) (hlt : ∀ i ∈ is, i < count.toNat)
    (held : Bytes) :
    joinAll held (is.map fun i => ofPart id destination count (i, slice i)) =
      if count.toNat - 1 ∈ is then
        (List.replicate (is.length - 1) .pending ++
          [.complete ((if 0 ∈ is then [] else held) ++ (is.map slice).flatten)], [])
      else
        (List.replicate is.length .pending,
          (if 0 ∈ is then [] else held) ++ (is.map slice).flatten) := by
  induction is generalizing held with
  | nil => simp
  | cons i is ih =>
    obtain ⟨hi, hlt⟩ := List.forall_mem_cons.1 hlt
    obtain ⟨habove, hascending⟩ := List.pairwise_cons.1 hascending
    have hjoin := join_ofPart id destination count held hi (hne i hi)
    rw [List.map_cons, joinAll_cons, hjoin]
    by_cases hlast : i + 1 = count.toNat
    · obtain rfl : is = [] := eq_nil_of_last habove hlt hlast
      have hcount : count.toNat - 1 = i := by omega
      simp [hlast, hcount, eq_comm]
    · have hfirst : 0 ∉ is := fun h => absurd (habove 0 h) (Nat.not_lt_zero i)
      have hcount : count.toNat - 1 ≠ i := by omega
      rw [if_neg hlast, ih hascending hlt]
      by_cases hmem : count.toNat - 1 ∈ is
      · simp [hmem, hfirst, replicate_length_of_mem hmem, eq_comm]
      · simp [hmem, hfirst, hcount, List.replicate_succ, eq_comm]

variable {id : StreamId} {destination : Option Destination}

/-- The chunks of a message that is not empty lead to the message, whatever was kept before. -/
theorem joinAll_segments {payload : Bytes} {max : Nat} {chunks : List Chunk}
    (h : segments id destination payload max = .ok chunks) (hne : payload ≠ []) (held : Bytes) :
    joinAll held chunks =
      (List.replicate (chunks.length - 1) .pending ++ [.complete payload], []) := by
  obtain ⟨p, hplan, rfl⟩ := segments_eq_ok h
  obtain ⟨hcovers, -, -⟩ := plan_eq_ok hplan
  have hpos := hcovers.count_pos
  rw [joinAll_parts id destination p.count (fun i hi => hcovers.slice_ne_nil hne hi)
    List.pairwise_lt_range fun i hi => List.mem_range.1 hi]
  rw [if_pos (List.mem_range.2 (by omega)), if_pos (List.mem_range.2 hpos), hcovers.flatten_eq]
  simp

/-- An empty message is one chunk, which ends the stream. -/
theorem segments_nil {max : Nat} {chunks : List Chunk}
    (h : segments id destination [] max = .ok chunks) : chunks = [⟨id, destination, 0, 1, []⟩] := by
  obtain ⟨p, hplan, rfl⟩ := segments_eq_ok h
  obtain ⟨hcovers, -, -⟩ := plan_eq_ok hplan
  have hcount : p.count.toNat = 1 := hcovers.count_of_nil
  have hcount' : p.count = 1 := UInt8.toNat_inj.1 hcount
  rw [hcount, hcount']
  simp [ofPart, Plan.slice]

end Chunk

end Meshway
