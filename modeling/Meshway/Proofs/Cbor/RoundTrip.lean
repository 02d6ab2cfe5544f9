import Meshway.Proofs.Cbor.Heads
set_option autoImplicit false

/-!
# Written values are read back (SPEC §4.1)

A reader that is given the written form of a value, with anything after it,
returns the value and what comes after.  The statement carries an arbitrary
rest of the input: that is what lets the items of an array or a map be read one
after the other.

Numbers of a head have at most sixty-four bits, so lengths have a bound.  A map
is read back when its keys stand in ascending order, because the entries are
put in one after the other.
-/

namespace Meshway.Cbor

/-! ## Items -/

namespace Reader

/-- Inside so many levels, the written form of a value is read as the value, whatever follows. -/
def ReadsBack (depth : Nat) (v : Value) : Prop :=
  ∀ rest, item depth (v.wire ++ rest) = .ok (v, rest)

/-- An unsigned integer is read from a head of any form. -/
theorem item_uint {depth : Nat} {form : HeadForm} {n : Nat} (h : n < form.limit) (rest : Bytes) :
    item (depth + 1) (form.write 0 n ++ rest) = .ok (.int n, rest) := by
  obtain ⟨b, tail, hhead, hmajor, hextent⟩ := HeadForm.write_eq_cons 0 (by decide) h
  rw [hhead, List.cons_append, item]
  simp only [hmajor, argument_of_extent (hextent rest), Except.map]

/-- Every integer that fits a head is read back. -/
theorem readsBack_int {depth : Nat} {n : Int} (h : Value.intFits n = true) :
    ReadsBack (depth + 1) (.int n) := by
  intro rest
  simp only [Value.intFits, UInt64.size, Bool.and_eq_true, decide_eq_true_eq] at h
  rw [Value.wire, Value.wireInt]
  split
  · rename_i hn
    obtain ⟨form, hform, heq⟩ :=
      exists_head_eq_write 0 (n := n.toNat) (by simp only [UInt64.size]; omega)
    rw [heq, item_uint hform, Int.toNat_of_nonneg hn]
  · rename_i hn
    obtain ⟨b, tail, hhead, hmajor, hextent⟩ :=
      head_eq_cons 1 (-1 - n).toNat (by omega) (by simp only [UInt64.size]; omega)
    rw [hhead, List.cons_append, item]
    simp only [hmajor, argument_of_extent (hextent rest), Except.map]
    rw [Int.toNat_of_nonneg (by omega)]
    congr 3
    omega

/-- Octets are read back when their number fits a head. -/
theorem readsBack_bytes {depth : Nat} {bs : Bytes} (h : bs.length < UInt64.size) :
    ReadsBack (depth + 1) (.bytes bs) := by
  intro rest
  obtain ⟨b, tail, hhead, hmajor, hextent⟩ := head_eq_cons 2 _ (by omega) h
  rw [Value.wire, hhead, List.append_assoc, List.cons_append, item]
  simp only [hmajor, string, hextent (bs ++ rest), octets_append bs rest rfl, Except.map, if_true]

/-- A text is read back when the number of its octets fits a head. -/
theorem readsBack_text {depth : Nat} {s : String} (h : Utf8.size s < UInt64.size) :
    ReadsBack (depth + 1) (.text s) := by
  intro rest
  obtain ⟨b, tail, hhead, hmajor, hextent⟩ := head_eq_cons 3 _ (by omega) h
  have hfield : octets (Utf8.size s) (Utf8.encode s ++ rest) = .ok (Utf8.encode s, rest) :=
    octets_append _ _ rfl
  rw [Value.wire, hhead, List.append_assoc, List.cons_append, item]
  simp only [hmajor, string, hextent (Utf8.encode s ++ rest), textOf, hfield, asText,
    Utf8.decode?_encode, Except.map]
  rfl

/-! ## Maps -/

/-- Entries are read back one after the other when all their keys and values are. -/
theorem times_wireEntries {depth : Nat} {es : List (Value × Value)}
    (h : ∀ e ∈ es, ReadsBack depth e.1 ∧ ReadsBack depth e.2) (rest : Bytes) :
    times (entry (item depth)) es.length (Value.wireEntries es ++ rest) = .ok (es, rest) := by
  induction es with
  | nil => rfl
  | cons e es ih =>
    obtain ⟨k, v⟩ := e
    obtain ⟨hk, hv⟩ := h (k, v) (List.mem_cons_self ..)
    have hrest := ih fun e he => h e (List.mem_cons_of_mem _ he)
    have hentry : entry (item depth) (Value.wireEntries ((k, v) :: es) ++ rest) =
        .ok ((k, v), Value.wireEntries es ++ rest) := by
      rw [Value.wireEntries, List.append_assoc, List.append_assoc, entry, hk]
      simp only
      rw [hv]
    rw [List.length_cons, times, hentry]
    simp only [hrest]

end Reader

/-- A key greater than all those in a list is put at its end. -/
theorem Value.insertEntry_of_forall_gt {k v : Value} {es : List (Value × Value)}
    (h : ∀ e ∈ es, order k e.1 = .gt) : insertEntry k v es = es ++ [(k, v)] := by
  induction es with
  | nil => rfl
  | cons e es ih =>
    have he := h e (List.mem_cons_self ..)
    have hes := ih fun e he => h e (List.mem_cons_of_mem _ he)
    simp [insertEntry, he, hes]

/-- Entries in ascending order make the map that lists them. -/
theorem Value.ofEntries_of_ascending {es : List (Value × Value)}
    (h : es.Pairwise fun a b => order b.1 a.1 = .gt) : ofEntries es = .map es := by
  -- The entries put in so far are the beginning of the list, all below those to come.
  have hfold : ∀ (todo done : List (Value × Value)),
      (done ++ todo).Pairwise (fun a b => order b.1 a.1 = .gt) →
      todo.foldl (fun es e => insertEntry e.1 e.2 es) done = done ++ todo := by
    intro todo
    induction todo with
    | nil => intro done _; simp
    | cons e todo ih =>
      intro done hpair
      have hlast : ∀ a ∈ done, order e.1 a.1 = .gt := by
        intro a ha
        exact (List.pairwise_append.1 hpair).2.2 a ha e (List.mem_cons_self ..)
      rw [List.foldl_cons, insertEntry_of_forall_gt hlast]
      have hnext := ih (done ++ [e]) (by simpa using hpair)
      simpa using hnext
  rw [ofEntries, hfold es [] (by simpa using h)]
  rfl

/-- A head of a map and entries that are read behind it are read as the map of these entries. -/
theorem Reader.item_map {depth : Nat} {b : UInt8} {bs rest rest' : Bytes} {size : Extent}
    {es : List (Value × Value)} (hmajor : b.toNat / 32 = 5)
    (hextent : extent (b.toNat % 32) bs = .ok (size, rest)) (hdepth : depth ≠ 0)
    (hes : series (entry (item depth)) size rest = .ok (es, rest')) :
    item (depth + 1) (b :: bs) = .ok (Value.ofEntries es, rest') := by
  rw [item]
  simp only [hmajor, hextent, hdepth, if_false, holder, Except.map]
  rw [if_neg (by decide)]
  simp only [hes]

/-- A map whose keys ascend is read back when its keys and values are, one level further in. -/
theorem Reader.readsBack_map {depth : Nat} {es : List (Value × Value)}
    (hlen : es.length < UInt64.size) (hdepth : depth ≠ 0)
    (hes : ∀ e ∈ es, ReadsBack depth e.1 ∧ ReadsBack depth e.2)
    (hasc : es.Pairwise fun a b => Value.order b.1 a.1 = .gt) :
    ReadsBack (depth + 1) (.map es) := by
  intro rest
  obtain ⟨b, tail, hhead, hmajor, hextent⟩ := head_eq_cons 5 _ (by omega) hlen
  rw [Value.wire, hhead, List.append_assoc, List.cons_append,
    item_map hmajor (hextent _) hdepth (times_wireEntries hes rest),
    Value.ofEntries_of_ascending hasc]

/-- A value that is read back inside all the levels there are is what its written form holds. -/
theorem Value.decode_wire {v : Value} (h : Reader.ReadsBack Reader.maxDepth v) :
    Value.decode v.wire = .ok v := by
  have hread := h []
  rw [List.append_nil] at hread
  rw [Value.decode, hread]

end Meshway.Cbor
