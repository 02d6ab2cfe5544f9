import Meshway.Cbor.Value
set_option autoImplicit false

/-!
# The order of map keys (SPEC §4.1)

Keys are compared by kind, then by size, then octet by octet.  Two keys may
stand at the same place, as all patterns for no number do, so the comparison is
a total preorder.  Main statement: putting an entry into entries whose keys
ascend leaves them ascending, and so a map that is made entry by entry ascends.
-/

namespace Meshway.Cbor.Value

/-! ## A total preorder -/

theorem compareBytes_eq (as bs : Bytes) : compareBytes as bs = List.compareLex compare as bs := by
  induction as generalizing bs with
  | nil => cases bs <;> rfl
  | cons a as ih =>
    cases bs with
    | nil => rfl
    | cons b bs => rw [compareBytes, List.compareLex_cons_cons, ih]

theorem order_eq (a b : Value) :
    order a b = compareLex (compareLex (compareOn fun v => (rank v).1)
      (compareOn fun v => (rank v).2.1))
      (fun a b => List.compareLex compare (rank a).2.2 (rank b).2.2) a b := by
  simp only [order, compareBytes_eq, compareLex, compareOn]

instance : Std.TransCmp order := by
  have hbytes : Std.TransCmp
      fun a b : Value => List.compareLex compare (rank a).2.2 (rank b).2.2 :=
    { eq_swap := Std.OrientedCmp.eq_swap
      isLE_trans := Std.TransCmp.isLE_trans }
  have horder : order = _ := funext fun a => funext fun b => order_eq a b
  rw [horder]
  infer_instance

/-- Two keys are ordered one way just when they are ordered the other way round. -/
theorem order_eq_gt_iff {a b : Value} : order a b = .gt ↔ order b a = .lt :=
  Std.OrientedCmp.gt_iff_lt

/-! ## Ascending entries -/

/-- Whether the keys of entries ascend. -/
def Ascending (es : List (Value × Value)) : Prop := es.Pairwise fun a b => order a.1 b.1 = .lt

/-- What holds of all keys, and what holds of all values, still does when one more entry is put
in that it holds of. -/
theorem forall_insertEntry {P Q : Value → Prop} {k v : Value} {es : List (Value × Value)}
    (hk : P k) (hv : Q v) (hes : ∀ e ∈ es, P e.1 ∧ Q e.2) :
    ∀ e ∈ insertEntry k v es, P e.1 ∧ Q e.2 := by
  induction es with
  | nil => exact List.forall_mem_cons.2 ⟨⟨hk, hv⟩, hes⟩
  | cons e es ih =>
    obtain ⟨he, hes'⟩ := List.forall_mem_cons.1 hes
    unfold insertEntry
    split
    · exact List.forall_mem_cons.2 ⟨⟨hk, hv⟩, hes⟩
    · exact List.forall_mem_cons.2 ⟨⟨he.1, hv⟩, hes'⟩
    · exact List.forall_mem_cons.2 ⟨he, ih hes'⟩

/-- Entries that ascend still do when one more is put in. -/
theorem ascending_insertEntry (k v : Value) {es : List (Value × Value)} (h : Ascending es) :
    Ascending (insertEntry k v es) := by
  induction es with
  | nil => exact List.pairwise_singleton _ _
  | cons e es ih =>
    obtain ⟨he, hes⟩ := List.pairwise_cons.1 h
    unfold insertEntry
    split
    · rename_i hlt
      refine List.pairwise_cons.2 ⟨List.forall_mem_cons.2 ⟨hlt, fun e' he' => ?_⟩, h⟩
      exact Std.TransCmp.lt_trans hlt (he e' he')
    · exact List.pairwise_cons.2 ⟨he, hes⟩
    · rename_i hgt
      have hall := forall_insertEntry (P := fun k' => order e.1 k' = .lt) (Q := fun _ => True)
        (v := v) (order_eq_gt_iff.1 hgt) trivial fun e' he' => ⟨he e' he', trivial⟩
      exact List.pairwise_cons.2 ⟨fun e' he' => (hall e' he').1, ih hes⟩

theorem length_insertEntry_le (k v : Value) (es : List (Value × Value)) :
    (insertEntry k v es).length ≤ es.length + 1 := by
  induction es with
  | nil => exact Nat.le_refl _
  | cons e es ih =>
    unfold insertEntry
    split
    · exact Nat.le_refl _
    · exact Nat.le_succ _
    · exact Nat.succ_le_succ ih

/-- A map that is made entry by entry ascends and has no more entries than were put in.  What holds
of all keys and values that were put in holds of its keys and values. -/
theorem ofEntries_eq_map {P : Value → Prop} {entries : List (Value × Value)}
    (h : ∀ e ∈ entries, P e.1 ∧ P e.2) :
    ∃ es, ofEntries entries = .map es ∧ Ascending es ∧ es.length ≤ entries.length ∧
      ∀ e ∈ es, P e.1 ∧ P e.2 := by
  -- The entries put in so far ascend, and no more are there than were put in.
  have hfold : ∀ (todo done : List (Value × Value)), Ascending done →
      (∀ e ∈ done, P e.1 ∧ P e.2) → (∀ e ∈ todo, P e.1 ∧ P e.2) →
      let es := todo.foldl (fun es e => insertEntry e.1 e.2 es) done
      Ascending es ∧ es.length ≤ done.length + todo.length ∧ ∀ e ∈ es, P e.1 ∧ P e.2 := by
    intro todo
    induction todo with
    | nil => exact fun done hasc hdone _ => ⟨hasc, Nat.le_refl _, hdone⟩
    | cons e todo ih =>
      intro done hasc hdone htodo
      obtain ⟨he, htodo⟩ := List.forall_mem_cons.1 htodo
      obtain ⟨hasc', hlen, hall⟩ := ih (insertEntry e.1 e.2 done)
        (ascending_insertEntry e.1 e.2 hasc) (forall_insertEntry he.1 he.2 hdone) htodo
      have hone := length_insertEntry_le e.1 e.2 done
      refine ⟨hasc', ?_, hall⟩
      simp only [List.length_cons, List.foldl_cons] at hlen ⊢
      omega
  obtain ⟨hasc, hlen, hall⟩ := hfold entries [] .nil (fun e he => by cases he) h
  exact ⟨_, rfl, hasc, by simpa using hlen, hall⟩

end Meshway.Cbor.Value
