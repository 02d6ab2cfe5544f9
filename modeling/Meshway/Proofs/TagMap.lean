import Meshway.TagMap
import Meshway.Proofs.Cbor.RoundTrip
set_option autoImplicit false

/-!
# Look-up in tag maps, and reading them back (SPEC §4.1)

The view of a tag map is `get?`.  A tag map whose values are read back is read
back itself: its tags ascend, and so do the keys that stand for them.  The
length of the written form is the sum of the lengths of its parts.
-/

namespace Meshway.TagMap

open Meshway.Cbor

/-! ## Look-up -/

@[ext] theorem ext {m m' : TagMap} (h : m.entries = m'.entries) : m = m' := by
  cases m
  cases m'
  cases h
  rfl

theorem lookup_cons_ite (tag t : UInt64) (v : Value) (es : List (UInt64 × Value)) :
    ((tag, v) :: es).lookup t = if t = tag then some v else es.lookup t := by
  by_cases h : t = tag
  · simp [h]
  · have hbeq : (t == tag) = false := beq_false_of_ne h
    simp [List.lookup_cons, hbeq, h]

theorem lookup_insertEntry (tag t : UInt64) (v : Value) (es : List (UInt64 × Value)) :
    (insertEntry tag v es).lookup t = if t = tag then some v else es.lookup t := by
  induction es with
  | nil => rw [insertEntry, lookup_cons_ite]
  | cons e es ih =>
    obtain ⟨t', w⟩ := e
    unfold insertEntry
    split
    · rw [lookup_cons_ite]
    · split
      · rename_i heq
        subst heq
        rw [lookup_cons_ite, lookup_cons_ite]
        split <;> rfl
      · rename_i hne
        rw [lookup_cons_ite, lookup_cons_ite, ih]
        by_cases h : t = tag
        · subst h
          simp [hne]
        · simp [h]

/-- Assigning a value changes what is found under its own tag only. -/
theorem get?_insert (m : TagMap) (tag t : UInt64) (v : Value) :
    (m.insert tag v).get? t = if t = tag then some v else m.get? t :=
  lookup_insertEntry tag t v m.entries

@[simp] theorem get?_empty (t : UInt64) : empty.get? t = none := rfl

/-! ## Reading back -/

/-- The tag of a key that stands for a tag. -/
theorem tagOf?_key (tag : UInt64) : tagOf? (.int tag.toNat) = some tag := by
  have hlt : tag.toNat < UInt64.size := tag.toNat_lt
  have hfit : (0 : Int) ≤ (tag.toNat : Int) ∧ (tag.toNat : Int) < UInt64.size := by omega
  simp only [tagOf?]
  rw [if_pos hfit]
  simp

/-- Keys are ordered as the tags that they stand for. -/
theorem order_keys (a b : UInt64) :
    Value.order (.int a.toNat) (.int b.toNat) = compare a.toNat b.toNat := by
  have hkind : ∀ n : Nat, Value.rank (.int (n : Int)) = (0, n, []) := by
    intro n
    simp [Value.rank]
  simp [Value.order, hkind, Value.compareBytes]

theorem order_key {a b : UInt64} (h : a < b) :
    Value.order (.int b.toNat) (.int a.toNat) = .gt := by
  rw [order_keys]
  exact Nat.compare_eq_gt.2 (UInt64.lt_iff_toNat_lt.1 h)

theorem nodup_tags (m : TagMap) : m.tags.Nodup :=
  List.pairwise_map.2 (m.ascending.imp UInt64.ne_of_lt)

theorem insertEntry_of_forall_lt {tag : UInt64} {v : Value} {es : List (UInt64 × Value)}
    (h : ∀ e ∈ es, e.1 < tag) : insertEntry tag v es = es ++ [(tag, v)] := by
  induction es with
  | nil => rfl
  | cons e es ih =>
    obtain ⟨t, w⟩ := e
    have ht : t < tag := h (t, w) (List.mem_cons_self ..)
    have hes := ih fun e he => h e (List.mem_cons_of_mem _ he)
    have hlt : ¬ tag < t := fun h' => UInt64.lt_irrefl _ (UInt64.lt_trans h' ht)
    have hne : ¬ tag = t := fun h' => UInt64.lt_irrefl t (h' ▸ ht)
    simp [insertEntry, hlt, hne, hes]

/-- Putting ascending entries in one after the other gives the map that lists them. -/
theorem ofList_entries (m : TagMap) : ofList m.entries = m := by
  have hfold : ∀ (todo : List (UInt64 × Value)) (m' : TagMap),
      (m'.entries ++ todo).Pairwise (fun a b => a.1 < b.1) →
      (todo.foldl (fun m e => m.insert e.1 e.2) m').entries = m'.entries ++ todo := by
    intro todo
    induction todo with
    | nil => intro m' _; simp
    | cons e todo ih =>
      intro m' hpair
      have hlast : ∀ a ∈ m'.entries, a.1 < e.1 := by
        intro a ha
        exact (List.pairwise_append.1 hpair).2.2 a ha e (List.mem_cons_self ..)
      have hinsert : (m'.insert e.1 e.2).entries = m'.entries ++ [e] :=
        insertEntry_of_forall_lt hlast
      have hnext := ih (m'.insert e.1 e.2) (by simpa [hinsert] using hpair)
      simpa [hinsert] using hnext
  have hall := hfold m.entries empty (by simpa [empty] using m.ascending)
  apply ext
  rw [ofList, hall]
  rfl

/-- The entries of the value that stands for a tag map make the tag map again. -/
theorem ofEntries?_toValue (m : TagMap) :
    ofEntries? (m.entries.map fun e => (.int e.1.toNat, e.2)) = some m := by
  have hmap : ∀ es : List (UInt64 × Value),
      (es.map fun e => ((.int e.1.toNat, e.2) : Value × Value)).mapM
        (fun e => (tagOf? e.1).map fun tag => (tag, e.2)) = some es := by
    intro es
    induction es with
    | nil => rfl
    | cons e es ih => simp [List.mapM_cons, tagOf?_key, ih]
  rw [ofEntries?, hmap]
  simp [ofList_entries]

/-- A tag map is read back when its values are, one level further in. -/
theorem decode_wire_of_readsBack {m : TagMap} (hsize : m.size < UInt64.size)
    (h : ∀ e ∈ m.entries, Reader.ReadsBack 127 e.2) : decode m.toValue.wire = .ok m := by
  have hentries : ∀ e ∈ m.entries.map (fun e => ((.int e.1.toNat, e.2) : Value × Value)),
      Reader.ReadsBack 127 e.1 ∧ Reader.ReadsBack 127 e.2 := by
    intro e he
    obtain ⟨e', he', rfl⟩ := List.mem_map.1 he
    exact ⟨Reader.readsBack_int (Value.intFits_ofNat e'.1.toNat_lt), h e' he'⟩
  have hascending : (m.entries.map fun e => ((.int e.1.toNat, e.2) : Value × Value)).Pairwise
      (fun a b => Value.order b.1 a.1 = .gt) :=
    List.pairwise_map.2 (m.ascending.imp order_key)
  have hread : Reader.ReadsBack Reader.maxDepth m.toValue :=
    Reader.readsBack_map (by simpa [size] using hsize) (by decide) hentries hascending
  rw [decode, Value.decode_wire hread]
  simp [toValue, ofEntries?_toValue]

/-- A tag map is read back when its values are, however deep they are. -/
theorem decode_wire {m : TagMap} (hsize : m.size < UInt64.size)
    (h : ∀ e ∈ m.entries, ∀ depth, Reader.ReadsBack (depth + 1) e.2) :
    decode m.toValue.wire = .ok m :=
  decode_wire_of_readsBack hsize fun e he => h e he 126

/-! ## Length -/

/-- How many octets entries take up. -/
def entriesLength : List (UInt64 × Value) → Nat
  | [] => 0
  | e :: es => headLength e.1.toNat + e.2.wire.length + entriesLength es

/-- The written form is a head, and for each tag its head and its value. -/
theorem length_wire (m : TagMap) :
    m.toValue.wire.length = headLength m.size + entriesLength m.entries := by
  have hentries : ∀ es : List (UInt64 × Value),
      (Value.wireEntries (es.map fun e => (.int e.1.toNat, e.2))).length = entriesLength es := by
    intro es
    induction es with
    | nil => rfl
    | cons e es ih =>
      simp only [List.map_cons, Value.wireEntries, List.length_append, ih, entriesLength]
      simp [Value.wire, Value.wireInt, length_head, Nat.add_assoc]
  rw [toValue, Value.wire, List.length_append, length_head, List.length_map, hentries, size]

end Meshway.TagMap
