import Meshway.Proofs.Cbor.Reading
import Meshway.Proofs.TagMap
set_option autoImplicit false

/-!
# The canonical form of a tag map (SPEC §4.1)

A tag map of regular values is read back from its written form, with one pattern
for everything that is not a number.  Whatever is read as a tag map, however it
is written, is such a map.  So every byte string that holds a tag map has a
canonical form, which holds the same map and is the written form of that map.
-/

namespace Meshway.TagMap

open Meshway.Cbor

/-- A tag map whose values can be written and read inside it: all fit their heads, and are nested
at most 126 levels deep. -/
structure Regular (m : TagMap) : Prop where
  size_lt : m.size < UInt64.size
  values : ∀ e ∈ m.entries, e.2.Regular 126

/-- The map with one pattern for everything that is not a number. -/
def settle (m : TagMap) : TagMap where
  entries := m.entries.map fun e => (e.1, e.2.settle)
  ascending := List.pairwise_map.2 m.ascending

theorem toValue_settle (m : TagMap) : m.settle.toValue = m.toValue.settle := by
  rw [toValue, toValue, Value.settle, Value.settleEntries_eq_map, settle, List.map_map,
    List.map_map]
  rfl

/-- A map and its settled form are written the same. -/
theorem wire_settle (m : TagMap) : m.settle.toValue.wire = m.toValue.wire := by
  rw [toValue_settle, Value.wire_settle]

/-! ## Written and read back -/

namespace Regular

variable {m : TagMap}

/-- A map of regular values has a written form. -/
theorem encode?_eq (h : m.Regular) : m.encode? = some m.toValue.wire :=
  encode?_of_storable fun e he => (h.values e he).storable

/-- The written form is read as the settled map. -/
theorem decode_wire (h : m.Regular) : decode m.toValue.wire = .ok m.settle := by
  rw [← wire_settle]
  refine decode_wire_of_readsBack (by simpa [settle, size] using h.size_lt) fun e he => ?_
  obtain ⟨e', he', rfl⟩ := List.mem_map.1 he
  exact Reader.readsBack_settle (h.values e' he') 127 (by decide)

end Regular

/-! ## What is read -/

theorem length_insertEntry_le (tag : UInt64) (v : Value) (es : List (UInt64 × Value)) :
    (insertEntry tag v es).length ≤ es.length + 1 := by
  induction es with
  | nil => exact Nat.le_refl _
  | cons e es ih =>
    unfold insertEntry
    split
    · exact Nat.le_refl _
    · split
      · exact Nat.le_succ _
      · exact Nat.succ_le_succ ih

/-- A map that is made entry by entry holds entries that were put in, and no more. -/
theorem ofList_subset (es : List (UInt64 × Value)) :
    (∀ e ∈ (ofList es).entries, e ∈ es) ∧ (ofList es).size ≤ es.length := by
  have hfold : ∀ (todo : List (UInt64 × Value)) (m : TagMap),
      (∀ e ∈ (todo.foldl (fun m e => m.insert e.1 e.2) m).entries, e ∈ m.entries ∨ e ∈ todo) ∧
        (todo.foldl (fun m e => m.insert e.1 e.2) m).size ≤ m.size + todo.length := by
    intro todo
    induction todo with
    | nil => exact fun m => ⟨fun e he => .inl he, Nat.le_refl _⟩
    | cons e todo ih =>
      intro m
      obtain ⟨hmem, hsize⟩ := ih (m.insert e.1 e.2)
      refine ⟨fun e' he' => ?_, ?_⟩
      · rcases hmem e' he' with he' | he'
        · rcases mem_insertEntry he' with rfl | he'
          · exact .inr (List.mem_cons_self ..)
          · exact .inl he'
        · exact .inr (List.mem_cons_of_mem _ he')
      · have hone : (m.insert e.1 e.2).size ≤ m.size + 1 := length_insertEntry_le _ _ _
        rw [List.length_cons]
        exact Nat.le_trans hsize (by omega)
  obtain ⟨hmem, hsize⟩ := hfold es empty
  refine ⟨fun e he => ?_, Nat.le_trans hsize (Nat.le_of_eq (Nat.zero_add _))⟩
  rcases hmem e he with he | he
  · cases he
  · exact he

/-- What holds of the values of entries holds of the values of the tag map that they make, which
has no more. -/
theorem forall_ofEntries? {P : Value → Prop} {entries : List (Value × Value)} {m : TagMap}
    (h : ofEntries? entries = some m) (hvalues : ∀ e ∈ entries, P e.2) :
    (∀ e ∈ m.entries, P e.2) ∧ m.size ≤ entries.length := by
  have htagged : ∀ (entries : List (Value × Value)) (es : List (UInt64 × Value)),
      (∀ e ∈ entries, P e.2) →
      entries.mapM (fun e => (tagOf? e.1).map fun tag => (tag, e.2)) = some es →
      (∀ e ∈ es, P e.2) ∧ es.length = entries.length := by
    intro entries
    induction entries with
    | nil =>
      intro es _ hes
      cases hes
      exact ⟨fun _ he => absurd he List.not_mem_nil, rfl⟩
    | cons e entries ih =>
      intro es hvalues hes
      obtain ⟨he, hvalues⟩ := List.forall_mem_cons.1 hvalues
      simp only [List.mapM_cons, Option.bind_eq_bind, Option.bind_eq_some_iff] at hes
      obtain ⟨e', he', es', hes', heq⟩ := hes
      obtain ⟨tag, -, rfl⟩ := Option.map_eq_some_iff.1 he'
      cases heq
      obtain ⟨hall, hlen⟩ := ih es' hvalues hes'
      exact ⟨List.forall_mem_cons.2 ⟨he, hall⟩, congrArg (· + 1) hlen⟩
  obtain ⟨es, hes, rfl⟩ := Option.map_eq_some_iff.1 h
  obtain ⟨hall, hlen⟩ := htagged entries es hvalues hes
  obtain ⟨hmem, hsize⟩ := ofList_subset es
  exact ⟨fun e he => hall e (hmem e he), hlen ▸ hsize⟩

/-- What is read as a tag map is a map of regular values, in its settled form. -/
theorem regular_of_decode {b : Bytes} {m : TagMap} (hb : b.length < UInt64.size)
    (h : decode b = .ok m) : m.Regular ∧ m.settle = m := by
  unfold decode at h
  split at h
  · cases h
  · rename_i entries hentries
    obtain ⟨hlen, hvalues⟩ := (Value.settled_of_decode hb hentries).of_map
    split at h
    · rename_i m' hm'
      cases h
      obtain ⟨hall, hsize⟩ := forall_ofEntries? hm' fun e he => (hvalues e he).2
      refine ⟨⟨by omega, fun e he => (hall e he).regular⟩, ext ?_⟩
      have hid : m.entries.map (fun e => (e.1, e.2.settle)) = m.entries.map id :=
        List.map_congr_left fun e he => Prod.ext rfl (hall e he).settle_eq
      exact hid.trans (List.map_id _)
    · cases h
  · cases h

/-- A tag map whose values fit their heads and are nested at most 126 levels deep has a written
form, which is read as the map, with one pattern for everything that is not a number.  Whatever
byte string is read as a tag map, the map has a written form, which is read as the same map; and
what is read from it has that written form again. -/
theorem canonical_form :
    (∀ m : TagMap, m.Regular → ∃ c, m.encode? = some c ∧ decode c = .ok m.settle) ∧
      ∀ (b : Bytes) (m : TagMap), b.length < UInt64.size → decode b = .ok m →
        ∃ c, m.encode? = some c ∧ decode c = .ok m ∧
          ∀ m', decode c = .ok m' → m'.encode? = some c := by
  refine ⟨fun m hm => ⟨_, hm.encode?_eq, hm.decode_wire⟩, fun b m hb hread => ?_⟩
  obtain ⟨hm, hsettle⟩ := regular_of_decode hb hread
  have hback := hm.decode_wire
  rw [hsettle] at hback
  refine ⟨_, hm.encode?_eq, hback, fun m' hm' => ?_⟩
  cases hback.symm.trans hm'
  exact hm.encode?_eq

/-- A map in an array with a signalling pattern for no number, and an input of indefinite length
that gives tag 24 twice, in a wide head and then with a tagged value. -/
theorem canonical_form_of_key_given_twice :
    let nested (bits : UInt64) : TagMap := ofList [(24, .array [.map [(.null, .float bits)]])]
    let b : Bytes :=
      [0xbf, 0x19, 0x00, 0x18, 0x9f, 0x01, 0xff, 0x18, 0x18, 0xc1, 0x20, 0xff]
    let m : TagMap := ofList [(24, .int (-1))]
    (∃ c, (nested 0x7ff0000000000001).encode? = some c ∧
        decode c = .ok (nested 0x7ff8000000000000)) ∧
      decode b = .ok m ∧ m.encode? = some [0xa1, 0x18, 0x18, 0x20] ∧
        decode [0xa1, 0x18, 0x18, 0x20] = .ok m := by
  intro nested b m
  have hnested : (nested 0x7ff0000000000001).Regular := by
    refine ⟨by decide, fun e he => ?_⟩
    obtain rfl : e = (24, .array [.map [(.null, .float 0x7ff0000000000001)]]) :=
      List.mem_singleton.1 he
    refine .array (by decide) fun v hv => ?_
    rw [List.mem_singleton.1 hv]
    refine .map (by decide) (List.pairwise_singleton _ _) (fun e he => ?_) fun e he => ?_
    · rw [List.mem_singleton.1 he]
      exact .null
    · rw [List.mem_singleton.1 he]
      exact .float _
  have hread : decode b = .ok m := rfl
  obtain ⟨c, hc, hback, -⟩ := canonical_form.2 b m (by decide) hread
  have hwire : m.encode? = some [0xa1, 0x18, 0x18, 0x20] := rfl
  cases hc.symm.trans hwire
  exact ⟨canonical_form.1 _ hnested, hread, hwire, hback⟩

end Meshway.TagMap
