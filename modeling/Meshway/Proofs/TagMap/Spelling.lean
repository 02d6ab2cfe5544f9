import Mathlib.Data.List.Nodup
import Meshway.Proofs.Cbor.Delimited
import Meshway.Proofs.TagMap.Canonical
set_option autoImplicit false

/-!
# Spellings of tag maps (SPEC §4.1)

A tag map need not come in its canonical form.  Its fields may stand in any
order, the heads of its keys may be wider than the tags need, its values may be
written in any form, and the map may state its size or end with a mark.  A
spelling makes these choices.  Main statements: a spelling is read as the map
that holds its entries, put in one after the other, and this map has under a tag
that is given once the value that is given, wherever the field stands.
-/

namespace Meshway.TagMap

open Meshway.Cbor

/-! ## Fields and spellings -/

/-- A tag with a form that its key may have, and octets that hold a value inside a map. -/
structure Field where
  tag : UInt64
  form : HeadForm
  fits : tag.toNat < form.limit
  value : Value
  content : Bytes
  holds : Reader.item (Reader.maxDepth - 1) content = .ok (value, [])

namespace Field

/-- The octets of a field. -/
def octets (f : Field) : Bytes := f.form.write 0 f.tag.toNat ++ f.content

/-- What a field says. -/
def entry (f : Field) : UInt64 × Value := (f.tag, f.value)

/-- A field with the written form of a regular value. -/
def ofValue (tag : UInt64) (form : HeadForm) (v : Value) (fits : tag.toNat < form.limit)
    (h : v.Regular 126) : Field where
  tag := tag
  form := form
  fits := fits
  value := v.settle
  content := v.wire
  holds := by
    have hread := Reader.readsBack_settle h (Reader.maxDepth - 1) (by decide) []
    rwa [List.append_nil, Value.wire_settle] at hread

end Field

/-- The fields of a map in the order in which they are written.  The head of the map has a form that
may state their number, or says that they go on to the end mark. -/
structure Spelling where
  fields : List Field
  form : Option HeadForm
  fits : ∀ f ∈ form, fields.length < f.limit

namespace Spelling

/-- The octets of a spelling. -/
def octets (s : Spelling) : Bytes :=
  match s.form with
  | some form => form.write 5 s.fields.length ++ s.fields.flatMap Field.octets
  | none => 0xbf :: (s.fields.flatMap Field.octets ++ [0xff])

/-- What the fields of a spelling say. -/
def entries (s : Spelling) : List (UInt64 × Value) := s.fields.map Field.entry

end Spelling

/-! ## Reading a spelling -/

/-- An entry of a map of values for one of a tag map. -/
def keyed (e : UInt64 × Value) : Value × Value := (.int e.1.toNat, e.2)

/-- Putting in an entry of a tag map is putting in the entry of its value. -/
theorem insertEntry_keyed (tag : UInt64) (v : Value) (es : List (UInt64 × Value)) :
    Value.insertEntry (.int tag.toNat) v (es.map keyed) = (insertEntry tag v es).map keyed := by
  induction es with
  | nil => rfl
  | cons e es ih =>
    obtain ⟨t, w⟩ := e
    rw [List.map_cons, keyed, Value.insertEntry, insertEntry, order_keys]
    rcases Nat.lt_trichotomy tag.toNat t.toNat with hlt | heq | hgt
    · rw [Nat.compare_eq_lt.2 hlt, if_pos (UInt64.lt_iff_toNat_lt.2 hlt)]
      rfl
    · obtain rfl := UInt64.toNat_inj.1 heq
      rw [Nat.compare_eq_eq.2 rfl, if_neg (UInt64.lt_irrefl tag), if_pos rfl]
      rfl
    · have hlt : ¬ tag < t := fun h => Nat.lt_asymm hgt (UInt64.lt_iff_toNat_lt.1 h)
      have hne : tag ≠ t := fun h => Nat.lt_irrefl _ (h ▸ hgt)
      rw [Nat.compare_eq_gt.2 hgt, if_neg hlt, if_neg hne]
      simp only [ih, List.map_cons, keyed]

/-- The entries of a tag map put in one after the other make the value that stands for the map. -/
theorem ofEntries_keyed (es : List (UInt64 × Value)) :
    Value.ofEntries (es.map keyed) = (ofList es).toValue := by
  have hfold : ∀ (todo : List (UInt64 × Value)) (m : TagMap),
      (todo.map keyed).foldl (fun es e => Value.insertEntry e.1 e.2 es) (m.entries.map keyed) =
        (todo.foldl (fun m e => m.insert e.1 e.2) m).entries.map keyed := by
    intro todo
    induction todo with
    | nil => exact fun m => rfl
    | cons e todo ih =>
      intro m
      rw [List.map_cons, List.foldl_cons, List.foldl_cons, ← ih]
      exact congrArg (List.foldl (fun es e => Value.insertEntry e.1 e.2 es) · (todo.map keyed))
        (insertEntry_keyed e.1 e.2 m.entries)
  exact congrArg Value.map (hfold es empty)

/-- The octets of a field are read as its entry, whatever follows. -/
theorem Field.takes (f : Field) :
    Reader.Takes (Reader.entry (Reader.item (Reader.maxDepth - 1))) f.octets (keyed f.entry) := by
  have hdelimited := Reader.delimited_item (Reader.maxDepth - 1)
  have hkey : Reader.item (Reader.maxDepth - 1) (f.form.write 0 f.tag.toNat) =
      .ok (.int f.tag.toNat, []) := by
    have hread : Reader.item 127 (f.form.write 0 f.tag.toNat ++ []) = .ok (.int f.tag.toNat, []) :=
      Reader.item_uint f.fits []
    rwa [List.append_nil] at hread
  exact (hdelimited.takes_of_whole hkey).entry (hdelimited.takes_of_whole f.holds)

/-- No field is taken for the end mark. -/
theorem Field.octets_eq_cons (f : Field) : ∃ b tail, f.octets = b :: tail ∧ b ≠ 0xff := by
  obtain ⟨b, tail, hhead, hmajor, -⟩ := HeadForm.write_eq_cons 0 (by decide) f.fits
  refine ⟨b, tail ++ f.content, by rw [octets, hhead, List.cons_append], ?_⟩
  rintro rfl
  exact absurd hmajor (by decide)

namespace Spelling

/-- The fields of a spelling are read one after the other. -/
theorem item_octets (s : Spelling) :
    Reader.item Reader.maxDepth s.octets = .ok (Value.ofEntries (s.entries.map keyed), []) := by
  have hfields : ∀ f ∈ s.fields, Reader.Takes (Reader.entry (Reader.item (Reader.maxDepth - 1)))
      f.octets (keyed f.entry) := fun f _ => f.takes
  have hentries : s.entries.map keyed = s.fields.map fun f => keyed f.entry := List.map_map
  rw [octets, hentries]
  cases hform : s.form with
  | some form =>
    obtain ⟨b, tail, hhead, hmajor, hextent⟩ :=
      HeadForm.write_eq_cons 5 (by decide) (s.fits form hform)
    have hread := (Reader.takes_times hfields).reads []
    rw [List.append_nil] at hread
    simp only [hhead, List.cons_append]
    exact Reader.item_map hmajor (hextent _) (by decide) hread
  | none =>
    have hread := (Reader.takes_untilBreak_flatMap hfields fun f _ => f.octets_eq_cons).reads []
    rw [List.append_nil] at hread
    have hextent (bs : Bytes) : Reader.extent 31 bs = .ok (.indefinite, bs) := rfl
    exact Reader.item_map rfl (hextent _) (by decide) hread

/-- A spelling is read as the map that holds its entries, put in one after the other. -/
theorem decode_octets (s : Spelling) : decode s.octets = .ok (ofList s.entries) := by
  rw [decode, Value.decode, item_octets, ofEntries_keyed]
  simp [toValue, ofEntries?_toValue]

/-- The canonical form of a regular map spells the map. -/
theorem exists_of_regular {m : TagMap} (h : m.Regular) :
    ∃ s : Spelling, s.octets = m.toValue.wire ∧ s.entries = m.settle.entries := by
  have hfields : ∀ es : List (UInt64 × Value), (∀ e ∈ es, e.2.Regular 126) →
      ∃ fields : List Field, fields.map Field.entry = es.map (fun e => (e.1, e.2.settle)) ∧
        fields.flatMap Field.octets = Value.wireEntries (es.map keyed) := by
    intro es
    induction es with
    | nil => exact fun _ => ⟨[], rfl, rfl⟩
    | cons e es ih =>
      intro hes
      obtain ⟨he, hes⟩ := List.forall_mem_cons.1 hes
      obtain ⟨fields, hentries, hoctets⟩ := ih hes
      obtain ⟨form, hfits, hhead⟩ := exists_head_eq_write 0 e.1.toNat_lt
      refine ⟨.ofValue e.1 form e.2 hfits he :: fields, by rw [List.map_cons, hentries]; rfl, ?_⟩
      rw [List.flatMap_cons, hoctets, List.map_cons, keyed, Value.wireEntries,
        Value.wire, Value.wireInt, if_pos (Int.natCast_nonneg _), Int.toNat_natCast, hhead,
        Field.octets, Field.ofValue, List.append_assoc]
  obtain ⟨fields, hentries, hoctets⟩ := hfields m.entries h.values
  have hlen : fields.length = m.entries.length := by
    simpa using congrArg List.length hentries
  obtain ⟨form, hfits, hhead⟩ := exists_head_eq_write 5 h.size_lt
  refine ⟨⟨fields, some form, fun f hf => ?_⟩, ?_, hentries⟩
  · cases hf
    rw [hlen]
    exact hfits
  · simp only [octets, hlen, hoctets, toValue, Value.wire, List.length_map]
    exact congrArg (· ++ _) hhead.symm

end Spelling

/-! ## Tags that are given once -/

/-- What a map that is made entry by entry has under a tag is what was put in last. -/
theorem get?_ofList (es : List (UInt64 × Value)) (tag : UInt64) :
    (ofList es).get? tag = es.reverse.lookup tag := by
  rw [ofList, List.foldl_eq_foldr_reverse]
  induction es.reverse with
  | nil => rfl
  | cons e es ih => rw [List.foldr_cons, get?_insert, lookup_cons_ite, ih]

/-- Whether a tag has no two values among entries. -/
def GivenOnce (tag : UInt64) (es : List (UInt64 × Value)) : Prop :=
  ∀ v w, (tag, v) ∈ es → (tag, w) ∈ es → v = w

theorem givenOnce_of_nodup {es : List (UInt64 × Value)} (h : (es.map Prod.fst).Nodup)
    (tag : UInt64) : GivenOnce tag es := by
  intro v w hv hw
  exact congrArg Prod.snd (List.inj_on_of_nodup_map h hv hw rfl)

/-- A map that is made entry by entry has under a tag that is given once the value that is given,
wherever the entry stands. -/
theorem get?_ofList_eq_some_iff {es : List (UInt64 × Value)} {tag : UInt64} {v : Value}
    (honce : GivenOnce tag es) : (ofList es).get? tag = some v ↔ (tag, v) ∈ es := by
  have hmem {w : Value} (h : (ofList es).get? tag = some w) : (tag, w) ∈ es := by
    rw [get?_ofList, List.lookup_eq_some_iff] at h
    obtain ⟨before, after, heq, -⟩ := h
    rw [← List.mem_reverse, heq]
    simp
  refine ⟨hmem, fun hv => ?_⟩
  cases hget : (ofList es).get? tag with
  | some w => rw [honce w v (hmem hget) hv]
  | none =>
    rw [get?_ofList, List.lookup_eq_none_iff] at hget
    have hne := hget _ (List.mem_reverse.2 hv)
    simp at hne

/-- Two lists that give a tag the same value, once, make maps that agree on it. -/
theorem get?_ofList_congr {es es' : List (UInt64 × Value)} {tag : UInt64}
    (honce : GivenOnce tag es) (h : ∀ v, (tag, v) ∈ es' ↔ (tag, v) ∈ es) :
    (ofList es').get? tag = (ofList es).get? tag := by
  have honce' : GivenOnce tag es' := fun v w hv hw => honce v w ((h v).1 hv) ((h w).1 hw)
  ext v
  rw [get?_ofList_eq_some_iff honce', get?_ofList_eq_some_iff honce, h]

end Meshway.TagMap
