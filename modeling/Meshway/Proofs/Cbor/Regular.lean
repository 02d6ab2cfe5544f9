import Meshway.Proofs.Cbor.Floating
import Meshway.Proofs.Cbor.Order
import Meshway.Proofs.Cbor.RoundTrip
set_option autoImplicit false

/-!
# Regular values are read back (SPEC §4.1)

A value is regular within some number of levels if it is nested no deeper and
every part of it fits a head; the keys of its maps ascend.  Its settled form has
one pattern for everything that is not a number, and the same written form.
Main statement: the written form of a regular value is read as its settled form,
whatever follows, where reading may enter more levels than the value has.
-/

namespace Meshway.Cbor

namespace Value

/-- What can be written and read within so many levels of arrays and maps: integers, sizes and
lengths fit a head, and the keys of maps ascend. -/
inductive Regular : Nat → Value → Prop where
  | null {n : Nat} : Regular n .null
  | bool {n : Nat} (b : Bool) : Regular n (.bool b)
  | int {n : Nat} {i : Int} (hfits : intFits i = true) : Regular n (.int i)
  | float {n : Nat} (bits : UInt64) : Regular n (.float bits)
  | bytes {n : Nat} {bs : Bytes} (hlen : bs.length < UInt64.size) : Regular n (.bytes bs)
  | text {n : Nat} {s : String} (hlen : Utf8.size s < UInt64.size) : Regular n (.text s)
  | array {n : Nat} {items : List Value} (hlen : items.length < UInt64.size)
      (hitems : ∀ v ∈ items, Regular n v) : Regular (n + 1) (.array items)
  | map {n : Nat} {es : List (Value × Value)} (hlen : es.length < UInt64.size)
      (hasc : Ascending es) (hkeys : ∀ e ∈ es, Regular n e.1) (hvalues : ∀ e ∈ es, Regular n e.2) :
      Regular (n + 1) (.map es)

/-- What fits into some number of levels fits into more. -/
theorem Regular.succ {n : Nat} {v : Value} (h : v.Regular n) : v.Regular (n + 1) := by
  induction h with
  | null => exact .null
  | bool b => exact .bool b
  | int hfits => exact .int hfits
  | float bits => exact .float bits
  | bytes hlen => exact .bytes hlen
  | text hlen => exact .text hlen
  | array hlen _ ih => exact .array hlen ih
  | map hlen hasc _ _ ihkeys ihvalues => exact .map hlen hasc ihkeys ihvalues

/-! ## Storable values -/

theorem storableItems_of_forall {items : List Value} (h : ∀ v ∈ items, v.storable = true) :
    storableItems items = true := by
  induction items with
  | nil => rfl
  | cons v items ih =>
    obtain ⟨hv, hitems⟩ := List.forall_mem_cons.1 h
    simp [storableItems, hv, ih hitems]

theorem storableEntries_of_forall {es : List (Value × Value)}
    (hkeys : ∀ e ∈ es, e.1.storable = true) (hvalues : ∀ e ∈ es, e.2.storable = true) :
    storableEntries es = true := by
  induction es with
  | nil => rfl
  | cons e es ih =>
    obtain ⟨hk, hkeys⟩ := List.forall_mem_cons.1 hkeys
    obtain ⟨hv, hvalues⟩ := List.forall_mem_cons.1 hvalues
    simp [storableEntries, hk, hv, ih hkeys hvalues]

/-- A regular value has a written form. -/
theorem Regular.storable {n : Nat} {v : Value} (h : v.Regular n) : v.storable = true := by
  induction h with
  | null => rfl
  | bool b => rfl
  | int hfits => exact hfits
  | float bits => rfl
  | bytes hlen => rfl
  | text hlen => rfl
  | array _ _ ih => exact storableItems_of_forall ih
  | map _ _ _ _ ihkeys ihvalues => exact storableEntries_of_forall ihkeys ihvalues

/-! ## Settled values -/

mutual
/-- The value with one pattern for everything that is not a number. -/
def settle : Value → Value
  | .float bits => .float (Floating.settle bits)
  | .array items => .array (settleItems items)
  | .map entries => .map (settleEntries entries)
  | v => v
/-- Items settled one by one. -/
def settleItems : List Value → List Value
  | [] => []
  | v :: vs => settle v :: settleItems vs
/-- Keys and values settled one by one. -/
def settleEntries : List (Value × Value) → List (Value × Value)
  | [] => []
  | (k, v) :: es => (settle k, settle v) :: settleEntries es
end

theorem settleItems_eq_map (items : List Value) : settleItems items = items.map settle := by
  induction items with
  | nil => rfl
  | cons v items ih => rw [settleItems, ih, List.map_cons]

theorem settleEntries_eq_map (es : List (Value × Value)) :
    settleEntries es = es.map fun e => (settle e.1, settle e.2) := by
  induction es with
  | nil => rfl
  | cons e es ih => rw [settleEntries, ih, List.map_cons]

theorem wireFloat_settle (bits : UInt64) : wireFloat (Floating.settle bits) = wireFloat bits := by
  cases h : Floating.isNaN bits with
  | true =>
    have hnan : Floating.isNaN Floating.nan = true := by decide
    rw [Floating.settle_of_isNaN h, wireFloat, wireFloat, if_pos hnan, if_pos h]
  | false => rw [Floating.settle_of_not_isNaN h]

mutual
/-- A value and its settled form are written the same. -/
theorem wire_settle : ∀ v : Value, v.settle.wire = v.wire
  | .null => rfl
  | .bool _ => rfl
  | .int _ => rfl
  | .float bits => by rw [settle, wire, wire, wireFloat_settle]
  | .bytes _ => rfl
  | .text _ => rfl
  | .array items => by
    have hlen : (settleItems items).length = items.length := by
      rw [settleItems_eq_map, List.length_map]
    rw [settle, wire, wire, hlen, wireItems_settle items]
  | .map es => by
    have hlen : (settleEntries es).length = es.length := by
      rw [settleEntries_eq_map, List.length_map]
    rw [settle, wire, wire, hlen, wireEntries_settle es]
theorem wireItems_settle : ∀ items : List Value, wireItems (settleItems items) = wireItems items
  | [] => rfl
  | v :: vs => by rw [settleItems, wireItems, wireItems, wire_settle v, wireItems_settle vs]
theorem wireEntries_settle :
    ∀ es : List (Value × Value), wireEntries (settleEntries es) = wireEntries es
  | [] => rfl
  | (k, v) :: es => by
    rw [settleEntries, wireEntries, wireEntries, wire_settle k, wire_settle v,
      wireEntries_settle es]
end

/-- A key and its settled form have the same place. -/
theorem rank_settle (v : Value) : rank v.settle = rank v := by
  have hwire := wire_settle v
  cases v with
  | float bits =>
    rw [settle] at hwire ⊢
    rw [rank, rank, hwire]
  | array items =>
    rw [settle] at hwire ⊢
    rw [rank, rank, hwire, settleItems_eq_map, List.length_map]
  | map es =>
    rw [settle] at hwire ⊢
    rw [rank, rank, hwire, settleEntries_eq_map, List.length_map]
  | _ => rfl

theorem ascending_settleEntries {es : List (Value × Value)} (h : Ascending es) :
    Ascending (settleEntries es) := by
  rw [settleEntries_eq_map]
  refine List.pairwise_map.2 (h.imp fun hlt => ?_)
  simpa only [order, rank_settle] using hlt

end Value

/-! ## Reading back -/

namespace Reader

theorem readsBack_null (depth : Nat) : ReadsBack (depth + 1) .null := fun _ => rfl

theorem readsBack_bool (depth : Nat) (b : Bool) : ReadsBack (depth + 1) (.bool b) := by
  intro rest
  cases b <;> rfl

/-- The first octets that say that a number of some format follows, and its width. -/
def floatHeads : List (UInt8 × Nat × Floating.Format) :=
  [(0xf9, 2, Floating.half), (0xfa, 4, Floating.single), (0xfb, 8, Floating.double)]

/-- A pattern is read in the format that the octet before it says. -/
theorem item_float (depth : Nat) {b : UInt8} {width n : Nat} {F : Floating.Format}
    (hhead : (b, width, F) ∈ floatHeads) (hn : n < Nat.pow 256 width) (rest : Bytes) :
    item (depth + 1) (b :: Bytes.ofNat width n ++ rest) =
      .ok (.float (Floating.widen F n), rest) := by
  have hread := number_append width n rest hn
  rw [List.cons_append, item]
  simp only [floatHeads, List.mem_cons, Prod.mk.injEq, List.not_mem_nil, or_false] at hhead
  obtain ⟨rfl, rfl, rfl⟩ | ⟨rfl, rfl, rfl⟩ | ⟨rfl, rfl, rfl⟩ := hhead
  · simp [simple, hread]
  · simp [simple, hread]
  · simp [simple, hread]

/-- A settled floating-point number is read back, whichever width it is written in. -/
theorem readsBack_float (depth : Nat) (bits : UInt64) :
    ReadsBack (depth + 1) (.float (Floating.settle bits)) := by
  intro rest
  rw [Value.wire, Value.wireFloat_settle, Value.wireFloat]
  cases hnan : Floating.isNaN bits with
  | true =>
    have hwire : ([0xf9, 0x7e, 0x00] : Bytes) = 0xf9 :: Bytes.ofNat 2 0x7e00 := by decide
    have hwiden : Floating.widen Floating.half 0x7e00 = Floating.nan :=
      Floating.widen_of_isNaN (by decide)
    rw [Floating.settle_of_isNaN hnan, if_pos rfl, hwire,
      item_float depth (.head _) (by decide) rest, hwiden]
  | false =>
    rw [Floating.settle_of_not_isNaN hnan, if_neg Bool.false_ne_true]
    cases hhalf : Floating.narrow? Floating.half bits with
    | some b =>
      obtain ⟨hwiden, hlt⟩ := Floating.widen_narrow? (by decide) hhalf
      simp only
      rw [item_float depth (.head _) hlt rest, hwiden]
    | none =>
      cases hsingle : Floating.narrow? Floating.single bits with
      | some b =>
        obtain ⟨hwiden, hlt⟩ := Floating.widen_narrow? (by decide) hsingle
        simp only
        rw [item_float depth (.tail _ (.head _)) hlt rest, hwiden]
      | none =>
        simp only
        rw [item_float depth (.tail _ (.tail _ (.head _))) bits.toNat_lt rest,
          Floating.widen_double hnan]

/-- Items are read back one after the other when each is. -/
theorem times_wireItems {depth : Nat} {items : List Value}
    (h : ∀ v ∈ items, ReadsBack depth v) (rest : Bytes) :
    times (item depth) items.length (Value.wireItems items ++ rest) = .ok (items, rest) := by
  induction items with
  | nil => rfl
  | cons v items ih =>
    obtain ⟨hv, hitems⟩ := List.forall_mem_cons.1 h
    have hread : item depth (Value.wireItems (v :: items) ++ rest) =
        .ok (v, Value.wireItems items ++ rest) := by
      rw [Value.wireItems, List.append_assoc, hv]
    rw [List.length_cons, times, hread]
    simp only [ih hitems]

/-- An array is read back when its items are, one level further in. -/
theorem readsBack_array {depth : Nat} {items : List Value} (hlen : items.length < UInt64.size)
    (hdepth : depth ≠ 0) (hitems : ∀ v ∈ items, ReadsBack depth v) :
    ReadsBack (depth + 1) (.array items) := by
  intro rest
  obtain ⟨b, tail, hhead, hmajor, hextent⟩ := head_eq_cons 4 _ (by omega) hlen
  rw [Value.wire, hhead, List.append_assoc, List.cons_append, item]
  simp only [hmajor, hextent (Value.wireItems items ++ rest), hdepth, if_false, holder, series,
    Except.map]
  rw [if_neg (by decide)]
  simp only [times_wireItems hitems rest]

/-- The settled form of a regular value is read back where reading may enter more levels than the
value has. -/
theorem readsBack_settle {n : Nat} {v : Value} (h : v.Regular n) :
    ∀ depth, n < depth → ReadsBack depth v.settle := by
  intro depth hdepth
  -- a value that is read at all takes one level
  obtain ⟨d, rfl⟩ : ∃ d, depth = d + 1 := ⟨depth - 1, by omega⟩
  induction h generalizing d with
  | null => exact readsBack_null d
  | bool b => exact readsBack_bool d b
  | int hfits => exact readsBack_int hfits
  | float bits => exact readsBack_float d bits
  | bytes hlen => exact readsBack_bytes hlen
  | text hlen => exact readsBack_text hlen
  | @array n items hlen _ ih =>
    obtain ⟨d', rfl⟩ : ∃ d', d = d' + 1 := ⟨d - 1, by omega⟩
    rw [Value.settle, Value.settleItems_eq_map]
    refine readsBack_array (by simpa using hlen) (Nat.succ_ne_zero d') fun v hv => ?_
    obtain ⟨w, hw, rfl⟩ := List.mem_map.1 hv
    exact ih w hw d' (by omega)
  | @map n es hlen hasc _ _ ihkeys ihvalues =>
    obtain ⟨d', rfl⟩ : ∃ d', d = d' + 1 := ⟨d - 1, by omega⟩
    have hasc' := Value.ascending_settleEntries hasc
    rw [Value.settle]
    rw [Value.settleEntries_eq_map] at hasc' ⊢
    refine readsBack_map (by simpa using hlen) (Nat.succ_ne_zero d') (fun e he => ?_)
      (hasc'.imp fun hlt => Value.order_eq_gt_iff.2 hlt)
    obtain ⟨e', he', rfl⟩ := List.mem_map.1 he
    exact ⟨ihkeys e' he' d' (by omega), ihvalues e' he' d' (by omega)⟩

end Reader

end Meshway.Cbor
