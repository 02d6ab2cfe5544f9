import Meshway.Cbor.Head
import Meshway.Cbor.Floating
import Meshway.Text.Utf8
set_option autoImplicit false

/-!
# CBOR values and their written form (SPEC §4.1)

A value has one written form: shortest heads, definite lengths, map entries in
the order of the map.  Integers outside `-2^64 .. 2^64 - 1` have none.

Map keys are ordered by kind, then by size (the magnitude of an integer, the
number of octets, elements or entries), then octet by octet.  Entries are kept
in ascending order of their keys; a key that is already there keeps its place
and takes the new value.
-/

namespace Meshway.Cbor

/-- A data item.  Floating-point numbers are sixty-four-bit patterns. -/
inductive Value where
  | null
  | bool (b : Bool)
  | int (n : Int)
  | float (bits : UInt64)
  | bytes (bs : Bytes)
  | text (s : String)
  | array (items : List Value)
  | map (entries : List (Value × Value))
  deriving Repr, Inhabited, BEq

namespace Value

/-! ## The written form -/

/-- Whether an integer fits a head. -/
def intFits (n : Int) : Bool := -UInt64.size ≤ n && n < UInt64.size

/-- The argument of a head fits a head, and so does its negative counterpart. -/
theorem intFits_ofNat {n : Nat} (h : n < UInt64.size) : intFits (n : Int) = true := by
  simp only [intFits, Bool.and_eq_true, decide_eq_true_eq]
  omega

theorem intFits_negSucc {n : Nat} (h : n < UInt64.size) : intFits (-1 - (n : Int)) = true := by
  simp only [intFits, Bool.and_eq_true, decide_eq_true_eq]
  omega

mutual
/-- Whether every integer inside fits a head. -/
def storable : Value → Bool
  | .int n => intFits n
  | .array items => storableItems items
  | .map entries => storableEntries entries
  | _ => true
/-- Whether every item is storable. -/
def storableItems : List Value → Bool
  | [] => true
  | v :: vs => storable v && storableItems vs
/-- Whether every key and value is storable. -/
def storableEntries : List (Value × Value) → Bool
  | [] => true
  | (k, v) :: es => storable k && storable v && storableEntries es
end

/-- The argument of a head is a storable integer. -/
theorem storable_uint (n : UInt64) : storable (.int n.toNat) = true := intFits_ofNat n.toNat_lt

/-- The written form of an integer. -/
def wireInt (n : Int) : Bytes :=
  if 0 ≤ n then head 0 n.toNat else head 1 (-1 - n).toNat

/-- An unsigned integer is no more than a head. -/
theorem length_wireInt (n : Nat) : (wireInt (n : Int)).length = headLength n := by
  simp [wireInt, length_head]

/-- The written form of a floating-point number: the narrowest exact one. -/
def wireFloat (bits : UInt64) : Bytes :=
  if Floating.isNaN bits then [0xf9, 0x7e, 0x00]
  else match Floating.narrow? Floating.half bits with
    | some b => 0xf9 :: Bytes.ofNat 2 b
    | none => match Floating.narrow? Floating.single bits with
      | some b => 0xfa :: Bytes.ofNat 4 b
      | none => 0xfb :: Bytes.ofNat 8 bits.toNat

mutual
/-- The written form of a storable value. -/
def wire : Value → Bytes
  | .null => [0xf6]
  | .bool false => [0xf4]
  | .bool true => [0xf5]
  | .int n => wireInt n
  | .float bits => wireFloat bits
  | .bytes bs => head 2 bs.length ++ bs
  | .text s => head 3 (Utf8.size s) ++ Utf8.encode s
  | .array items => head 4 items.length ++ wireItems items
  | .map entries => head 5 entries.length ++ wireEntries entries
/-- Items one after the other. -/
def wireItems : List Value → Bytes
  | [] => []
  | v :: vs => wire v ++ wireItems vs
/-- Keys and values in turn. -/
def wireEntries : List (Value × Value) → Bytes
  | [] => []
  | (k, v) :: es => wire k ++ (wire v ++ wireEntries es)
end

/-- The wording for a number that no head carries. -/
def unstorableMessage : String := "The number can't be stored in CBOR"

/-- The written form of a value, when there is one. -/
def encode? (v : Value) : Option Bytes := if v.storable then some v.wire else none

/-! ## The order of keys -/

/-- What keys are compared by: kind, size, octets. -/
def rank : Value → Nat × Nat × Bytes
  | .int n => (if 0 ≤ n then 0 else 1, n.natAbs, [])
  | .bytes bs => (2, bs.length, bs)
  | .text s => (3, Utf8.size s, Utf8.encode s)
  | .array items => (4, items.length, wire (.array items))
  | .map entries => (5, entries.length, wire (.map entries))
  | .null => (7, 0, wire .null)
  | .bool b => (7, 0, wire (.bool b))
  | .float bits => (7, 0, wire (.float bits))

/-- Octet strings compared octet by octet, a proper beginning first. -/
def compareBytes : Bytes → Bytes → Ordering
  | [], [] => .eq
  | [], _ :: _ => .lt
  | _ :: _, [] => .gt
  | a :: as, b :: bs => (compare a b).then (compareBytes as bs)

/-- The order of keys. -/
def order (a b : Value) : Ordering :=
  let (ka, sa, ba) := a.rank
  let (kb, sb, bb) := b.rank
  ((compare ka kb).then (compare sa sb)).then (compareBytes ba bb)

/-- Puts an entry into entries that stand in ascending order of their keys. -/
def insertEntry (k v : Value) : List (Value × Value) → List (Value × Value)
  | [] => [(k, v)]
  | (k', v') :: es =>
    match order k k' with
    | .lt => (k, v) :: (k', v') :: es
    | .eq => (k', v) :: es
    | .gt => (k', v') :: insertEntry k v es

/-- The map that holds the given entries, put in one after the other. -/
def ofEntries (entries : List (Value × Value)) : Value :=
  .map (entries.foldl (fun es e => insertEntry e.1 e.2 es) [])

end Value

end Meshway.Cbor
