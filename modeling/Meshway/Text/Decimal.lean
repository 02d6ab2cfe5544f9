set_option autoImplicit false

/-!
# Decimal numbers

An unsigned number is written with ASCII digits and no leading zero.  It is
read from one or more ASCII digits, leading zeros allowed, after at most one
plus sign; a number beyond the limit of its type is refused.
-/

namespace Meshway.Decimal

/-- The number written by a non-empty run of digits, when it is at most `limit`. -/
def digits? (limit : Nat) (ds : List Char) : Option Nat :=
  if ds ≠ [] ∧ ds.all Char.isDigit ∧ Nat.ofDigitChars 10 ds 0 ≤ limit then
    some (Nat.ofDigitChars 10 ds 0)
  else none

/-- The unsigned number that a text denotes, when it is at most `limit`. -/
def unsigned? (limit : Nat) (s : String) : Option Nat :=
  match s.toList with
  | '+' :: ds => digits? limit ds
  | ds => digits? limit ds

/-- An unsigned sixteen-bit number. -/
def uint16? (s : String) : Option UInt16 := (unsigned? 0xffff s).map UInt16.ofNat

/-- An unsigned sixty-four-bit number. -/
def uint64? (s : String) : Option UInt64 := (unsigned? 0xffffffffffffffff s).map UInt64.ofNat

end Meshway.Decimal
