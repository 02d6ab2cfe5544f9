import Meshway.Text.Decimal
set_option autoImplicit false

/-!
# Phone numbers (SPEC §10.3 items 2 and 9)

A phone number stands for the node whose identity is the number formed by its
digits.  Phone numbers in the international form are digits, dots and dashes
after at most one plus sign.
-/

namespace Meshway.Phone

/-- The node that a phone number stands for: its ASCII digits read as one number (SPEC §10.3
item 9). -/
def gid? (phone : String) : Option UInt64 :=
  (Decimal.digits? 0xffffffffffffffff (phone.toList.filter Char.isDigit)).map UInt64.ofNat

/-- Whether characters are digits, dots and dashes, with a digit among them. -/
def isNumber (cs : List Char) : Bool :=
  cs.any Char.isDigit && cs.all fun c => c.isDigit || c == '.' || c == '-'

/-- Whether a text is a phone number in the international form (SPEC §10.3 item 2). -/
def isGlobal (s : String) : Bool :=
  match s.toList with
  | '+' :: cs => isNumber cs
  | cs => isNumber cs

end Meshway.Phone
