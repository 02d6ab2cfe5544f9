set_option autoImplicit false

/-!
# Blank characters

The characters with the White_Space property, and the removal of them from the
two ends of a text.
-/

namespace Meshway.Text

/-- Whether a character is white space. -/
def isBlank (c : Char) : Bool :=
  let n := c.toNat
  (9 ≤ n && n ≤ 13) || n == 0x20 || n == 0x85 || n == 0xa0 || n == 0x1680 ||
    (0x2000 ≤ n && n ≤ 0x200a) || n == 0x2028 || n == 0x2029 || n == 0x202f ||
    n == 0x205f || n == 0x3000

/-- The characters without the blank ones at the start. -/
def trimStart (cs : List Char) : List Char := cs.dropWhile isBlank

/-- A text without the blank characters at its ends. -/
def trim (s : String) : String :=
  String.ofList (trimStart (trimStart s.toList).reverse).reverse

end Meshway.Text
