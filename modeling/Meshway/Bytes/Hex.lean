import Meshway.Bytes
import Meshway.Text.Utf8
import Meshway.Text.Quoted
set_option autoImplicit false

/-!
# Hexadecimal text (SPEC §10.3 item 8)

Octets are written as two lower-case digits each; digits of either case are
read.  A text of odd length is refused before its characters are looked at.
-/

namespace Meshway.Hex

/-- The digit of a number below sixteen. -/
def digit (n : Nat) : Char := Nat.digitChar n

/-- Two digits for each octet. -/
def encode (bs : Bytes) : String :=
  String.ofList (bs.flatMap fun b => [digit (b.toNat / 16), digit (b.toNat % 16)])

/-- Why a text is no hexadecimal text. -/
inductive Fault where
  /-- the number of octets of the text is odd -/
  | oddLength
  /-- an octet that is no digit, and where it stands -/
  | invalid (octet : UInt8) (position : Nat)
  deriving DecidableEq, Repr, Inhabited

/-- The wording of a fault.  The octet is shown as the character with its number. -/
def Fault.message : Fault → String
  | .oddLength => "Odd number of digits"
  | .invalid octet position =>
    s!"Invalid character {Text.quoteChar (Char.ofNat octet.toNat)} at position {position}"

/-- The value of a digit. -/
def value? (b : UInt8) : Option Nat :=
  let n := b.toNat
  if 0x30 ≤ n ∧ n ≤ 0x39 then some (n - 0x30)
  else if 0x41 ≤ n ∧ n ≤ 0x46 then some (n - 0x41 + 10)
  else if 0x61 ≤ n ∧ n ≤ 0x66 then some (n - 0x61 + 10)
  else none

/-- Reads pairs of digits, the first of which stands at `position`. -/
def pairs (position : Nat) : Bytes → Except Fault Bytes
  | [] => .ok []
  | [_] => .error .oddLength
  | hi :: lo :: rest =>
    match value? hi, value? lo with
    | none, _ => .error (.invalid hi position)
    | some _, none => .error (.invalid lo (position + 1))
    | some h, some l =>
      match pairs (position + 2) rest with
      | .error e => .error e
      | .ok bs => .ok (UInt8.ofNat (h * 16 + l) :: bs)

/-- Reads a hexadecimal text. -/
def decode (s : String) : Except Fault Bytes :=
  let octets := Utf8.encode s
  if octets.length % 2 = 1 then .error .oddLength else pairs 0 octets

end Meshway.Hex
