set_option autoImplicit false

/-!
# Floating-point numbers in three widths (SPEC §4.1)

A number is held as its sixty-four-bit pattern and written in the narrowest of
the half, single and double formats that holds it exactly.  A finite magnitude
is `m · 2 ^ q`; whether a format holds it is a question about `m` and `q` alone.
All patterns that are not a number count as one.
-/

namespace Meshway.Cbor.Floating

/-- The widths of the exponent field and of the fraction field. -/
structure Format where
  exponentBits : Nat
  fractionBits : Nat
  deriving DecidableEq, Repr, Inhabited

/-- Sixteen bits. -/
def half : Format := ⟨5, 10⟩

/-- Thirty-two bits. -/
def single : Format := ⟨8, 23⟩

/-- Sixty-four bits. -/
def double : Format := ⟨11, 52⟩

namespace Format

/-- The power of two with a given exponent. -/
def weight (k : Nat) : Nat := Nat.pow 2 k

/-- The power of two that the last place of the smallest numbers stands for. -/
def minScale (F : Format) : Int := 2 - weight (F.exponentBits - 1) - F.fractionBits

/-- One past the largest exponent and fraction field of a finite number: the field of infinity. -/
def infinity (F : Format) : Nat := (weight F.exponentBits - 1) * weight F.fractionBits

/-- The weight of the sign bit. -/
def signWeight (F : Format) : Nat := weight (F.exponentBits + F.fractionBits)

/-- The magnitude `m · 2 ^ q` of a finite exponent and fraction field. -/
def magnitude (F : Format) (field : Nat) : Nat × Int :=
  let e := field / weight F.fractionBits
  let f := field % weight F.fractionBits
  if e = 0 then (f, F.minScale) else (f + weight F.fractionBits, F.minScale + (e - 1 : Nat))

/-- The exponent and fraction field of the magnitude `m · 2 ^ q`, when the format holds it. -/
def field? (F : Format) (m : Nat) (q : Int) : Option Nat :=
  if m = 0 then some 0
  else
    let scale := max F.minScale (q + Nat.log2 m - F.fractionBits)
    let up := (q - scale).toNat
    let down := (scale - q).toNat
    if m % weight down = 0 then
      let field := m * weight up / weight down + (scale - F.minScale).toNat * weight F.fractionBits
      if field < F.infinity then some field else none
    else none

/-- Whether a pattern stands for no number. -/
def isNaN (F : Format) (bits : Nat) : Bool := F.infinity < bits % F.signWeight

/-- The pattern in `G` of the number with the given pattern in `F`, when `G` holds it. -/
def convert? (F G : Format) (bits : Nat) : Option Nat :=
  let sign := if F.signWeight ≤ bits then G.signWeight else 0
  let field := bits % F.signWeight
  if field = F.infinity then some (sign + G.infinity)
  else if F.infinity < field then none
  else
    let (m, q) := F.magnitude field
    (G.field? m q).map (sign + ·)

end Format

/-- The pattern that stands for everything that is not a number. -/
def nan : UInt64 := 0x7ff8000000000000

/-- Whether a double-width pattern stands for no number. -/
def isNaN (bits : UInt64) : Bool := double.isNaN bits.toNat

/-- The double-width pattern of a number read in format `F`. -/
def widen (F : Format) (bits : Nat) : UInt64 :=
  match F.convert? double bits with
  | some b => UInt64.ofNat b
  | none => nan

/-- The pattern in format `F` of a number, when the format holds it exactly. -/
def narrow? (F : Format) (bits : UInt64) : Option Nat := double.convert? F bits.toNat

end Meshway.Cbor.Floating
