import Mathlib.Algebra.Group.Nat.Defs
import Meshway.Bytes
set_option autoImplicit false

/-!
# Arithmetic in words

Arithmetic on words of 64 bits, and on octets, that stops where the number does
not fit, a difference would be negative, a divisor is zero or a slice reaches
beyond what it is taken from.  Where none of this happens its results are those
over the natural numbers.
-/

namespace Meshway

namespace Words

/-- Why a computation in words stops. -/
inductive Trap where
  /-- a number is too large for its word -/
  | overflow
  /-- a difference is negative -/
  | underflow
  /-- a divisor is zero -/
  | divisionByZero
  /-- a slice does not lie within its payload -/
  | outOfRange
  deriving DecidableEq, Repr

/-- A computation that may stop. -/
abbrev Checked (α : Type) : Type := Except Trap α

def word (n : Nat) : Checked UInt64 :=
  if n < 2 ^ 64 then .ok (UInt64.ofNat n) else .error .overflow

def add (a b : UInt64) : Checked UInt64 :=
  if a.toNat + b.toNat < 2 ^ 64 then .ok (a + b) else .error .overflow

def sub (a b : UInt64) : Checked UInt64 := if b ≤ a then .ok (a - b) else .error .underflow

def div (a b : UInt64) : Checked UInt64 := if b = 0 then .error .divisionByZero else .ok (a / b)

def addOctet (a b : UInt8) : Checked UInt8 :=
  if a.toNat + b.toNat < 2 ^ 8 then .ok (a + b) else .error .overflow

def subOctet (a b : UInt8) : Checked UInt8 := if b ≤ a then .ok (a - b) else .error .underflow

def slice (bs : Bytes) (start stop : UInt64) : Checked Bytes :=
  if start ≤ stop ∧ stop.toNat ≤ bs.length then
    .ok ((bs.drop start.toNat).take (stop.toNat - start.toNat))
  else .error .outOfRange

section Arithmetic

variable {a b : UInt64} {n : Nat}

theorem word_of_lt (h : n < 2 ^ 64) : ∃ w, word n = .ok w ∧ w.toNat = n :=
  ⟨UInt64.ofNat n, if_pos h, UInt64.toNat_ofNat_of_lt' h⟩

theorem add_of_lt (h : a.toNat + b.toNat < 2 ^ 64) :
    ∃ w, add a b = .ok w ∧ w.toNat = a.toNat + b.toNat := by
  refine ⟨a + b, if_pos h, ?_⟩
  rw [UInt64.toNat_add]
  exact Nat.mod_eq_of_lt h

theorem sub_of_le (h : b.toNat ≤ a.toNat) :
    ∃ w, sub a b = .ok w ∧ w.toNat = a.toNat - b.toNat := by
  have hle : b ≤ a := UInt64.le_iff_toNat_le.2 h
  exact ⟨a - b, if_pos hle, UInt64.toNat_sub_of_le a b hle⟩

theorem div_of_pos (h : 0 < b.toNat) : ∃ w, div a b = .ok w ∧ w.toNat = a.toNat / b.toNat := by
  refine ⟨a / b, if_neg ?_, UInt64.toNat_div a b⟩
  rintro rfl
  exact Nat.lt_irrefl 0 h

theorem addOctet_of_lt {a b : UInt8} (h : a.toNat + b.toNat < 2 ^ 8) :
    ∃ w, addOctet a b = .ok w ∧ w.toNat = a.toNat + b.toNat := by
  refine ⟨a + b, if_pos h, ?_⟩
  rw [UInt8.toNat_add]
  exact Nat.mod_eq_of_lt h

theorem subOctet_of_le {a b : UInt8} (h : b.toNat ≤ a.toNat) :
    ∃ w, subOctet a b = .ok w ∧ w.toNat = a.toNat - b.toNat := by
  have hle : b ≤ a := UInt8.le_iff_toNat_le.2 h
  exact ⟨a - b, if_pos hle, UInt8.toNat_sub_of_le a b hle⟩

theorem toNat_min (a b : UInt64) : (min a b).toNat = min a.toNat b.toNat := by
  change (if a ≤ b then a else b).toNat = _
  by_cases h : a ≤ b
  · rw [if_pos h, Nat.min_eq_left (UInt64.le_iff_toNat_le.1 h)]
  · rw [if_neg h, Nat.min_eq_right (Nat.le_of_not_le fun hle => h (UInt64.le_iff_toNat_le.2 hle))]

end Arithmetic

end Words

end Meshway
