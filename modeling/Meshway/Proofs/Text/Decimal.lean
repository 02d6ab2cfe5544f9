import Meshway.Text.Decimal
set_option autoImplicit false

/-!
# Digits of numbers

A run of digits is read if there are any and the number is within its limit.
Written numbers are told apart by their digits, and have nothing but digits.
-/

namespace Meshway.Decimal

theorem digits?_eq_some_iff {limit n : Nat} {ds : List Char} :
    digits? limit ds = some n ↔
      ds ≠ [] ∧ (∀ d ∈ ds, d.isDigit) ∧ Nat.ofDigitChars 10 ds 0 = n ∧ n ≤ limit := by
  simp only [digits?, List.all_eq_true, Option.ite_none_right_eq_some, Option.some.injEq]
  constructor
  · rintro ⟨⟨hne, hdigits, hle⟩, rfl⟩
    exact ⟨hne, hdigits, rfl, hle⟩
  · rintro ⟨hne, hdigits, rfl, hle⟩
    exact ⟨⟨hne, hdigits, hle⟩, rfl⟩

/-- The digits of a number are those of no other. -/
theorem eq_of_toList_repr {m n : Nat} (h : m.repr.toList = n.repr.toList) : m = n := by
  have hvalue := congrArg (fun ds => Nat.ofDigitChars 10 ds 0) h
  simpa only [Nat.toList_repr, Nat.ofDigitChars_ten_toDigits] using hvalue

theorem isDigit_of_mem_repr {n : Nat} {c : Char} (h : c ∈ n.repr.toList) : c.isDigit = true := by
  rw [Nat.toList_repr] at h
  exact Nat.isDigit_of_mem_toDigits (by decide) (by decide) h

end Meshway.Decimal
