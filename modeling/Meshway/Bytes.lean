set_option autoImplicit false

/-!
# Byte strings

Everything that travels is a list of octets.  Numbers of a fixed width are
written most significant octet first; reading such a field back gives the
number reduced to that width.
-/

namespace Meshway

/-- A string of octets. -/
abbrev Bytes := List UInt8

namespace Bytes

/-- The `width` low octets of `n`, most significant first. -/
def ofNat : Nat → Nat → Bytes
  | 0, _ => []
  | width + 1, n => ofNat width (n / 256) ++ [UInt8.ofNat n]

/-- The number whose octets, most significant first, are the given ones. -/
def toNat (bs : Bytes) : Nat := bs.foldl (fun acc b => acc * 256 + b.toNat) 0

@[simp] theorem length_ofNat (width n : Nat) : (ofNat width n).length = width := by
  induction width generalizing n with
  | zero => rfl
  | succ width ih => simp [ofNat, ih]

@[simp] theorem toNat_nil : toNat [] = 0 := rfl

@[simp] theorem toNat_concat (bs : Bytes) (b : UInt8) :
    toNat (bs ++ [b]) = toNat bs * 256 + b.toNat := by
  simp [toNat]

/-- A field of `width` octets holds its number modulo `256 ^ width`. -/
theorem toNat_ofNat (width n : Nat) : toNat (ofNat width n) = n % Nat.pow 256 width := by
  rw [Nat.pow_eq]
  induction width generalizing n with
  | zero => simp [ofNat, Nat.mod_one]
  | succ width ih =>
    have hb : (UInt8.ofNat n).toNat = n % 256 := by simp
    rw [ofNat, toNat_concat, ih, hb, Nat.pow_succ, Nat.mul_comm (256 ^ width) 256,
      Nat.mod_mul, Nat.mul_comm (n / 256 % 256 ^ width) 256, Nat.add_comm]

/-- So many octets hold no larger number. -/
theorem toNat_lt_pow (bs : Bytes) : toNat bs < Nat.pow 256 bs.length := by
  have hfold : ∀ (bs : Bytes) (acc : Nat),
      bs.foldl (fun acc b => acc * 256 + b.toNat) acc < (acc + 1) * 256 ^ bs.length := by
    intro bs
    induction bs with
    | nil => intro acc; simp
    | cons b bs ih =>
      intro acc
      have hb : b.toNat < 256 := b.toNat_lt
      refine Nat.lt_of_lt_of_le (ih (acc * 256 + b.toNat)) ?_
      rw [List.length_cons, Nat.pow_succ, Nat.mul_comm (256 ^ bs.length) 256, ← Nat.mul_assoc]
      exact Nat.mul_le_mul_right _ (by omega)
  rw [Nat.pow_eq]
  simpa [toNat] using hfold bs 0

/-- A field is written back from the number in it. -/
theorem ofNat_toNat {width : Nat} {bs : Bytes} (h : bs.length = width) :
    ofNat width (toNat bs) = bs := by
  induction width generalizing bs with
  | zero => rw [List.length_eq_zero_iff.1 h, ofNat]
  | succ width ih =>
    have hne : bs ≠ [] := by
      rintro rfl
      cases h
    obtain ⟨front, b, rfl⟩ : ∃ front b, bs = front ++ [b] :=
      ⟨_, _, (List.dropLast_concat_getLast hne).symm⟩
    have hfront : front.length = width := by simpa using h
    have hb : b.toNat < 256 := b.toNat_lt
    have hrest : (toNat front * 256 + b.toNat) / 256 = toNat front := by omega
    have hlast : UInt8.ofNat (toNat front * 256 + b.toNat) = b := by
      apply UInt8.toNat_inj.1
      rw [UInt8.toNat_ofNat']
      omega
    rw [ofNat, toNat_concat, hrest, hlast, ih hfront]

/-- Two octets of a sixteen-bit number. -/
def ofUInt16 (n : UInt16) : Bytes := ofNat 2 n.toNat

theorem ofNat_toNat_ofUInt16 (n : UInt16) : UInt16.ofNat (toNat (ofUInt16 n)) = n := by
  have h : n.toNat < 65536 := n.toNat_lt
  apply UInt16.toNat_inj.1
  simp only [ofUInt16, toNat_ofNat, UInt16.toNat_ofNat', Nat.pow_eq]
  omega

theorem ofUInt16_ofNat_toNat {bs : Bytes} (h : bs.length = 2) :
    ofUInt16 (UInt16.ofNat (toNat bs)) = bs := by
  have hlt : toNat bs < UInt16.size := by
    have := toNat_lt_pow bs
    rwa [h] at this
  rw [ofUInt16, UInt16.toNat_ofNat_of_lt' hlt, ofNat_toNat h]

/-- Eight octets of a sixty-four-bit number. -/
def ofUInt64 (n : UInt64) : Bytes := ofNat 8 n.toNat

end Bytes

end Meshway
