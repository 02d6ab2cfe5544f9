import Meshway.Cbor.Floating
set_option autoImplicit false

/-!
# A number keeps its pattern through a narrower format (SPEC §4.1)

A finite number is a magnitude `m · 2 ^ q`, and a format has at most one field
for it, however the magnitude is split into `m` and `q`.  So a pattern that was
converted to a format that holds its number is converted back to itself.  Main
statements: `convert?_convert?` for any two formats, and `widen_narrow?` for the
widths that a number is written in.
-/

namespace Meshway.Cbor.Floating

namespace Format

/-! ## Powers of two -/

theorem weight_eq (k : Nat) : weight k = Nat.pow 2 k := rfl

theorem weight_pos (k : Nat) : 0 < weight k := by
  rw [weight_eq, Nat.pow_eq]
  exact Nat.two_pow_pos k

theorem weight_add (j k : Nat) : weight (j + k) = weight j * weight k := by
  simp only [weight_eq, Nat.pow_eq, Nat.pow_add]

@[simp] theorem weight_zero : weight 0 = 1 := rfl

theorem weight_succ (k : Nat) : weight (k + 1) = 2 * weight k := by
  simp only [weight_eq, Nat.pow_eq, Nat.pow_succ, Nat.mul_comm]

/-- The places of a number are counted from its highest one. -/
theorem log2_mul_weight {m : Nat} (hm : m ≠ 0) (k : Nat) :
    Nat.log2 (m * weight k) = Nat.log2 m + k := by
  have hne : m * weight k ≠ 0 := Nat.mul_ne_zero hm (Nat.ne_of_gt (weight_pos k))
  have hlow : 2 ^ Nat.log2 m ≤ m := Nat.log2_self_le hm
  have hhigh : m < 2 ^ (Nat.log2 m + 1) := Nat.lt_log2_self
  rw [Nat.log2_eq_iff hne, weight_eq, Nat.pow_eq, Nat.pow_add, Nat.add_right_comm, Nat.pow_add]
  exact ⟨Nat.mul_le_mul_right _ hlow, Nat.mul_lt_mul_of_pos_right hhigh (Nat.two_pow_pos k)⟩

/-! ## Magnitudes -/

/-- Whether two magnitudes are the same number: one is the other with places moved from the scale
into the significand. -/
def SameNumber (a b : Nat × Int) : Prop :=
  ∃ k : Nat, (b.1 = a.1 * weight k ∧ a.2 = b.2 + k) ∨ (a.1 = b.1 * weight k ∧ b.2 = a.2 + k)

theorem SameNumber.symm {a b : Nat × Int} (h : SameNumber a b) : SameNumber b a := by
  obtain ⟨k, h | h⟩ := h
  · exact ⟨k, .inr h⟩
  · exact ⟨k, .inl h⟩

variable {F G : Format}

theorem field?_zero (F : Format) (q : Int) : F.field? 0 q = some 0 := by
  simp [field?]

/-- Places that are moved from the scale into the significand do not change the field. -/
theorem field?_mul_weight (F : Format) (m : Nat) (q : Int) (k : Nat) :
    F.field? (m * weight k) (q - k) = F.field? m q := by
  by_cases hm : m = 0
  · subst hm
    rw [Nat.zero_mul, field?_zero, field?_zero]
  have hne : m * weight k ≠ 0 := Nat.mul_ne_zero hm (Nat.ne_of_gt (weight_pos k))
  have hscale : q - k + (Nat.log2 (m * weight k) : Nat) - F.fractionBits =
      q + Nat.log2 m - F.fractionBits := by
    rw [log2_mul_weight hm]
    omega
  simp only [field?, hm, hne, if_false, hscale]
  -- the scale of the field is the same on both sides; what differs is the way to it
  generalize max F.minScale (q + (Nat.log2 m : Nat) - F.fractionBits) = scale
  by_cases hq : scale ≤ q
  · obtain ⟨u, rfl⟩ : ∃ u : Nat, q = scale + u := ⟨(q - scale).toNat, by omega⟩
    have hdown : (scale - (scale + u)).toNat = 0 := by omega
    have hup : (scale + (u : Int) - scale).toNat = u := by omega
    rw [hdown, hup]
    by_cases hk : k ≤ u
    · obtain ⟨j, rfl⟩ : ∃ j, u = k + j := ⟨u - k, by omega⟩
      have hdown' : (scale - (scale + ((k + j : Nat) : Int) - k)).toNat = 0 := by omega
      have hup' : (scale + ((k + j : Nat) : Int) - k - scale).toNat = j := by omega
      rw [hdown', hup', weight_add, Nat.mul_assoc]
      simp [Nat.mod_one]
    · obtain ⟨j, rfl⟩ : ∃ j, k = u + j := ⟨k - u, by omega⟩
      have hdown' : (scale - (scale + (u : Int) - ((u + j : Nat) : Int))).toNat = j := by omega
      have hup' : (scale + (u : Int) - ((u + j : Nat) : Int) - scale).toNat = 0 := by omega
      rw [hdown', hup', weight_add, ← Nat.mul_assoc]
      simp [Nat.mod_one, Nat.mul_div_cancel _ (weight_pos j)]
  · obtain ⟨d, hd⟩ : ∃ d : Nat, scale = q + d := ⟨(scale - q).toNat, by omega⟩
    subst hd
    have hdown : (q + (d : Int) - q).toNat = d := by omega
    have hup : (q - (q + (d : Int))).toNat = 0 := by omega
    have hdown' : (q + (d : Int) - (q - k)).toNat = d + k := by omega
    have hup' : (q - (k : Int) - (q + (d : Int))).toNat = 0 := by omega
    have hmod : m % weight d * weight k = 0 ↔ m % weight d = 0 := by
      rw [Nat.mul_eq_zero]
      exact or_iff_left (Nat.ne_of_gt (weight_pos k))
    rw [hdown, hup, hdown', hup', weight_add, Nat.mul_mod_mul_right]
    simp only [hmod, weight_zero, Nat.mul_one, Nat.mul_div_mul_right _ _ (weight_pos k)]

/-- The field of a number does not depend on how its magnitude is written. -/
theorem field?_congr (F : Format) {a b : Nat × Int} (h : SameNumber a b) :
    F.field? a.1 a.2 = F.field? b.1 b.2 := by
  obtain ⟨k, ⟨hm, hq⟩ | ⟨hm, hq⟩⟩ := h
  · rw [hm, hq, ← field?_mul_weight F a.1 (b.2 + k) k]
    congr 1
    omega
  · rw [hm, hq, ← field?_mul_weight F b.1 (a.2 + k) k]
    congr 1
    omega

/-! ## Fields and their magnitudes -/

/-- A field has the place that its magnitude asks for. -/
theorem field?_magnitude {field : Nat} (h : field < F.infinity) :
    F.field? (F.magnitude field).1 (F.magnitude field).2 = some field := by
  have hw := weight_pos F.fractionBits
  have hsplit := Nat.mod_add_div field (weight F.fractionBits)
  have hfraction := Nat.mod_lt field hw
  unfold magnitude
  generalize field % weight F.fractionBits = f at *
  generalize field / weight F.fractionBits = e at *
  subst hsplit
  by_cases he : e = 0
  · subst he
    simp only [Nat.mul_zero, Nat.add_zero, if_true] at h ⊢
    by_cases hf : f = 0
    · subst hf
      exact field?_zero F _
    have hlog : Nat.log2 f < F.fractionBits := by
      rw [weight_eq, Nat.pow_eq] at hfraction
      exact (Nat.log2_lt hf).2 hfraction
    have hscale : max F.minScale (F.minScale + (Nat.log2 f : Nat) - F.fractionBits) =
        F.minScale := by omega
    simp [field?, hf, hscale, Nat.mod_one, h]
  · obtain ⟨i, rfl⟩ : ∃ i, e = i + 1 := ⟨e - 1, by omega⟩
    have hne : f + weight F.fractionBits ≠ 0 := by omega
    have hlog : Nat.log2 (f + weight F.fractionBits) = F.fractionBits := by
      rw [Nat.log2_eq_iff hne, ← Nat.pow_eq, ← Nat.pow_eq, ← weight_eq, ← weight_eq, weight_succ]
      omega
    have hscale : max F.minScale (F.minScale + (i : Int) + (F.fractionBits : Nat) -
        F.fractionBits) = F.minScale + i := by omega
    have hnone : (F.minScale + (i : Int) - (F.minScale + i)).toNat = 0 := by omega
    have hplaces : (F.minScale + (i : Int) - F.minScale).toNat = i := by omega
    have hfield : f + weight F.fractionBits + i * weight F.fractionBits =
        f + weight F.fractionBits * (i + 1) := by
      rw [Nat.mul_succ, Nat.mul_comm i]
      omega
    simp only [he, if_false, Nat.add_sub_cancel, field?, hne, hlog, hscale, hnone, hplaces,
      weight_zero, Nat.mod_one, Nat.mul_one, Nat.div_one, hfield, h, if_true]

/-- The magnitude of a significand at a number of places above the smallest scale.  Only there may
the significand lack its highest place. -/
theorem magnitude_of_significand {sig n : Nat} (hsig : sig < weight (F.fractionBits + 1))
    (hn : n = 0 ∨ weight F.fractionBits ≤ sig) :
    F.magnitude (sig + n * weight F.fractionBits) = (sig, F.minScale + n) := by
  have hw := weight_pos F.fractionBits
  rw [weight_succ] at hsig
  by_cases hlow : sig < weight F.fractionBits
  · obtain rfl : n = 0 := by omega
    simp [magnitude, Nat.div_eq_of_lt hlow, Nat.mod_eq_of_lt hlow]
  · obtain ⟨f, rfl⟩ : ∃ f, sig = f + weight F.fractionBits :=
      ⟨sig - weight F.fractionBits, by omega⟩
    have hf : f < weight F.fractionBits := by omega
    have hfield : f + weight F.fractionBits + n * weight F.fractionBits =
        f + (n + 1) * weight F.fractionBits := by
      rw [Nat.succ_mul]
      omega
    have hmod : (f + (n + 1) * weight F.fractionBits) % weight F.fractionBits = f := by
      rw [Nat.add_mul_mod_self_right, Nat.mod_eq_of_lt hf]
    have hdiv : (f + (n + 1) * weight F.fractionBits) / weight F.fractionBits = n + 1 := by
      rw [Nat.add_mul_div_right _ _ hw, Nat.div_eq_of_lt hf, Nat.zero_add]
    simp [magnitude, hfield, hmod, hdiv]

/-- The significand of a number at a scale that loses nothing of it. -/
theorem exists_significand {m : Nat} {q scale : Int} (h : m % weight (scale - q).toNat = 0) :
    ∃ sig, m * weight (q - scale).toNat / weight (scale - q).toNat = sig ∧
      SameNumber (sig, scale) (m, q) := by
  by_cases hq : scale ≤ q
  · have hdown : (scale - q).toNat = 0 := by omega
    refine ⟨_, rfl, (q - scale).toNat, .inr ⟨?_, by simp only; omega⟩⟩
    simp [hdown]
  · have hup : (q - scale).toNat = 0 := by omega
    refine ⟨_, rfl, (scale - q).toNat, .inl ⟨?_, by simp only; omega⟩⟩
    simp only [hup, weight_zero, Nat.mul_one]
    exact (Nat.div_mul_cancel (Nat.dvd_of_mod_eq_zero h)).symm

/-- The places of a significand are those of the number, moved by the difference of the scales. -/
theorem log2_significand {m sig : Nat} {q scale : Int} (hm : m ≠ 0)
    (h : SameNumber (sig, scale) (m, q)) : sig ≠ 0 ∧ scale + Nat.log2 sig = q + Nat.log2 m := by
  obtain ⟨k, ⟨hk, hq⟩ | ⟨hk, hq⟩⟩ := h
  · simp only at hk hq
    have hsig : sig ≠ 0 := by
      rintro rfl
      exact hm (by rw [hk, Nat.zero_mul])
    rw [hk, log2_mul_weight hsig]
    exact ⟨hsig, by omega⟩
  · simp only at hk hq
    rw [hk, log2_mul_weight hm]
    exact ⟨Nat.mul_ne_zero hm (Nat.ne_of_gt (weight_pos k)), by omega⟩

/-- A field that was found for a number has that number as its magnitude. -/
theorem sameNumber_of_field? {m : Nat} {q : Int} {field : Nat} (hF : 0 < F.infinity)
    (h : F.field? m q = some field) :
    SameNumber (F.magnitude field) (m, q) ∧ field < F.infinity := by
  by_cases hm : m = 0
  · subst hm
    rw [field?_zero] at h
    cases h
    have hzero : F.magnitude 0 = (0, F.minScale) := by simp [magnitude]
    rw [hzero]
    refine ⟨?_, hF⟩
    by_cases hq : F.minScale ≤ q
    · exact ⟨(q - F.minScale).toNat, .inr ⟨by simp, by simp only; omega⟩⟩
    · exact ⟨(F.minScale - q).toNat, .inl ⟨by simp, by simp only; omega⟩⟩
  simp only [field?, hm, if_false] at h
  generalize hscale : max F.minScale (q + (Nat.log2 m : Nat) - F.fractionBits) = scale at h
  split at h
  · rename_i hexact
    obtain ⟨sig, hsig, hsame⟩ := exists_significand hexact
    rw [hsig] at h
    obtain ⟨hne, hlog⟩ := log2_significand hm hsame
    -- the scale leaves the significand no more places than the format has
    have hhigh : sig < weight (F.fractionBits + 1) := by
      rw [weight_eq, Nat.pow_eq]
      exact (Nat.log2_lt hne).1 (by omega)
    have hplace : (scale - F.minScale).toNat = 0 ∨ weight F.fractionBits ≤ sig := by
      by_cases hmin : scale = F.minScale
      · exact .inl (by omega)
      · rw [weight_eq, Nat.pow_eq]
        exact .inr ((Nat.le_log2 hne).1 (by omega))
    split at h
    · rename_i hlt
      cases h
      have hscale' : F.minScale + ((scale - F.minScale).toNat : Nat) = scale := by omega
      rw [magnitude_of_significand hhigh hplace, hscale']
      exact ⟨hsame, hlt⟩
    · cases h
  · cases h

/-! ## Patterns -/

theorem infinity_lt_signWeight (F : Format) : F.infinity < F.signWeight := by
  have he := weight_pos F.exponentBits
  rw [infinity, signWeight, weight_add]
  exact Nat.mul_lt_mul_of_pos_right (by omega) (weight_pos _)

/-- The sign of a pattern in `F` as a sign in `G`. -/
def signIn (F G : Format) (bits : Nat) : Nat := if F.signWeight ≤ bits then G.signWeight else 0

/-- A conversion keeps the sign and looks for the field of infinity or of the same number. -/
theorem convert?_eq (F G : Format) (bits : Nat) :
    F.convert? G bits =
      if bits % F.signWeight = F.infinity then some (signIn F G bits + G.infinity)
      else if F.infinity < bits % F.signWeight then none
      else (G.field? (F.magnitude (bits % F.signWeight)).1
        (F.magnitude (bits % F.signWeight)).2).map (signIn F G bits + ·) := rfl

theorem signIn_add_mod (bits : Nat) {field : Nat} (h : field < G.signWeight) :
    (signIn F G bits + field) % G.signWeight = field := by
  unfold signIn
  split
  · rw [Nat.add_mod_left, Nat.mod_eq_of_lt h]
  · rw [Nat.zero_add, Nat.mod_eq_of_lt h]

theorem signIn_signIn_add (bits : Nat) {field : Nat} (h : field < G.signWeight) :
    signIn G F (signIn F G bits + field) = signIn F F bits := by
  unfold signIn
  split
  · rw [if_pos (Nat.le_add_right _ _)]
  · rw [Nat.zero_add, if_neg (by omega)]

/-- A pattern is its sign and its field. -/
theorem signIn_add_mod_self {bits : Nat} (h : bits < 2 * F.signWeight) :
    signIn F F bits + bits % F.signWeight = bits := by
  unfold signIn
  split
  · rw [Nat.mod_eq_sub_mod (by omega), Nat.mod_eq_of_lt (by omega)]
    omega
  · rw [Nat.mod_eq_of_lt (by omega), Nat.zero_add]

/-- What a conversion gives. -/
theorem convert?_eq_some (hG : 0 < G.infinity) {bits b : Nat} (h : F.convert? G bits = some b) :
    ∃ field, b = signIn F G bits + field ∧
      ((bits % F.signWeight = F.infinity ∧ field = G.infinity) ∨
        (bits % F.signWeight < F.infinity ∧ field < G.infinity ∧
          SameNumber (G.magnitude field) (F.magnitude (bits % F.signWeight)))) := by
  rw [convert?_eq] at h
  split at h
  · rename_i hinf
    cases h
    exact ⟨_, rfl, .inl ⟨hinf, rfl⟩⟩
  · rename_i hne
    split at h
    · cases h
    · rename_i hle
      obtain ⟨field, hfield, rfl⟩ := Option.map_eq_some_iff.1 h
      obtain ⟨hsame, hlt⟩ := sameNumber_of_field? hG hfield
      exact ⟨field, rfl, .inr ⟨by omega, hlt, hsame⟩⟩

/-- A pattern that a conversion gave stands for a number, and has the width of its format. -/
theorem isNaN_of_convert? (hG : 0 < G.infinity) {bits b : Nat} (h : F.convert? G bits = some b) :
    G.isNaN b = false ∧ b < 2 * G.signWeight := by
  have hsign := G.infinity_lt_signWeight
  obtain ⟨field, rfl, hfield⟩ := convert?_eq_some hG h
  have hle : field ≤ G.infinity := by omega
  rw [isNaN, signIn_add_mod bits (by omega)]
  refine ⟨decide_eq_false (by omega), ?_⟩
  unfold signIn
  split <;> omega

/-- A pattern that is converted to a format that holds its number is converted back to itself. -/
theorem convert?_convert? (hG : 0 < G.infinity) {bits b : Nat} (hbits : bits < 2 * F.signWeight)
    (h : F.convert? G bits = some b) : G.convert? F b = some bits := by
  have hsign := G.infinity_lt_signWeight
  obtain ⟨field, rfl, hfield⟩ := convert?_eq_some hG h
  have hlt : field < G.signWeight := by omega
  have hback := signIn_add_mod_self hbits
  rw [convert?_eq, signIn_add_mod bits hlt, signIn_signIn_add bits hlt]
  obtain ⟨hinf, rfl⟩ | ⟨hfinite, hlt', hsame⟩ := hfield
  · rw [if_pos rfl, ← hinf, hback]
  · rw [if_neg (by omega), if_neg (by omega), field?_congr F hsame, field?_magnitude hfinite,
      Option.map_some, hback]

/-- In its own format a number has the pattern that it has. -/
theorem convert?_self {bits : Nat} (hbits : bits < 2 * F.signWeight) (h : F.isNaN bits = false) :
    F.convert? F bits = some bits := by
  have hle : bits % F.signWeight ≤ F.infinity := Nat.le_of_not_lt (of_decide_eq_false h)
  have hback := signIn_add_mod_self hbits
  rw [convert?_eq]
  by_cases hinf : bits % F.signWeight = F.infinity
  · rw [if_pos hinf, ← hinf, hback]
  · rw [if_neg hinf, if_neg (by omega), field?_magnitude (by omega), Option.map_some, hback]

/-- A pattern that stands for no number is not converted. -/
theorem convert?_of_isNaN {bits : Nat} (h : F.isNaN bits = true) : F.convert? G bits = none := by
  have hlt : F.infinity < bits % F.signWeight := of_decide_eq_true h
  rw [convert?_eq, if_neg (by omega), if_pos hlt]

end Format

/-! ## The widths that numbers are written in -/

/-- The pattern that all patterns for no number count as, and every other pattern itself. -/
def settle (bits : UInt64) : UInt64 := if isNaN bits then nan else bits

theorem settle_nan : settle nan = nan := by decide

theorem settle_of_isNaN {bits : UInt64} (h : isNaN bits = true) : settle bits = nan := if_pos h

theorem settle_of_not_isNaN {bits : UInt64} (h : isNaN bits = false) : settle bits = bits := by
  rw [settle, h]
  exact if_neg Bool.false_ne_true

theorem infinity_double_pos : 0 < double.infinity := by decide

theorem toNat_lt_double (bits : UInt64) : bits.toNat < 2 * double.signWeight := bits.toNat_lt

/-- What is read in any format is settled. -/
theorem settle_widen (F : Format) (bits : Nat) : settle (widen F bits) = widen F bits := by
  unfold widen
  split
  · rename_i b hb
    obtain ⟨hnum, hlt⟩ := Format.isNaN_of_convert? infinity_double_pos hb
    have hb' : (UInt64.ofNat b).toNat = b := by
      rw [UInt64.toNat_ofNat']
      exact Nat.mod_eq_of_lt hlt
    exact settle_of_not_isNaN (by rw [isNaN, hb', hnum])
  · exact settle_nan

/-- A pattern for no number is read as the one that they all count as. -/
theorem widen_of_isNaN {F : Format} {bits : Nat} (h : F.isNaN bits = true) :
    widen F bits = nan := by
  rw [widen, Format.convert?_of_isNaN h]

/-- A number that a narrower format holds is read back from it, and its pattern there is no wider
than the format. -/
theorem widen_narrow? {F : Format} (hF : 0 < F.infinity) {bits : UInt64} {b : Nat}
    (h : narrow? F bits = some b) : widen F b = bits ∧ b < 2 * F.signWeight := by
  obtain ⟨-, hlt⟩ := Format.isNaN_of_convert? hF h
  rw [widen, Format.convert?_convert? hF (toNat_lt_double bits) h]
  exact ⟨UInt64.ofNat_toNat, hlt⟩

/-- A number is read back from its own pattern. -/
theorem widen_double {bits : UInt64} (h : isNaN bits = false) : widen double bits.toNat = bits := by
  rw [widen, Format.convert?_self (toNat_lt_double bits) h]
  exact UInt64.ofNat_toNat

end Meshway.Cbor.Floating
