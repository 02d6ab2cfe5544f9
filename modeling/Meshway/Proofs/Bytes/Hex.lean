import Meshway.Bytes.Hex
set_option autoImplicit false

/-!
# What a hexadecimal text spells

A text that is read as octets is their hexadecimal form, but for the case of its
digits.  Digits are single octets, so the characters of such a text are its
octets one by one.
-/

namespace Meshway

/-! ## Texts of single octets -/

namespace Utf8

theorem encode_ofList (cs : List Char) :
    encode (String.ofList cs) = cs.flatMap String.utf8EncodeChar := by
  have hbytes : (String.ofList cs).toUTF8 = (cs.flatMap String.utf8EncodeChar).toByteArray :=
    String.toByteArray_ofList
  rw [encode, hbytes, List.data_toByteArray]

theorem encode_injective {s t : String} (h : encode s = encode t) : s = t := by
  have hs := decode?_encode s
  rw [h, decode?_encode] at hs
  exact (Option.some.inj hs).symm

/-- An octet below 128 is the written form of the character with its number. -/
theorem utf8EncodeChar_ofNat {b : UInt8} (h : b.toNat < 128) :
    String.utf8EncodeChar (Char.ofNat b.toNat) = [b] := by
  have hvalid : b.toNat.isValidChar := .inl (by omega)
  have hval : (Char.ofNat b.toNat).val.toNat = b.toNat := by
    rw [Char.ofNat, dif_pos hvalid]
    rfl
  simp only [String.utf8EncodeChar, hval]
  rw [if_pos (by omega), UInt8.ofNat_toNat]

/-- The characters of a text whose octets are below 128 are its octets. -/
theorem toList_eq_map_of_lt {s : String} (h : ∀ b ∈ encode s, b.toNat < 128) :
    s.toList = (encode s).map fun b => Char.ofNat b.toNat := by
  have hback : encode (String.ofList ((encode s).map fun b => Char.ofNat b.toNat)) = encode s := by
    rw [encode_ofList, List.flatMap_map, List.flatMap_def]
    rw [List.map_congr_left fun b hb => utf8EncodeChar_ofNat (h b hb), ← List.flatMap_def]
    exact List.flatMap_singleton' _
  have hs := congrArg String.toList (encode_injective hback)
  rw [String.toList_ofList] at hs
  exact hs.symm

end Utf8

namespace Hex

/-! ## Digits -/

/-- The octets of digits of either case. -/
theorem value?_eq_some {b : UInt8} {v : Nat} (h : value? b = some v) :
    v < 10 ∧ b.toNat = 0x30 + v ∨
      10 ≤ v ∧ v < 16 ∧ (b.toNat = 0x37 + v ∨ b.toNat = 0x57 + v) := by
  unfold value? at h
  simp only at h
  split at h
  · cases h
    exact .inl (by omega)
  · split at h
    · cases h
      exact .inr (by omega)
    · split at h
      · cases h
        exact .inr (by omega)
      · cases h

/-- An octet that is read as a digit is the character of that digit, but for its case. -/
theorem toLower_of_value? {b : UInt8} {v : Nat} (h : value? b = some v) :
    v < 16 ∧ b.toNat < 128 ∧ (Char.ofNat b.toNat).toLower = digit v := by
  have hdecimal : ∀ v < 10, (Char.ofNat (0x30 + v)).toLower = digit v := by decide
  have hupper : ∀ v < 16, 10 ≤ v → (Char.ofNat (0x37 + v)).toLower = digit v := by decide
  have hlower : ∀ v < 16, 10 ≤ v → (Char.ofNat (0x57 + v)).toLower = digit v := by decide
  rcases value?_eq_some h with ⟨hv, hb⟩ | ⟨hge, hv, hb | hb⟩
  · exact ⟨by omega, by omega, hb ▸ hdecimal v hv⟩
  · exact ⟨hv, by omega, hb ▸ hupper v hv hge⟩
  · exact ⟨hv, by omega, hb ▸ hlower v hv hge⟩

/-! ## Texts -/

/-- The digits of an octet that two digits were read as. -/
theorem digits_ofNat {h l : Nat} (hh : h < 16) (hl : l < 16) :
    [digit ((UInt8.ofNat (h * 16 + l)).toNat / 16), digit ((UInt8.ofNat (h * 16 + l)).toNat % 16)] =
      [digit h, digit l] := by
  have hmod : (h * 16 + l) % 256 = h * 16 + l := Nat.mod_eq_of_lt (by omega)
  have hhi : (h * 16 + l) / 16 = h := by omega
  have hlo : (h * 16 + l) % 16 = l := by omega
  rw [UInt8.toNat_ofNat', hmod, hhi, hlo]

/-- Pairs of digits that are read are the digits of the octets that they are read as. -/
theorem toLower_of_pairs {position : Nat} {bs raw : Bytes} (h : pairs position bs = .ok raw) :
    (∀ b ∈ bs, b.toNat < 128) ∧
      (bs.map fun b => (Char.ofNat b.toNat).toLower) =
        raw.flatMap fun b => [digit (b.toNat / 16), digit (b.toNat % 16)] := by
  fun_induction pairs position bs generalizing raw with
  | case1 =>
    cases h
    exact ⟨fun _ hb => absurd hb List.not_mem_nil, rfl⟩
  | case2 => cases h
  | case3 => cases h
  | case4 => cases h
  | case5 => cases h
  | case6 position hi lo rest vh vl hl hh bs hbs ih =>
    cases h
    obtain ⟨hlt, hdigits⟩ := ih hbs
    obtain ⟨hvh, hhi, heqh⟩ := toLower_of_value? hh
    obtain ⟨hvl, hlo, heql⟩ := toLower_of_value? hl
    refine ⟨List.forall_mem_cons.2 ⟨hhi, List.forall_mem_cons.2 ⟨hlo, hlt⟩⟩, ?_⟩
    rw [List.flatMap_cons, digits_ofNat hvh hvl, ← hdigits, List.map_cons, List.map_cons, heqh,
      heql]
    rfl

/-- A text that is read is the hexadecimal form of what it is read as, but for the case of its
digits. -/
theorem toLower_of_decode {s : String} {raw : Bytes} (h : decode s = .ok raw) :
    s.toLower = encode raw := by
  unfold decode at h
  simp only at h
  split at h
  · cases h
  · obtain ⟨hlt, hdigits⟩ := toLower_of_pairs h
    have hlower : s.toLower.toList = s.toList.map Char.toLower := String.toList_map
    apply String.toList_injective
    rw [hlower, Utf8.toList_eq_map_of_lt hlt, List.map_map, encode, String.toList_ofList,
      ← hdigits]
    rfl

end Hex

end Meshway
