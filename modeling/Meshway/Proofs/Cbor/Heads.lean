import Meshway.Cbor.Reader
set_option autoImplicit false

/-!
# Heads are read back in any form (SPEC §4.1)

An argument may be written in more octets than it needs, and is read all the
same.  The head of an item that is written by the library is the shortest of the
forms that hold its argument.
-/

namespace Meshway.Cbor

namespace Reader

/-! ## Fields of known length -/

/-- A field of known length is taken off the front. -/
theorem octets_append {n : Nat} (field rest : Bytes) (h : field.length = n) :
    octets n (field ++ rest) = .ok (field, rest) := by
  subst h
  simp [octets]

/-- A number is read back from a field that is wide enough for it. -/
theorem number_append (width n : Nat) (rest : Bytes) (h : n < Nat.pow 256 width) :
    number width (Bytes.ofNat width n ++ rest) = .ok (n, rest) := by
  have hfield : octets width (Bytes.ofNat width n ++ rest) = .ok (Bytes.ofNat width n, rest) :=
    octets_append _ _ (Bytes.length_ofNat width n)
  have hvalue : Bytes.toNat (Bytes.ofNat width n) = n := by
    rw [Bytes.toNat_ofNat]
    exact Nat.mod_eq_of_lt h
  rw [number, hfield]
  simp [hvalue]

/-- The first octet of a head holds the major type and says where the argument is. -/
theorem toNat_first (major info : Nat) (hm : major < 8) (hi : info < 32) :
    (UInt8.ofNat (major * 32 + info)).toNat / 32 = major ∧
      (UInt8.ofNat (major * 32 + info)).toNat % 32 = info := by
  have h : (UInt8.ofNat (major * 32 + info)).toNat = major * 32 + info := by
    rw [UInt8.toNat_ofNat']
    exact Nat.mod_eq_of_lt (by omega)
  rw [h]
  constructor <;> omega

theorem argument_of_extent {info n : Nat} {bs rest : Bytes}
    (h : extent info bs = .ok (.definite n, rest)) : argument info bs = .ok (n, rest) := by
  simp [argument, h]

end Reader

/-! ## Forms -/

/-- Where a head has its argument: in its first octet, or in so many octets behind it. -/
inductive HeadForm where
  | inline
  | one
  | two
  | four
  | eight
  deriving DecidableEq, Repr

namespace HeadForm

/-- The number of octets behind the first. -/
def width : HeadForm → Nat
  | .inline => 0
  | .one => 1
  | .two => 2
  | .four => 4
  | .eight => 8

/-- The arguments that a form holds are below this. -/
def limit : HeadForm → Nat
  | .inline => 24
  | .one => 0x100
  | .two => 0x10000
  | .four => 0x100000000
  | .eight => UInt64.size

/-- The low five bits of the first octet. -/
def info (n : Nat) : HeadForm → Nat
  | .inline => n
  | .one => 24
  | .two => 25
  | .four => 26
  | .eight => 27

/-- The head of this form, of major type `major` and with argument `n`. -/
def write (form : HeadForm) (major n : Nat) : Bytes :=
  UInt8.ofNat (major * 32 + form.info n) :: Bytes.ofNat form.width n

variable {form : HeadForm} {n : Nat}

theorem info_lt (h : n < form.limit) : form.info n < 32 := by
  cases form with
  | inline => exact Nat.lt_trans h (by decide)
  | one | two | four | eight => simp [info]

/-- The octets behind the first hold the argument, if it is not in the first. -/
theorem extent_info (h : n < form.limit) (rest : Bytes) :
    Reader.extent (form.info n) (Bytes.ofNat form.width n ++ rest) = .ok (.definite n, rest) := by
  cases form with
  | inline =>
    have hn : n < 24 := h
    simp [Reader.extent, info, width, Bytes.ofNat, hn]
  | one => simp [Reader.extent, info, width, Reader.number_append 1 n rest h]
  | two => simp [Reader.extent, info, width, Reader.number_append 2 n rest h]
  | four => simp [Reader.extent, info, width, Reader.number_append 4 n rest h]
  | eight => simp [Reader.extent, info, width, Reader.number_append 8 n rest h]

/-- A head of any form and major type tells both, and its argument is read back. -/
theorem write_eq_cons (major : Nat) (hm : major < 8) (h : n < form.limit) :
    ∃ b tail, form.write major n = b :: tail ∧ b.toNat / 32 = major ∧
      ∀ rest, Reader.extent (b.toNat % 32) (tail ++ rest) = .ok (.definite n, rest) := by
  obtain ⟨hmajor, hinfo⟩ := Reader.toNat_first major (form.info n) hm (info_lt h)
  exact ⟨_, _, rfl, hmajor, hinfo.symm ▸ extent_info h⟩

end HeadForm

/-- The head that is written has one of the forms. -/
theorem exists_head_eq_write (major : Nat) {n : Nat} (hn : n < UInt64.size) :
    ∃ form : HeadForm, n < form.limit ∧ head major n = form.write major n := by
  unfold head
  split
  · exact ⟨.inline, ‹_›, rfl⟩
  split
  · exact ⟨.one, ‹_›, rfl⟩
  split
  · exact ⟨.two, ‹_›, rfl⟩
  split
  · exact ⟨.four, ‹_›, rfl⟩
  · exact ⟨.eight, hn, rfl⟩

/-- The argument of a head of any major type is read back. -/
theorem Reader.head_eq_cons (major n : Nat) (hm : major < 8) (hn : n < UInt64.size) :
    ∃ b tail, head major n = b :: tail ∧ b.toNat / 32 = major ∧
      ∀ rest, extent (b.toNat % 32) (tail ++ rest) = .ok (.definite n, rest) := by
  obtain ⟨form, hform, heq⟩ := exists_head_eq_write major hn
  rw [heq]
  exact HeadForm.write_eq_cons major hm hform

end Meshway.Cbor
