import Meshway.Bytes
set_option autoImplicit false

/-!
# Item heads (SPEC §4.1)

Every item opens with a head: three bits of major type and an argument.  The
argument is written in the fewest octets: in the first octet itself below 24,
else in one, two, four or eight octets after it.
-/

namespace Meshway.Cbor

/-- The number of octets of a head that carries `n`. -/
def headLength (n : Nat) : Nat :=
  if n < 24 then 1
  else if n < 0x100 then 2
  else if n < 0x10000 then 3
  else if n < 0x100000000 then 5
  else 9

/-- The head of major type `major` with argument `n`. -/
def head (major n : Nat) : Bytes :=
  if n < 24 then [UInt8.ofNat (major * 32 + n)]
  else if n < 0x100 then UInt8.ofNat (major * 32 + 24) :: Bytes.ofNat 1 n
  else if n < 0x10000 then UInt8.ofNat (major * 32 + 25) :: Bytes.ofNat 2 n
  else if n < 0x100000000 then UInt8.ofNat (major * 32 + 26) :: Bytes.ofNat 4 n
  else UInt8.ofNat (major * 32 + 27) :: Bytes.ofNat 8 n

/-- A head is as long as `headLength` states. -/
theorem length_head (major n : Nat) : (head major n).length = headLength n := by
  unfold head headLength
  repeat' split
  all_goals simp

/-- A larger number needs no shorter head. -/
theorem headLength_mono {m n : Nat} (h : m ≤ n) : headLength m ≤ headLength n := by
  unfold headLength
  repeat' split
  all_goals omega

end Meshway.Cbor
