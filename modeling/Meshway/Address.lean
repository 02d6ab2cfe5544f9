import Meshway.Bytes
import Meshway.Text.Digit
import Meshway.Text.Quoted
set_option autoImplicit false

/-!
# Network addresses

An address of four octets is written in dotted form.  An address of eight
groups is written with its longest run of at least two zero groups left out,
the first of runs of equal length; only an address that stands for one of four
octets has a dotted end.  An address with a port is read in the same forms.
-/

namespace Meshway

/-! ## Types and written forms -/

/-- An address of four octets. -/
structure IPv4 where
  a : UInt8
  b : UInt8
  c : UInt8
  d : UInt8
  deriving DecidableEq, Repr, Inhabited

/-- An address of eight groups of sixteen bits. -/
structure IPv6 where
  groups : Vector UInt16 8
  deriving DecidableEq, Repr

instance : Inhabited IPv6 := ⟨⟨Vector.replicate 8 0⟩⟩

/-- An address and a port.  An address of eight groups may name the link it belongs to. -/
inductive SocketAddress where
  | v4 (ip : IPv4) (port : UInt16)
  | v6 (ip : IPv6) (scope : UInt32) (port : UInt16)
  deriving DecidableEq, Repr, Inhabited

namespace IPv4

/-- The four octets. -/
def octets (ip : IPv4) : Bytes := [ip.a, ip.b, ip.c, ip.d]

/-- The address with the given octets. -/
def ofOctets (bs : Bytes) : IPv4 := ⟨bs.getD 0 0, bs.getD 1 0, bs.getD 2 0, bs.getD 3 0⟩

/-- The dotted form. -/
def text (ip : IPv4) : String := s!"{ip.a}.{ip.b}.{ip.c}.{ip.d}"

/-- The address of the node itself. -/
def loopback : IPv4 := ⟨127, 0, 0, 1⟩

end IPv4

namespace IPv6

/-- The address with the given groups, zeros after them. -/
def ofGroups (gs : List UInt16) : IPv6 := ⟨Vector.ofFn fun i => gs.getD i.val 0⟩

/-- The groups of sixteen octets. -/
def ofOctets (bs : Bytes) : IPv6 :=
  ⟨Vector.ofFn fun i => UInt16.ofNat ((bs.getD (2 * i.val) 0).toNat * 256
    + (bs.getD (2 * i.val + 1) 0).toNat)⟩

/-- The number of zero groups from a place on. -/
def zerosFrom (gs : List UInt16) (start : Nat) : Nat := ((gs.drop start).takeWhile (· == 0)).length

/-- Where the first of the longest runs of zero groups starts. -/
def longestRun (gs : List UInt16) : Nat :=
  (List.range gs.length).foldl
    (fun best start => if zerosFrom gs best < zerosFrom gs start then start else best) 0

/-- Groups in hexadecimal with colons between them. -/
def groupsText (gs : List UInt16) : String :=
  ":".intercalate (gs.map fun g => String.ofList (Text.hexDigits g.toNat))

/-- The written form. -/
def text (ip : IPv6) : String :=
  match ip.groups.toList with
  | [0, 0, 0, 0, 0, 0xffff, x, y] =>
    "::ffff:" ++ (IPv4.ofOctets (Bytes.ofUInt16 x ++ Bytes.ofUInt16 y)).text
  | gs =>
    let start := longestRun gs
    let size := zerosFrom gs start
    if 2 ≤ size then groupsText (gs.take start) ++ "::" ++ groupsText (gs.drop (start + size))
    else groupsText gs

end IPv6

/-- The written form of an address with a port. -/
def SocketAddress.text : SocketAddress → String
  | .v4 ip port => s!"{ip.text}:{port}"
  | .v6 ip scope port =>
    if scope = 0 then s!"[{ip.text}]:{port}" else s!"[{ip.text}%{scope}]:{port}"

/-! ## Reading -/

namespace SocketAddress

open Text (Reader expect isDigitOf)

/-- Reads all the digits at the front, of which there must be at least one and at most `most`, as a
number up to `limit`. -/
def number (base limit : Nat) (most : Option Nat) : Reader Nat := fun cs =>
  let ds := cs.takeWhile (isDigitOf base)
  let n := Text.number base ds
  if ds ≠ [] ∧ (∀ m ∈ most, ds.length ≤ m) ∧ n ≤ limit then some (n, cs.drop ds.length) else none

/-- Reads an octet: up to three digits, without leading zeros. -/
def octet : Reader UInt8 := fun cs =>
  match number 10 255 (some 3) cs with
  | none => none
  | some (n, rest) =>
    if cs.head? = some '0' ∧ rest.length + 1 < cs.length then none else some (UInt8.ofNat n, rest)

/-- Reads an octet after a dot. -/
def dotOctet : Reader UInt8 := fun cs => (expect '.' cs).bind octet

/-- Reads a dotted address. -/
def ipv4 : Reader IPv4 := fun cs => do
  let (a, cs) ← octet cs
  let (b, cs) ← dotOctet cs
  let (c, cs) ← dotOctet cs
  let (d, cs) ← dotOctet cs
  return (⟨a, b, c, d⟩, cs)

/-- Reads what follows the colon before group number `i`; the first group has none. -/
def separated {α : Type} (i : Nat) (inner : Reader α) : Reader α := fun cs =>
  if i = 0 then inner cs else (expect ':' cs).bind inner

/-- Reads groups, up to `room` of them, of which `i` have been read before.  A dotted address takes
the place of two and ends them; the flag tells whether there was one. -/
def groups : Nat → Nat → List Char → (List UInt16 × Bool) × List Char
  | 0, _, cs => (([], false), cs)
  | room + 1, i, cs =>
    match if room = 0 then none else separated i ipv4 cs with
    | some (ip, rest) =>
      (([UInt16.ofNat (ip.a.toNat * 256 + ip.b.toNat),
        UInt16.ofNat (ip.c.toNat * 256 + ip.d.toNat)], true), rest)
    | none =>
      match separated i (number 16 0xffff (some 4)) cs with
      | none => (([], false), cs)
      | some (g, rest) =>
        let ((gs, dotted), rest) := groups room (i + 1) rest
        ((UInt16.ofNat g :: gs, dotted), rest)

/-- Reads an address of eight groups, some of them left out. -/
def ipv6 : Reader IPv6 := fun cs =>
  let ((front, dotted), rest) := groups 8 0 cs
  if front.length = 8 then some (.ofGroups front, rest)
  else if dotted then none
  else do
    let rest ← expect ':' rest
    let rest ← expect ':' rest
    let ((back, _), rest) := groups (7 - front.length) 0 rest
    let zeros := List.replicate (8 - front.length - back.length) 0
    return (.ofGroups (front ++ zeros ++ back), rest)

/-- Reads a port after a colon. -/
def port : Reader UInt16 := fun cs => do
  let (n, rest) ← (expect ':' cs).bind (number 10 0xffff none)
  return (UInt16.ofNat n, rest)

/-- Reads the link that an address belongs to, if it is named. -/
def scope (cs : List Char) : UInt32 × List Char :=
  match (expect '%' cs).bind (number 10 0xffffffff none) with
  | some (n, rest) => (UInt32.ofNat n, rest)
  | none => (0, cs)

/-- Reads an address of either kind and a port. -/
def reader : Reader SocketAddress := fun cs =>
  match (ipv4 cs).bind fun (ip, rest) => (port rest).map fun (p, rest) => (v4 ip p, rest) with
  | some r => some r
  | none => do
    let rest ← expect '[' cs
    let (ip, rest) ← ipv6 rest
    let (s, rest) := scope rest
    let rest ← expect ']' rest
    let (p, rest) ← port rest
    return (v6 ip s p, rest)

/-- The address with a port that a text spells. -/
def parse? (s : String) : Option SocketAddress :=
  match reader s.toList with
  | some (a, []) => some a
  | _ => none

end SocketAddress

end Meshway
