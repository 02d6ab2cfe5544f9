import Meshway.Message
set_option autoImplicit false

/-!
# Datagrams (SPEC §10.3 item 17)

Between radio processes a packet travels as one datagram: the two parties, the
time in milliseconds, the kind of the content, a mark that asks for encryption,
and the content.  A link hears only the packets for its own node, and no more
of a datagram than its buffer holds.
-/

namespace Meshway.Frame

/-- The number of octets before the content. -/
def headerLength : Nat := 26

/-- The number of octets of a datagram that a link takes in. -/
def mtu : Nat := 2048

/-- The kind that stands for octets. -/
def binaryKind : UInt8 := 0

/-- The kind that stands for text. -/
def textKind : UInt8 := 1

/-- Why a datagram is no packet. -/
inductive Fault where
  /-- the header is not all there -/
  | truncated (size : Nat)
  /-- the kind of the content is not known -/
  | unknownKind (kind : UInt8)
  /-- the text is not UTF-8 -/
  | badText
  deriving DecidableEq, Repr, Inhabited

/-- The wording of a fault. -/
def Fault.message : Fault → String
  | .truncated size => s!"datagram shorter than header ({size} bytes)"
  | .unknownKind kind => s!"unknown payload kind {kind}"
  | .badText => "text payload is not UTF-8"

/-- A time as it is written: times before the epoch count as the epoch, and the last time that fits
stands for all later ones. -/
def clampTime (ms : Int) : Nat := min ms.toNat (UInt64.size - 1)

/-- The kind and the octets of a content. -/
def content : Data → UInt8 × Bytes
  | .binary bs => (binaryKind, bs)
  | .text s => (textKind, Utf8.encode s)

/-- The datagram for a packet: the layout of SPEC §10.3 item 17. -/
def encode (p : Packet) (encrypt : Bool) : Bytes :=
  let (kind, octets) := content p.data
  Bytes.ofUInt64 p.sender ++ (Bytes.ofUInt64 p.receiver ++ (Bytes.ofNat 8 (clampTime p.sentMs) ++
    (kind :: (if encrypt then 1 else 0) :: octets)))

/-- The nanoseconds of a millisecond. -/
def nsPerMs : Int := 1000000

/-- A packet that leaves at a moment of the clock, which is in nanoseconds since the epoch. -/
structure Departure where
  sender : UInt64
  receiver : UInt64
  sentNs : Int
  data : Data
  deriving DecidableEq, Repr, Inhabited

namespace Departure

/-- The milliseconds that have passed since the epoch, none before it.  The one that has begun does
not count. -/
def sentMs (d : Departure) : Nat := if d.sentNs < 0 then 0 else (d.sentNs / nsPerMs).toNat

/-- The datagram for a departing packet. -/
def encode (d : Departure) (encrypt : Bool) : Bytes :=
  Frame.encode ⟨d.sender, d.receiver, d.sentMs, d.data⟩ encrypt

end Departure

/-- The content of a given kind. -/
def contentOf (kind : UInt8) (octets : Bytes) : Except Fault Data :=
  if kind = binaryKind then .ok (.binary octets)
  else if kind = textKind then
    match Utf8.decode? octets with
    | some s => .ok (.text s)
    | none => .error .badText
  else .error (.unknownKind kind)

/-- A number of eight octets that starts at octet `n`. -/
def fieldAt (n : Nat) (frame : Bytes) : Nat := Bytes.toNat ((frame.drop n).take 8)

/-- The packet in a datagram (SPEC §10.3 item 17). -/
def decode (frame : Bytes) : Except Fault Packet :=
  if frame.length < headerLength then .error (.truncated frame.length)
  else
    match contentOf (frame.getD 24 0) (frame.drop headerLength) with
    | .error e => .error e
    | .ok data => .ok ⟨UInt64.ofNat (fieldAt 0 frame), UInt64.ofNat (fieldAt 8 frame),
        fieldAt 16 frame, data⟩

/-- What the link of a node makes of a datagram: the packet in as much of it as the buffer holds,
if it is meant for the node. -/
def receive (gid : UInt64) (datagram : Bytes) : Option Packet :=
  match decode (datagram.take mtu) with
  | .error _ => none
  | .ok p => if p.receiver = gid then some p else none

end Meshway.Frame
