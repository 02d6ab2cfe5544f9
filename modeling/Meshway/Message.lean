import Meshway.Payload
import Meshway.Phone
set_option autoImplicit false

/-!
# Packets and messages (SPEC §3, §10.3 items 1 to 3)

A packet is what the radio delivers; a message is what a node makes of it.
Texts and short messages that the gateway passes on carry the gateway's
identity; the party they come from is found in the phone number.
-/

namespace Meshway

/-- The content of one packet. -/
inductive Data where
  | binary (bs : Bytes)
  | text (s : String)
  deriving DecidableEq, Repr, Inhabited

/-- One packet as the radio delivers it.  The time it was sent is in milliseconds. -/
structure Packet where
  sender : UInt64
  receiver : UInt64
  sentMs : Int
  data : Data
  deriving DecidableEq, Repr, Inhabited

/-- The parties of a message and the time it was sent. -/
structure Origin where
  sender : UInt64
  receiver : UInt64
  sentMs : Int
  deriving DecidableEq, Repr, Inhabited

/-- What a node makes of a packet. -/
inductive Message where
  | text (origin : Origin) (text : String)
  | sms (origin : Origin) (body : Sms)
  | chunk (c : Chunk)
  | segment (s : TxSegment)
  deriving DecidableEq, Repr, Inhabited

/-- The identity of the gateway to the phone network. -/
def phoneGateway : UInt64 := 555555555

/-- The parts of a text before and after its first space. -/
def splitAtSpace? (s : String) : Option (String × String) :=
  match s.toList.dropWhile (· != ' ') with
  | [] => none
  | _ :: rest => some (String.ofList (s.toList.takeWhile (· != ' ')), String.ofList rest)

namespace Packet

/-- The parties of a packet and the time it was sent. -/
def origin (p : Packet) : Origin := ⟨p.sender, p.receiver, p.sentMs⟩

/-- The party and the text of a text that the gateway passes on: a phone number, a space and the
text proper. -/
def attribution? (s : String) : Option (UInt64 × String) :=
  match splitAtSpace? s with
  | none => none
  | some (phone, rest) =>
    if Phone.isGlobal phone then (Phone.gid? phone).map fun gid => (gid, rest) else none

/-- The message of a text packet.  A text from the gateway that names no party is taken as it is. -/
def textMessage (p : Packet) (s : String) : Message :=
  match if p.sender = phoneGateway then attribution? s else none with
  | some (gid, rest) => .text { p.origin with sender := gid } rest
  | none => .text p.origin s

/-- The message of a packet with a short message. -/
def smsMessage (p : Packet) (body : Sms) : Except Fault Message :=
  if p.sender = phoneGateway then
    match Phone.gid? body.phone with
    | some gid => .ok (.sms { p.origin with sender := gid } body)
    | none => .error (.gatewayPhone body.phone)
  else .ok (.sms p.origin body)

end Packet

namespace Message

/-- The message that a packet carries (SPEC §3, §10.3 items 2 and 3). -/
def ofPacket (p : Packet) : Except Fault Message :=
  match p.data with
  | .text s => .ok (p.textMessage s)
  | .binary bs =>
    match Payload.decode bs with
    | .error e => .error e
    | .ok (.sms body) => p.smsMessage body
    | .ok (.chunk c) => .ok (.chunk c)
    | .ok (.segment s) => .ok (.segment s)

/-- The packet content for a message; its parties and time are the radio's affair. -/
def toData : Message → Data
  | .text _ s => .text s
  | .sms _ body => .binary (Payload.encode (.sms body))
  | .chunk c => .binary (Payload.encode (.chunk c))
  | .segment s => .binary (Payload.encode (.segment s))

end Message

end Meshway
