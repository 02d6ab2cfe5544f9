import Meshway.Address
import Meshway.Dialogue
import Meshway.Text.Utf8
set_option autoImplicit false

/-!
# SOCKS (SPEC §6, §10.3 items 16 and 20)

Versions 4, 4a and 5 of the protocol by which a client asks a proxy for a
connection, without authentication.  A request that cannot be granted is
answered with a reply where the protocol has one for the case.
-/

namespace Meshway.Socks

/-! ## Requests -/

/-- The version that a client speaks. -/
inductive Version where
  | v4
  | v5
  deriving DecidableEq, Repr, Inhabited

/-- What a client asks for. -/
inductive Command where
  | connect
  | bind
  | udpAssociate
  deriving DecidableEq, Repr, Inhabited

/-- The name of a command. -/
def Command.name : Command → String
  | .connect => "Connect"
  | .bind => "Bind"
  | .udpAssociate => "UdpAssociate"

/-- A request that was understood. -/
structure Request where
  version : Version
  command : Command
  host : String
  port : UInt16
  deriving DecidableEq, Repr, Inhabited

/-- What is wrong with a malformed request. -/
inductive Defect where
  /-- the request names another version than the greeting -/
  | versionDiffers
  /-- the name of the host is no text -/
  | hostNotText
  /-- the name of the host is empty -/
  | emptyHost
  /-- a string has no end -/
  | unterminated
  deriving DecidableEq, Repr, Inhabited

/-- The wording of a defect. -/
def Defect.message : Defect → String
  | .versionDiffers => "request version differs from greeting"
  | .hostNotText => "domain is not UTF-8"
  | .emptyHost => "empty destination host"
  | .unterminated => "unterminated string"

/-- Why there is no request. -/
inductive Fault where
  | unsupportedVersion (version : UInt8)
  | noAcceptableAuth
  | unknownCommand (command : UInt8)
  | unsupportedAddressType (kind : UInt8)
  | malformed (defect : Defect)
  | io (fault : IoFault)
  deriving DecidableEq, Repr, Inhabited

/-- An octet as two hexadecimal digits. -/
def hexOctet (b : UInt8) : String :=
  String.ofList ['0', 'x', Nat.digitChar (b.toNat / 16), Nat.digitChar (b.toNat % 16)]

/-- The wording of a fault. -/
def Fault.message : Fault → String
  | .unsupportedVersion version => s!"unsupported SOCKS version {hexOctet version}"
  | .noAcceptableAuth => "client offered no acceptable auth method"
  | .unknownCommand command => s!"unknown SOCKS command {hexOctet command}"
  | .unsupportedAddressType kind => s!"unsupported address type {hexOctet kind}"
  | .malformed defect => s!"malformed request: {defect.message}"
  | .io fault => s!"IO error: {fault.message}"

/-! ## Replies -/

/-- The answers to a request. -/
inductive Reply where
  | succeeded
  | generalFailure
  | hostUnreachable
  | connectionRefused
  | commandNotSupported
  | addressTypeNotSupported
  deriving DecidableEq, Repr, Inhabited

/-- The octet for a reply in version 5. -/
def Reply.code5 : Reply → UInt8
  | .succeeded => 0
  | .generalFailure => 1
  | .hostUnreachable => 4
  | .connectionRefused => 5
  | .commandNotSupported => 7
  | .addressTypeNotSupported => 8

/-- The octet for a reply in version 4, which only tells success from failure. -/
def Reply.code4 : Reply → UInt8
  | .succeeded => 0x5a
  | _ => 0x5b

/-- The address and port that a reply names: those bound, if the address has four octets, else
zeros. -/
def boundFields : Option SocketAddress → Bytes × Bytes
  | some (.v4 ip port) => (ip.octets, Bytes.ofUInt16 port)
  | _ => ([0, 0, 0, 0], [0, 0])

/-- The octets of a reply. -/
def Reply.octets (reply : Reply) (version : Version) (bound : Option SocketAddress) : Bytes :=
  let (ip, port) := boundFields bound
  match version with
  | .v5 => [5, reply.code5, 0, 1] ++ ip ++ port
  | .v4 => [0, reply.code4] ++ port ++ ip

/-! ## Negotiation -/

/-- A dialogue that leads to a request. -/
abbrev Negotiation (ε : Type) := Dialogue ε (Except Fault Request)

variable {ε : Type}

/-- Ends a negotiation without a request. -/
def reject (fault : Fault) : Negotiation ε := .done (.error fault)

/-- Answers with a reply and ends the negotiation. -/
def refuse (version : Version) (reply : Reply) (fault : Fault) : Negotiation ε :=
  .write (reply.octets version none) (reject fault)

/-- The command of a request in version 5. -/
def command5? (b : UInt8) : Option Command :=
  if b = 1 then some .connect else if b = 2 then some .bind
  else if b = 3 then some .udpAssociate else none

/-- The command of a request in version 4. -/
def command4? (b : UInt8) : Option Command :=
  if b = 1 then some .connect else if b = 2 then some .bind else none

/-- Grants a request, unless its command is unknown or its host has no name. -/
def grant (version : Version) (octet : UInt8) (command : Option Command) (host : String)
    (port : UInt16) : Negotiation ε :=
  match command with
  | none => refuse version .commandNotSupported (.unknownCommand octet)
  | some command =>
    if host = "" then refuse version .generalFailure (.malformed .emptyHost)
    else .done (.ok ⟨version, command, host, port⟩)

/-- Goes on with the host that octets name. -/
def withHost (octets : Bytes) (next : String → Negotiation ε) : Negotiation ε :=
  match Utf8.decode? octets with
  | some host => next host
  | none => reject (.malformed .hostNotText)

/-- Reads the host of a request in version 5. -/
def readHost5 (kind : UInt8) (next : String → Negotiation ε) : Negotiation ε :=
  if kind = 1 then .read 4 fun ip => next (IPv4.ofOctets ip).text
  else if kind = 3 then .readByte fun size => .read size.toNat fun octets => withHost octets next
  else if kind = 4 then .read 16 fun ip => next (IPv6.ofOctets ip).text
  else refuse .v5 .addressTypeNotSupported (.unsupportedAddressType kind)

/-- Reads a request in version 5. -/
def request5 : Negotiation ε :=
  .readByte fun version =>
    if version = 5 then
      .readByte fun octet => .readByte fun _reserved => .readByte fun kind =>
        readHost5 kind fun host => .readUInt16 fun port =>
          grant .v5 octet (command5? octet) host port
    else reject (.malformed .versionDiffers)

/-- Reads the greeting of version 5 after its first octet, and then the request.  The only method
accepted is the one without authentication. -/
def negotiate5 : Negotiation ε :=
  .readByte fun count => .read count.toNat fun methods =>
    if 0 ∈ methods then .write [5, 0] request5
    else .write [5, 0xff] (reject .noAcceptableAuth)

/-- The longest string that a request in version 4 may hold. -/
def maxString : Nat := 255

/-- Reads a string of a request in version 4. -/
def readString (next : Bytes → Negotiation ε) : Negotiation ε :=
  .readTerminated maxString [] fun
    | some octets => next octets
    | none => reject (.malformed .unterminated)

/-- Whether an address of version 4 stands for a name that follows. -/
def namesHost (ip : Bytes) : Bool := ip.take 3 == [0, 0, 0] && ip.drop 3 != [0]

/-- Reads a request of version 4 after its first octet. -/
def negotiate4 : Negotiation ε :=
  .readByte fun octet => .readUInt16 fun port => .read 4 fun ip => readString fun _user =>
    let finish (host : String) : Negotiation ε := grant .v4 octet (command4? octet) host port
    if namesHost ip then readString fun octets => withHost octets finish
    else finish (IPv4.ofOctets ip).text

/-- Reads a client's greeting and request (SPEC §6).  The first octet tells the version. -/
def negotiate : Negotiation ε :=
  .readByte fun version =>
    if version = 4 then negotiate4
    else if version = 5 then negotiate5
    else reject (.unsupportedVersion version)

end Meshway.Socks
