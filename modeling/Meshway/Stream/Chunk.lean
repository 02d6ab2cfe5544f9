import Meshway.Envelope
import Meshway.Stream.Id
set_option autoImplicit false

/-!
# Chunks of a stream (SPEC §3, §10.3 items 6 and 7)

A message of a stream travels as numbered chunks.  The chunk that opens a
connection names the destination instead of its number, which is zero.  A chunk
without payload says that the stream has ended.
-/

namespace Meshway

/-- Where a stream leads. -/
structure Destination where
  host : String
  port : UInt16
  deriving DecidableEq, Repr, Inhabited

/-- A numbered part of a message of a stream. -/
structure Chunk where
  streamId : StreamId
  destination : Option Destination
  index : UInt8
  count : UInt8
  payload : Bytes
  deriving DecidableEq, Repr, Inhabited

namespace Chunk

/-- The chunk that ends a stream. -/
def close (id : StreamId) : Chunk := ⟨id, none, 0, 1, []⟩

/-- Whether the chunk ends its stream, whatever its number says (SPEC §3). -/
def isClose (c : Chunk) : Bool := c.payload.isEmpty

/-- Whether no chunk of the message follows. -/
def isLast (c : Chunk) : Bool := c.count.toNat ≤ c.index.toNat + 1

/-- The fields of a chunk. -/
def toEnvelope (c : Chunk) : Envelope :=
  let env := Envelope.withBytes TagMap.empty Tag.streamId c.streamId.octets
  let env := match c.destination with
    | some d => (env.withText Tag.host d.host).withUInt Tag.port d.port.toUInt64
    | none => env.withUInt Tag.index c.index.toUInt64
  (env.withUInt Tag.count c.count.toUInt64).withBytes Tag.payload c.payload

/-- The identity in the fields of a chunk. -/
def idOf (env : Envelope) : Except Fault StreamId :=
  match env.bytes Tag.streamId with
  | .error e => .error e
  | .ok bs =>
    match StreamId.ofBytes? bs with
    | some id => .ok id
    | none => .error (.length .streamId bs.length)

/-- The destination in the fields of a chunk. -/
def destinationOf (env : Envelope) : Except Fault Destination :=
  match env.text Tag.host with
  | .error e => .error e
  | .ok host =>
    match env.uint Tag.port with
    | .error e => .error e
    | .ok port =>
      if port.toNat < 0x10000 then .ok ⟨host, UInt16.ofNat port.toNat⟩ else .error .portRange

/-- What tells the chunk's place: its destination, which implies number zero, or its number. -/
def placeOf (env : Envelope) : Except Fault (Option Destination × UInt8) :=
  if env.contains Tag.host || env.contains Tag.port then
    (destinationOf env).map fun d => (some d, 0)
  else (env.octet Tag.index).map fun i => (none, i)

/-- The chunk with the given fields.  A number that is not below the number of chunks is refused,
except where the chunk ends its stream. -/
def ofEnvelope (env : Envelope) : Except Fault Chunk :=
  match idOf env with
  | .error e => .error e
  | .ok id =>
    match env.bytes Tag.payload with
    | .error e => .error e
    | .ok payload =>
      match env.octet Tag.count with
      | .error e => .error e
      | .ok count =>
        match placeOf env with
        | .error e => .error e
        | .ok (destination, index) =>
          if payload ≠ [] ∧ count ≤ index then .error (.indexOutside index count)
          else .ok ⟨id, destination, index, count, payload⟩

end Chunk

end Meshway
