import Meshway.Payload
set_option autoImplicit false

/-!
# Segmentation (SPEC §4.2, §10.3 item 7)

A payload too large for one packet is cut into at most 255 parts.  What the
fields around a part take up is measured on the written form of the shape with
an empty payload and the largest number and count; the rest of the packet is
the part's.  Every part but the last is as large as its shape allows.
-/

namespace Meshway

open Meshway.Cbor

namespace Segmentation

/-- The largest number of parts: their number has to fit one octet. -/
def maxSegments : Nat := 255

/-- The packet size for the chunks of a stream, unless set otherwise. -/
def streamPacketBytes : Nat := 150

/-- The packet size for the segments of a transaction, unless set otherwise. -/
def txPacketBytes : Nat := 200

/-- Why a payload cannot be cut. -/
inductive Fault where
  /-- the fields around a part fill the packet -/
  | packetTooSmall (max overhead : Nat)
  /-- the parts are too many to be numbered -/
  | tooManySegments (count : Nat)
  /-- there is nothing to cut -/
  | emptyPayload
  deriving DecidableEq, Repr, Inhabited

/-- The wording of a fault. -/
def Fault.message : Fault → String
  | .packetTooSmall max overhead =>
    s!"packet size {max} leaves no room for payload (overhead {overhead})"
  | .tooManySegments count =>
    s!"payload needs {count} segments, at most 255 fit the index field"
  | .emptyPayload => "nothing to segment"

/-! ## Sizes -/

/-- What the fields around a part take up: the shape with an empty payload, whose one-octet head
makes room for the largest head of a packet. -/
def overhead (shape max : Nat) : Nat := shape - headLength 0 + headLength max

/-- The room that a shape leaves in a packet. -/
def capacity (max overhead : Nat) : Except Fault Nat :=
  if max ≤ overhead then .error (.packetTooSmall max overhead) else .ok (max - overhead)

/-- The number of parts of a payload of `size` octets: one, and as many as what is left needs. -/
def segmentCount (size first rest : Nat) : Nat :=
  if size ≤ first then 1 else 1 + (size - first + rest - 1) / rest

/-- How a payload is cut: the size of the first part and of the others, and their number. -/
structure Plan where
  first : Nat
  rest : Nat
  count : UInt8
  deriving DecidableEq, Repr, Inhabited

/-- The plan for a payload of `size` octets (SPEC §4.2). -/
def plan (size first rest : Nat) : Except Fault Plan :=
  let count := segmentCount size first rest
  if count ≤ maxSegments then .ok ⟨first, rest, UInt8.ofNat count⟩
  else .error (.tooManySegments count)

/-! ## Cutting -/

/-- A payload that is being cut: the number of the next part and the octets not yet cut off. -/
structure Cutter where
  plan : Plan
  next : Nat
  rest : Bytes
  deriving DecidableEq, Repr, Inhabited

/-- A payload of which nothing has been cut off. -/
def Plan.start (p : Plan) (payload : Bytes) : Cutter := ⟨p, 0, payload⟩

namespace Cutter

/-- How many parts are still to come. -/
def left (c : Cutter) : Nat := c.plan.count.toNat - c.next

/-- The size of the next part, if the payload lasts. -/
def nextSize (c : Cutter) : Nat := if c.next = 0 then c.plan.first else c.plan.rest

/-- The next part with its number, and what remains to be cut. -/
def next? (c : Cutter) : Option ((Nat × Bytes) × Cutter) :=
  if c.plan.count.toNat ≤ c.next then none
  else some ((c.next, c.rest.take c.nextSize),
    { c with next := c.next + 1, rest := c.rest.drop c.nextSize })

/-- At most `n` parts, and what remains to be cut. -/
def take : Nat → Cutter → List (Nat × Bytes) × Cutter
  | 0, c => ([], c)
  | n + 1, c =>
    match c.next? with
    | none => ([], c)
    | some (part, c) => let (parts, c) := take n c; (part :: parts, c)

/-- All the parts still to come. -/
def toList (c : Cutter) : List (Nat × Bytes) := (take c.left c).1

end Cutter

end Segmentation

open Segmentation

namespace Chunk

/-- The length of the shape of a chunk, with an empty payload and the largest number and count. -/
def shapeLength (id : StreamId) (destination : Option Destination) : Nat :=
  (Payload.encode (.chunk ⟨id, destination, 255, 255, []⟩)).length

/-- The plan for a message of `size` octets in packets of `max` octets (SPEC §10.3 item 7).  With
a destination, the first chunk names it. -/
def plan (id : StreamId) (destination : Option Destination) (size max : Nat) :
    Except Segmentation.Fault Plan :=
  match capacity max (overhead (shapeLength id none) max) with
  | .error e => .error e
  | .ok rest =>
    match destination with
    | none => Segmentation.plan size rest rest
    | some d =>
      match capacity max (overhead (shapeLength id (some d)) max) with
      | .error e => .error e
      | .ok first => Segmentation.plan size first rest

/-- The chunk that carries a part of a message. -/
def ofPart (id : StreamId) (destination : Option Destination) (count : UInt8)
    (part : Nat × Bytes) : Chunk :=
  ⟨id, if part.1 = 0 then destination else none, UInt8.ofNat part.1, count, part.2⟩

/-- The chunks of a message in packets of `max` octets.  An empty message is one chunk, which ends
the stream. -/
def segments (id : StreamId) (destination : Option Destination) (payload : Bytes) (max : Nat) :
    Except Segmentation.Fault (List Chunk) :=
  match plan id destination payload.length max with
  | .error e => .error e
  | .ok p => .ok ((p.start payload).toList.map (ofPart id destination p.count))

end Chunk

namespace TxSegment

/-- The length of the shape of a segment, with an empty payload and the largest number or count. -/
def shapeLength (shortId : ShortId) (opening : Option TxOpening) : Nat :=
  (Payload.encode (.segment ⟨shortId, 255, opening, []⟩)).length

/-- The plan for a transaction of `size` octets in packets of `max` octets (SPEC §10.3 item 7). -/
def plan (txId : TxId) (network : Network) (size max : Nat) : Except Segmentation.Fault Plan :=
  if size = 0 then .error .emptyPayload
  else match capacity max (overhead (shapeLength txId.short (some ⟨txId, 255, network⟩)) max) with
    | .error e => .error e
    | .ok first =>
      match capacity max (overhead (shapeLength txId.short none) max) with
      | .error e => .error e
      | .ok rest => Segmentation.plan size first rest

/-- The segment that carries a part of a transaction. -/
def ofPart (txId : TxId) (network : Network) (count : UInt8) (part : Nat × Bytes) : TxSegment :=
  ⟨txId.short, UInt8.ofNat part.1, if part.1 = 0 then some ⟨txId, count, network⟩ else none, part.2⟩

/-- The segments of a transaction in packets of `max` octets. -/
def segments (txId : TxId) (network : Network) (raw : Bytes) (max : Nat) :
    Except Segmentation.Fault (List TxSegment) :=
  match plan txId network raw.length max with
  | .error e => .error e
  | .ok p => .ok ((p.start raw).toList.map (ofPart txId network p.count))

end TxSegment

end Meshway
