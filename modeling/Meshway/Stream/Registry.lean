import Meshway.Reassembly
set_option autoImplicit false

/-!
# The registry of streams (SPEC §4.3, §10.3 item 11)

A stream identity is claimed by a registration, which receives the messages
that arrive for it until the peer closes the stream or the registration is
given up.  An identity may be claimed again after that; registrations are told
apart by their generation, so giving up an old one never disturbs a newer one
of the same identity.
-/

namespace Meshway

/-- What a registration receives. -/
inductive StreamEvent where
  /-- a complete message -/
  | data (message : Bytes)
  /-- the peer closed the stream; nothing follows -/
  | closed
  deriving DecidableEq, Repr, Inhabited

/-- What becomes of a chunk. -/
inductive Delivery where
  /-- more chunks are expected -/
  | buffered
  /-- a message was handed over -/
  | delivered
  /-- the stream was closed -/
  | closed
  /-- nobody claims the stream -/
  | unknown
  deriving DecidableEq, Repr, Inhabited

/-- A claim on a stream identity. -/
structure Registration where
  id : StreamId
  generation : Nat
  deriving DecidableEq, Repr, Inhabited

/-- The outcome of asking for the next event. -/
inductive Received where
  /-- an event -/
  | event (e : StreamEvent)
  /-- nothing yet -/
  | pending
  /-- the registry has let go of the stream and everything was received -/
  | ended
  deriving DecidableEq, Repr, Inhabited

/-- The claims in force, the messages that have begun to arrive, and the events that registrations
have yet to receive.  `inboxes` holds a queue for every registration that has not been given up. -/
structure Registry where
  generations : Nat
  streams : Table StreamId Nat
  reassembler : Reassembler
  inboxes : Table Nat (List StreamEvent)

namespace Registry

/-- No claims. -/
def empty : Registry := ⟨0, Table.empty, Reassembler.empty, Table.empty⟩

instance : Inhabited Registry := ⟨empty⟩

/-- Whether an identity is claimed. -/
def isRegistered (r : Registry) (id : StreamId) : Bool := r.streams.contains id

/-- The number of claimed identities. -/
def size (r : Registry) : Nat := r.streams.size

/-- Claims an identity, unless it is claimed already (SPEC §10.3 item 11).  What had begun to arrive
for it is dropped. -/
def register? (r : Registry) (id : StreamId) : Option (Registration × Registry) :=
  if r.isRegistered id then none
  else
    let generation := r.generations + 1
    some (⟨id, generation⟩,
      { generations := generation
        streams := r.streams.insert id generation
        reassembler := r.reassembler.forget id
        inboxes := r.inboxes.insert generation [] })

/-- The wording when an identity is claimed already. -/
def inUseMessage (id : StreamId) : String := s!"stream {id.hex} is already open"

/-- Queues an event for a generation; `none` if its registration was given up. -/
def post? (r : Registry) (generation : Nat) (e : StreamEvent) : Option Registry :=
  (r.inboxes.get? generation).map fun queue =>
    { r with inboxes := r.inboxes.insert generation (queue ++ [e]) }

/-- Hands a chunk to the registration that claims its stream (SPEC §4.3). -/
def deliver (r : Registry) (c : Chunk) : Delivery × Registry :=
  match r.streams.get? c.streamId with
  | none => (.unknown, r)
  | some generation =>
    match r.reassembler.accept c with
    | (.pending, reassembler) => (.buffered, { r with reassembler })
    | (.complete message, reassembler) =>
      match post? { r with reassembler } generation (.data message) with
      | some r => (.delivered, r)
      | none => (.unknown, { r with reassembler, streams := r.streams.erase c.streamId })
    | (.closed, reassembler) =>
      let r := { r with reassembler, streams := r.streams.erase c.streamId }
      (.closed, (r.post? generation .closed).getD r)

/-- The next event of a registration. -/
def receive (r : Registry) (g : Registration) : Received × Registry :=
  match r.inboxes.get? g.generation with
  | some (e :: queue) => (.event e, { r with inboxes := r.inboxes.insert g.generation queue })
  | _ =>
    if r.streams.get? g.id = some g.generation then (.pending, r) else (.ended, r)

/-- Gives up a registration.  Its identity becomes free if it is still the one that claims it, and
what has begun to arrive for a free identity is dropped. -/
def release (r : Registry) (g : Registration) : Registry :=
  let streams :=
    if r.streams.get? g.id = some g.generation then r.streams.erase g.id else r.streams
  { r with
    streams
    reassembler := if streams.contains g.id then r.reassembler else r.reassembler.forget g.id
    inboxes := r.inboxes.erase g.generation }

end Registry

end Meshway
