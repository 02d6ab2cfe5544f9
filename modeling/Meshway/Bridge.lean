import Meshway.Node
import Meshway.Ports
import Meshway.Stream.Registry
set_option autoImplicit false

/-!
# Bridges (SPEC §4.4, §10.3 items 6, 11 and 18)

A bridge joins a local connection to a stream of the mesh.  Opening it claims
the stream and binds a loopback port; the proxy connects to that port instead
of the real destination.  Every local read becomes one message, whose packets
go to the gateway; every message that arrives is written to the local
connection.

What a bridge does is a list of effects, one after the other.  Anything else on
the node may happen between two of them.
-/

namespace Meshway

/-- The stages of a bridge. -/
inductive BridgeState where
  | idle
  | streaming
  | closing
  | closed
  deriving DecidableEq, Repr, Inhabited

/-- Why a bridge does not open. -/
inductive BridgeFault where
  | alreadyOpen
  | inUse (id : StreamId)
  | segmentation (fault : Segmentation.Fault)
  | socket (fault : IoFault)
  deriving DecidableEq, Repr, Inhabited

/-- The wording of a fault. -/
def BridgeFault.message : BridgeFault → String
  | .alreadyOpen => "bridge was already opened"
  | .inUse id => Registry.inUseMessage id
  | .segmentation fault => s!"destination does not fit a stream packet: {fault.message}"
  | .socket fault => s!"loopback socket: {fault.message}"

/-- A bridge as others see it: its stage, and its stream once it was opened. -/
structure Bridge where
  state : BridgeState
  streamId : Option StreamId
  deriving DecidableEq, Repr, Inhabited

/-- What bridges on one node share. -/
structure BridgeHost where
  registry : Registry
  ports : PortAllocator

/-! ## The stream task -/

/-- How far the task of an opened bridge has come. -/
inductive TunnelStage where
  /-- waiting for the local connection -/
  | accepting
  /-- carrying messages -/
  | carrying
  /-- done -/
  | ended
  deriving DecidableEq, Repr, Inhabited

/-- The task of an opened bridge: the streaming and closing stages of SPEC §4.4.  The destination
goes with the first message. -/
structure Tunnel where
  registration : Registration
  destination : Option Destination
  stage : TunnelStage
  deriving DecidableEq, Repr, Inhabited

namespace Tunnel

/-- The most octets that one local read takes. -/
def readSize : Nat := 4096

/-- What happens to the task. -/
inductive Event where
  /-- the local connection was accepted -/
  | accepted
  /-- accepting failed -/
  | acceptFailed
  /-- nobody connected in time -/
  | acceptTimedOut
  /-- octets were read from the local connection, none at its end -/
  | localRead (octets : Bytes)
  /-- reading from the local connection failed -/
  | localReadFailed
  /-- a message arrived, and was written to the local connection -/
  | message (octets : Bytes)
  /-- a message arrived, and writing it to the local connection failed part of the way -/
  | messageFailed (octets written : Bytes)
  /-- the peer closed the stream, or the registry let go of it -/
  | remoteClosed
  deriving DecidableEq, Repr, Inhabited

/-- What the task does, one thing at a time. -/
inductive Effect where
  /-- the stage that others see becomes this one -/
  | become (state : BridgeState)
  /-- a packet is handed to the radio -/
  | send (p : Outbound)
  /-- octets are written to the local connection -/
  | write (octets : Bytes)
  /-- the claim on the stream is given up -/
  | release
  /-- the local connection is told that nothing follows -/
  | shutdown
  deriving DecidableEq, Repr, Inhabited

/-- The packets of one message to the gateway. -/
def packets (n : Node) (t : Tunnel) (octets : Bytes) : Except Segmentation.Fault (List Outbound) :=
  match Chunk.segments t.registration.id t.destination octets n.config.streamPacketBytes.toNat with
  | .error e => .error e
  | .ok chunks => .ok (chunks.map fun c => n.packet n.config.gatewayGid (.chunk c))

/-- The packet that tells the gateway that the stream has ended. -/
def closePacket (n : Node) (t : Tunnel) : Outbound :=
  n.packet n.config.gatewayGid (.chunk (.close t.registration.id))

/-- The end of the task once a local connection was accepted. -/
def wrapUp : List Effect := [.release, .shutdown, .become .closed]

/-- The end of the task for a local reason: the gateway is told. -/
def endLocally (n : Node) (t : Tunnel) : List Effect :=
  [.become .closing, .send (t.closePacket n)] ++ wrapUp

/-- The end of the task without a local connection. -/
def giveUp : List Effect := [.become .closed, .release]

/-- What an event makes of the task, and what the task does (SPEC §4.4). -/
def step (n : Node) (t : Tunnel) (e : Event) : Tunnel × List Effect :=
  let done : Tunnel := { t with stage := .ended }
  match t.stage, e with
  | .accepting, .accepted => ({ t with stage := .carrying }, [])
  | .accepting, .acceptFailed => (done, giveUp)
  | .accepting, .acceptTimedOut => (done, giveUp)
  | .carrying, .localRead octets =>
    if octets = [] then (done, t.endLocally n)
    else match t.packets n octets with
      | .error _ => (done, t.endLocally n)
      | .ok ps => ({ t with destination := none }, ps.map .send)
  | .carrying, .localReadFailed => (done, t.endLocally n)
  | .carrying, .message octets => (t, [.write octets])
  | .carrying, .messageFailed _ written => (done, .write written :: t.endLocally n)
  | .carrying, .remoteClosed => (done, .become .closing :: wrapUp)
  | _, _ => (t, [])

end Tunnel

/-! ## Opening -/

namespace Bridge

/-- A bridge that was not opened. -/
def new : Bridge := ⟨.idle, none⟩

/-- Opens a bridge to a host and port (SPEC §4.4, §10.3 item 11).  Whether a listener can be bound,
and to which address, is the system's affair: `listen` takes a port from the allocator.  When that
fails, the claim on the stream is given up. -/
def open? {α : Type} (n : Node) (listen : PortAllocator → Except IoFault α × PortAllocator)
    (b : Bridge) (h : BridgeHost) (host : String) (port : UInt16) :
    Except BridgeFault (α × Tunnel) × Bridge × BridgeHost :=
  if b.state ≠ .idle then (.error .alreadyOpen, b, h)
  else
    let id := StreamId.derive n.gid host port
    let destination : Destination := ⟨host, port⟩
    match Chunk.plan id (some destination) 0 n.config.streamPacketBytes.toNat with
    | .error e => (.error (.segmentation e), b, h)
    | .ok _ =>
      match h.registry.register? id with
      | none => (.error (.inUse id), b, h)
      | some (registration, registry) =>
        match listen h.ports with
        | (.error e, ports) => (.error (.socket e), b, ⟨registry.release registration, ports⟩)
        | (.ok a, ports) =>
          (.ok (a, ⟨registration, some destination, .accepting⟩), ⟨.streaming, some id⟩,
            ⟨registry, ports⟩)

end Bridge

end Meshway
