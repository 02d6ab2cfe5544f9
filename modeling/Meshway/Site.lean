import Meshway.Bridge
import Meshway.Dispatcher
import Meshway.LocalNetwork
import Meshway.MemoryMesh
set_option autoImplicit false

/-!
# A site (SPEC §4.4)

A site is a node with its bridges and the gateway that the node sends to, on a
mesh within one process.  Bridges are numbered.  Local clients reach them over
the local network, if it is up; whatever reaches the node over the mesh goes
through its dispatcher and from the registry to the bridges.
-/

namespace Meshway

/-- A client of a bridge: what it has yet to read, and whether nothing follows that. -/
structure LocalClient where
  unread : Bytes
  ended : Bool
  deriving DecidableEq, Repr, Inhabited

/-- The local end of a bridge: the bridge, the port it was opened on, its task and its client. -/
structure LocalEnd where
  bridge : Bridge
  port : Option BoundPort
  task : Option Tunnel
  client : Option LocalClient
  deriving DecidableEq, Repr, Inhabited

namespace LocalEnd

/-- The local end of a bridge that was not opened. -/
def new : LocalEnd := ⟨.new, none, none, none⟩

/-- Whether a bridge waits for a client. -/
def isAccepting (e : LocalEnd) : Bool := e.task.any fun t => t.stage == .accepting

end LocalEnd

/-- A node with its bridges, and the gateway. -/
structure Site where
  node : Node
  network : LocalNetwork
  mesh : MemoryMesh
  inbox : Nat
  gatewayInbox : Nat
  dispatcher : Dispatcher
  ports : PortAllocator
  ends : Table Nat LocalEnd

namespace Site

/-- A site where nothing was opened or sent. -/
def new (node : Node) (network : LocalNetwork) : Site :=
  let (inbox, mesh) := MemoryMesh.empty.attach node.gid
  let (gatewayInbox, mesh) := mesh.attach node.config.gatewayGid
  { node, network, mesh, inbox, gatewayInbox
    dispatcher := ⟨.empty, none⟩
    ports := .new node.config.loopbackBasePort
    ends := .empty }

/-- The local end of a bridge. -/
def localEnd (s : Site) (k : Nat) : LocalEnd := (s.ends.get? k).getD .new

/-- The number of streams that are open. -/
def streams (s : Site) : Nat := s.dispatcher.registry.size

/-- Changes the local end of a bridge. -/
def change (s : Site) (k : Nat) (f : LocalEnd → LocalEnd) : Site :=
  { s with ends := s.ends.insert k (f (s.localEnd k)) }

/-! ## The tasks of bridges -/

/-- Does one thing that the task of a bridge does. -/
def perform (s : Site) (k : Nat) : Tunnel.Effect → Site
  | .become state => s.change k fun e => { e with bridge.state := state }
  | .send p => { s with mesh := (s.mesh.send s.node.gid 0 p).2 }
  | .write octets => s.change k fun e =>
      { e with client := e.client.map fun c => { c with unread := c.unread ++ octets } }
  | .release =>
    match (s.localEnd k).task with
    | none => s
    | some t => { s with
        dispatcher.registry := s.dispatcher.registry.release t.registration }
  | .shutdown => s.change k fun e =>
      { e with client := e.client.map fun c => { c with ended := true } }

/-- Lets something happen to the task of a bridge. -/
def react (s : Site) (k : Nat) (event : Tunnel.Event) : Site :=
  match (s.localEnd k).task with
  | none => s
  | some t =>
    let (t, effects) := t.step s.node event
    effects.foldl (fun s effect => s.perform k effect)
      (s.change k fun e => { e with task := some t })

/-- Takes at most so many events from the registry to a bridge that carries messages. -/
def hear (k : Nat) : Nat → Site → Site
  | 0, s => s
  | n + 1, s =>
    match (s.localEnd k).task with
    | none => s
    | some t =>
      if t.stage ≠ .carrying then s
      else
        let (received, registry) := s.dispatcher.registry.receive t.registration
        let s := { s with dispatcher.registry := registry }
        match received with
        | .event (.data message) => hear k n (s.react k (.message message))
        | .event .closed | .ended => s.react k .remoteClosed
        | .pending => s

/-- Takes everything that the registry holds for a bridge to it. -/
def settle (s : Site) (k : Nat) : Site :=
  match (s.localEnd k).task with
  | none => s
  | some t =>
    hear k (((s.dispatcher.registry.inboxes.get? t.registration.generation).getD []).length + 1) s

/-- Takes the packets in the node's inbox to the registry, and the messages to the bridges. -/
def dispatch (s : Site) : Site :=
  let (packets, mesh) := s.mesh.drain s.inbox
  let s := { s with mesh, dispatcher := s.dispatcher.run packets }
  s.ends.entries.foldl (fun s e => s.settle e.1) s

/-! ## What happens locally -/

/-- Whether a bridge waits for a client on a port. -/
def isTaken (s : Site) (port : UInt16) : Bool :=
  s.ends.entries.any fun e => e.2.isAccepting && e.2.port == some (.number port)

/-- Opens a bridge to a host and port. -/
def openBridge (s : Site) (k : Nat) (host : String) (port : UInt16) :
    Except BridgeFault Unit × Site :=
  let e := s.localEnd k
  let (r, bridge, shared) := Bridge.open? s.node (·.bind s.isTaken) e.bridge
    ⟨s.dispatcher.registry, s.ports⟩ host port
  let s := { s with dispatcher.registry := shared.registry, ports := shared.ports }
  match r with
  | .error fault => (.error fault, s.change k fun e => { e with bridge })
  | .ok (port, task) => (.ok (), s.change k fun _ => ⟨bridge, some port, some task, none⟩)

/-- Connects a client to a bridge. -/
def connect (s : Site) (k : Nat) : Except IoFault Site :=
  match s.network.connect (s.localEnd k).isAccepting with
  | .error e => .error e
  | .ok () =>
    let s := s.change k fun e => { e with client := some ⟨[], false⟩ }
    .ok ((s.react k .accepted).settle k)

/-- Splits octets into what local reads take, in at most so many reads. -/
def reads : Nat → Bytes → List Bytes
  | 0, _ => []
  | n + 1, octets =>
    if octets = [] then []
    else octets.take Tunnel.readSize :: reads n (octets.drop Tunnel.readSize)

/-- The client of a bridge writes octets. -/
def write (s : Site) (k : Nat) (octets : Bytes) : Site :=
  (reads octets.length octets).foldl (fun s piece => s.react k (.localRead piece)) s

/-- The client of a bridge writes nothing more. -/
def finish (s : Site) (k : Nat) : Site := s.react k (.localRead [])

/-- The client of a bridge goes away, if there is one. -/
def leave (s : Site) (k : Nat) : Site :=
  if (s.localEnd k).client.isNone then s
  else (s.react k (.localRead [])).change k fun e => { e with client := none }

/-- Bridges that wait for a client have waited long enough. -/
def elapse (s : Site) : Site :=
  s.ends.entries.foldl (fun s e => if e.2.isAccepting then s.react e.1 .acceptTimedOut else s) s

/-- Waits until a bridge is closed, if that can still happen. -/
def awaitClosed? (s : Site) (k : Nat) : Option Site :=
  let isClosed (s : Site) : Bool := (s.localEnd k).bridge.state == .closed
  if isClosed s then some s else some s.elapse |>.filter isClosed

/-- Waits until so many streams are open, if that can still happen. -/
def awaitStreams? (s : Site) (n : Nat) : Option Site :=
  if s.streams = n then some s else some s.elapse |>.filter fun s => s.streams = n

/-- The client of a bridge reads octets, if so many have arrived. -/
def read? (s : Site) (k n : Nat) : Option (Bytes × Site) :=
  (s.localEnd k).client.bind fun c =>
    if n ≤ c.unread.length then
      some (c.unread.take n, s.change k fun e =>
        { e with client := some { c with unread := c.unread.drop n } })
    else none

/-! ## What the gateway does -/

/-- The gateway sends a packet. -/
def gatewaySend (s : Site) (receiver : UInt64) (data : Data) : Receipt × Site :=
  let (receipt, mesh) := s.mesh.send s.node.config.gatewayGid 0 ⟨receiver, data, false⟩
  (receipt, { s with mesh }.dispatch)

/-- The gateway sends packets one after the other. -/
def gatewaySendAll (receiver : UInt64) : Site → List Data → List Receipt × Site
  | s, [] => ([], s)
  | s, d :: ds =>
    let (r, s) := s.gatewaySend receiver d
    let (rs, s) := gatewaySendAll receiver s ds
    (r :: rs, s)

/-- The chunk that a packet carries. -/
def chunkOf (p : Packet) : Option Chunk :=
  match Message.ofPacket p with
  | .ok (.chunk c) => some c
  | _ => none

/-- The packets up to the one that ends a stream, or up to so many octets of payload, and those
after them; none when there are not enough. -/
def splitAtGoal (goal : Option Nat) : List Packet → Option (List Packet × List Packet)
  | [] => if goal = some 0 then some ([], []) else none
  | p :: ps =>
    if goal = some 0 then some ([], p :: ps)
    else if (chunkOf p).any (·.isClose) then some ([p], ps)
    else
      let size := (chunkOf p).elim 0 (·.payload.length)
      (splitAtGoal (goal.map (· - size)) ps).map fun (before, after) => (p :: before, after)

/-- The gateway takes packets up to a goal. -/
def gatewayReceive? (s : Site) (goal : Option Nat) : Option (List Packet × Site) :=
  let (packets, mesh) := s.mesh.drain s.gatewayInbox
  (splitAtGoal goal packets).map fun (before, after) =>
    (before, { s with mesh := mesh.refill s.gatewayInbox after })

end Site

end Meshway
