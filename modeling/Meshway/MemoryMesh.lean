import Meshway.Radio
import Meshway.Table
set_option autoImplicit false

/-!
# A mesh within one process (SPEC §6, §10.3 item 17)

Nodes join the mesh under their identities and each gets an inbox.  A packet
reaches the inbox that its receiver was given last, if that is still there and
the receiver has not been taken off the mesh.
-/

namespace Meshway

/-- The inbox that each identity was given last, and the packets in the inboxes that are still
there. -/
structure MemoryMesh where
  inboxes : Nat
  current : Table UInt64 Nat
  queues : Table Nat (List Packet)

/-- The outcome of looking into an inbox. -/
inductive Incoming where
  /-- a packet -/
  | packet (p : Packet)
  /-- nothing yet -/
  | pending
  /-- nothing, and nothing can arrive any more -/
  | ended
  deriving DecidableEq, Repr, Inhabited

namespace MemoryMesh

/-- A mesh without nodes. -/
def empty : MemoryMesh := ⟨0, Table.empty, Table.empty⟩

instance : Inhabited MemoryMesh := ⟨empty⟩

/-- Joins an identity to the mesh with a new inbox. -/
def attach (m : MemoryMesh) (gid : UInt64) : Nat × MemoryMesh :=
  (m.inboxes, ⟨m.inboxes + 1, m.current.insert gid m.inboxes, m.queues.insert m.inboxes []⟩)

/-- Takes an identity off the mesh. -/
def detach (m : MemoryMesh) (gid : UInt64) : MemoryMesh :=
  { m with current := m.current.erase gid }

/-- Throws an inbox away. -/
def dropInbox (m : MemoryMesh) (inbox : Nat) : MemoryMesh :=
  { m with queues := m.queues.erase inbox }

/-- Takes a packet to the inbox of its receiver: the send primitive of SPEC §6. -/
def send (m : MemoryMesh) (sender : UInt64) (nowMs : Int) (p : Outbound) : Receipt × MemoryMesh :=
  let found := (m.current.get? p.receiver).bind fun inbox =>
    (m.queues.get? inbox).map fun queue => (inbox, queue)
  match found with
  | none => (.error (.notConnected p.receiver), m)
  | some (inbox, queue) =>
    (.ok (), { m with
      queues := m.queues.insert inbox (queue ++ [⟨sender, p.receiver, nowMs, p.data⟩]) })

/-- The mesh as the transport of one of its nodes. -/
def transport (sender : UInt64) (nowMs : Int) : Transport MemoryMesh where
  send := fun m p => m.send sender nowMs p

/-- Looks into an inbox. -/
def receive (m : MemoryMesh) (inbox : Nat) : Incoming × MemoryMesh :=
  match m.queues.get? inbox with
  | some (p :: queue) => (.packet p, { m with queues := m.queues.insert inbox queue })
  | _ =>
    if m.current.entries.any fun e => e.2 == inbox then (.pending, m) else (.ended, m)

/-- Puts packets into an inbox in place of those in it, if it is still there. -/
def refill (m : MemoryMesh) (inbox : Nat) (packets : List Packet) : MemoryMesh :=
  if m.queues.contains inbox then { m with queues := m.queues.insert inbox packets } else m

/-- Takes all packets from an inbox. -/
def drain (m : MemoryMesh) (inbox : Nat) : List Packet × MemoryMesh :=
  ((m.queues.get? inbox).getD [], m.refill inbox [])

end MemoryMesh

end Meshway
