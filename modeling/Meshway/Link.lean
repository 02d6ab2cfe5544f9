import Meshway.Frame
import Meshway.LocalNetwork
import Meshway.Radio
set_option autoImplicit false

/-!
# The datagram link (SPEC §10.3 item 17)

A node reaches the process that owns the radio over datagrams.  A packet is one
datagram; when the local network does not take it, the packet was rejected.
-/

namespace Meshway

/-- The end of a link that belongs to a node. -/
structure Link where
  gid : UInt64
  network : LocalNetwork
  deriving DecidableEq, Repr, Inhabited

namespace Link

/-- The datagram for a packet that leaves now. -/
def datagram (l : Link) (nowNs : Int) (p : Outbound) : Bytes :=
  Frame.Departure.encode ⟨l.gid, p.receiver, nowNs, p.data⟩ p.encrypt

/-- Sends a packet: the datagram that goes out, or why there is none. -/
def send (l : Link) (nowNs : Int) (p : Outbound) : Except SendFault Bytes :=
  let d := l.datagram nowNs p
  match l.network.datagram d.length with
  | .error e => .error (.rejected e.message)
  | .ok () => .ok d

/-- The packets that the node hears when the other end sends it datagrams, and an empty one that
marks their end. -/
def hear (l : Link) (datagrams : List Bytes) : Except IoFault (List Packet) := do
  (datagrams ++ [[]]).forM fun d => l.network.datagram d.length
  return datagrams.filterMap (Frame.receive l.gid)

end Link

end Meshway
