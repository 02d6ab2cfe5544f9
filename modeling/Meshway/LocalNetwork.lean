import Meshway.IoFault
set_option autoImplicit false

/-!
# The local network

Clients, bridges and the process that owns the radio meet on the loopback
addresses of one host.  Addresses can be bound whether or not the network is
up, but only a network that is up carries anything between them.
-/

namespace Meshway

/-- Whether the network carries anything. -/
inductive LocalNetwork where
  | up
  | down
  deriving DecidableEq, Repr, Inhabited

namespace LocalNetwork

/-- What becomes of a connection to a port that somebody listens on, or nobody. -/
def connect (n : LocalNetwork) (listening : Bool) : Except IoFault Unit :=
  match n with
  | .down => .error .networkUnreachable
  | .up => if listening then .ok () else .error .refused

/-- The longest datagram that can be asked for. -/
def maxDatagram : Nat := 0xffff

/-- The longest datagram that the network carries: its own headers take up the rest. -/
def maxCarried : Nat := maxDatagram - 28

/-- What becomes of a datagram of a given length. -/
def datagram (n : LocalNetwork) (length : Nat) : Except IoFault Unit :=
  if maxDatagram < length then .error .messageTooLong
  else
    match n with
    | .down => .error .networkUnreachable
    | .up => if maxCarried < length then .error .messageTooLong else .ok ()

end LocalNetwork

end Meshway
