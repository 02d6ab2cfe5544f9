import Meshway.Bytes
import Meshway.IoFault
set_option autoImplicit false

/-!
# The byte pump (SPEC §4.5)

A pump carries octets between a client and a server, both ways, until both have
ended.  What is read from one side is written to the other before anything else
is read; the end of one side is passed on to the other.  The pump is a function
of what happens to it, so every order in which the two sides are served is a
list of events.
-/

namespace Meshway

/-- The two sides of a pump. -/
inductive Side where
  | client
  | server
  deriving DecidableEq, Repr, Inhabited

/-- The side across. -/
def Side.other : Side → Side
  | .client => .server
  | .server => .client

/-- Whether more may be read from each side, and how many octets went each way. -/
structure Pump where
  clientOpen : Bool
  serverOpen : Bool
  toServer : Nat
  toClient : Nat
  deriving DecidableEq, Repr, Inhabited

namespace Pump

/-- The most octets that one read takes. -/
def readSize : Nat := 8192

/-- A pump that has carried nothing. -/
def start : Pump := ⟨true, true, 0, 0⟩

/-- Whether both sides have ended. -/
def isDone (p : Pump) : Bool := !p.clientOpen && !p.serverOpen

/-- What a read asks to be done to a side. -/
inductive Task where
  | write (side : Side) (octets : Bytes)
  | shutdown (side : Side)
  deriving DecidableEq, Repr, Inhabited

/-- What a read from a side asks to be done: what was read is written across, and the end, which is
a read of no octets, is passed on. -/
def task (source : Side) (octets : Bytes) : Task :=
  if octets = [] then .shutdown source.other else .write source.other octets

/-- What happens to a pump. -/
inductive Event where
  /-- octets were read from a side, none at its end, and the task this asks for came out as told -/
  | read (source : Side) (octets : Bytes) (outcome : Except IoFault Unit)
  /-- reading from a side failed -/
  | readFailed (source : Side) (fault : IoFault)
  /-- nothing was carried for too long -/
  | idle

/-- Why a pump stopped before both sides had ended. -/
inductive Fault where
  | io (fault : IoFault)
  | idle
  deriving DecidableEq, Repr, Inhabited

/-- What becomes of a pump. -/
inductive Status where
  /-- it goes on -/
  | running (p : Pump)
  /-- both sides have ended, after so many octets to the server and to the client -/
  | finished (toServer toClient : Nat)
  /-- it stopped early -/
  | failed (fault : Fault)
  deriving DecidableEq, Repr, Inhabited

/-- The pump after a task was carried out. -/
def settle (p : Pump) (source : Side) (octets : Bytes) : Pump :=
  match source with
  | .client =>
    if octets = [] then { p with clientOpen := false }
    else { p with toServer := p.toServer + octets.length }
  | .server =>
    if octets = [] then { p with serverOpen := false }
    else { p with toClient := p.toClient + octets.length }

/-- What an event makes of a pump: the relay loop of SPEC §4.5. -/
def step (p : Pump) : Event → Status
  | .read source octets outcome =>
    match outcome with
    | .error fault => .failed (.io fault)
    | .ok () =>
      let q := p.settle source octets
      if q.isDone then .finished q.toServer q.toClient else .running q
  | .readFailed _ fault => .failed (.io fault)
  | .idle => .failed .idle

end Pump

end Meshway
