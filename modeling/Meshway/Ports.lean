import Meshway.IoFault
set_option autoImplicit false

/-!
# Loopback ports (SPEC §5, §10.3 item 12)

Every bridge listens on a loopback port of its own.  Ports are handed out from
a counter shared by all callers, which goes round from the last port to the
first.  A call takes one step on the counter, and a second one when the counter
has gone round; other calls may come between the two.
-/

namespace Meshway

/-- The first port to hand out, and the counter.  A first port of zero leaves the choice to the
system. -/
structure PortAllocator where
  base : UInt16
  counter : UInt16
  deriving DecidableEq, Repr, Inhabited

/-- The port that a listener is bound to. -/
inductive BoundPort where
  /-- one that the system chose -/
  | system
  /-- one that was handed out -/
  | number (port : UInt16)
  deriving DecidableEq, Repr, Inhabited

namespace PortAllocator

/-- An allocator that has handed out nothing. -/
def new (base : UInt16) : PortAllocator := ⟨base, base⟩

/-- The step that every call takes: the counter before it, and the counter moved on by one. -/
def advance (a : PortAllocator) : UInt16 × PortAllocator :=
  (a.counter, { a with counter := a.counter + 1 })

/-- Whether the counter has gone round. -/
def wentRound (a : PortAllocator) (port : UInt16) : Bool := port == 0 || port < a.base

/-- The port after the first one, which is the last port if the first one is. -/
def second (a : PortAllocator) : UInt16 := if a.base = 0xffff then 0xffff else a.base + 1

/-- The step that a call takes when the counter has gone round: the first port is taken. -/
def restart (a : PortAllocator) : PortAllocator := { a with counter := a.second }

/-- The next port (SPEC §10.3 item 12). -/
def next (a : PortAllocator) : UInt16 × PortAllocator :=
  let (port, a) := a.advance
  if a.wentRound port then (a.base, a.restart) else (port, a)

/-- How many ports are tried for one listener. -/
def maxAttempts : Nat := 64

/-- Tries the next ports, `n` of them at most, until one is not taken. -/
def tryPorts (taken : UInt16 → Bool) : Nat → PortAllocator → Option UInt16 × PortAllocator
  | 0, a => (none, a)
  | n + 1, a =>
    let (port, a) := a.next
    if taken port then tryPorts taken n a else (some port, a)

/-- Binds a listener to a port that is not taken (SPEC §10.3 item 12). -/
def bind (a : PortAllocator) (taken : UInt16 → Bool) : Except IoFault BoundPort × PortAllocator :=
  if a.base = 0 then (.ok .system, a)
  else match tryPorts taken maxAttempts a with
    | (some port, a) => (.ok (.number port), a)
    | (none, a) => (.error .addressInUse, a)

end PortAllocator

end Meshway
