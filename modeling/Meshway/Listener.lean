set_option autoImplicit false

/-!
# The listener (SPEC §4.6, §10.3 items 14 and 15)

The listener accepts connections and starts a relay for each.  When there is a
bound on the relays that run at once, it takes a permit before it accepts; the
relay keeps the permit until it ends.  After a failed accept the listener
rests, then gives the permit back and starts over.

The signal to stop may arrive at any time.  The loop looks for it only where it
waits, for a permit or for a connection, and not before anything else that it
waits for there: when a permit or a connection is there too, either may come
first.  So the arrival of the signal and its notice are two events.
-/

namespace Meshway

/-- Where the accept loop stands. -/
inductive ListenerStage where
  /-- waiting for a permit -/
  | waiting
  /-- waiting for a connection -/
  | accepting
  /-- resting after a failed accept -/
  | resting
  /-- no longer accepting -/
  | stopped
  deriving DecidableEq, Repr, Inhabited

/-- An accept loop: the bound if there is one, where the loop stands, whether the signal to stop has
arrived, the permits that nobody holds, and the number of relays that run. -/
structure Listener where
  bound : Option Nat
  stage : ListenerStage
  told : Bool
  free : Nat
  running : Nat
  deriving DecidableEq, Repr, Inhabited

namespace Listener

/-- What happens to the loop. -/
inductive Event where
  /-- a permit is taken, if one is free -/
  | permitted
  /-- a connection was accepted -/
  | accepted
  /-- accepting failed -/
  | acceptFailed
  /-- the rest is over -/
  | rested
  /-- a relay ended, in whatever way -/
  | relayEnded
  /-- the signal to stop arrives -/
  | shutdown
  /-- the loop notices that the signal has arrived -/
  | noticed
  deriving DecidableEq, Repr, Inhabited

/-- The most permits that can be counted. -/
def maxPermits : Nat := 0x1fffffffffffffff

/-- Where the loop starts over. -/
def start (bound : Option Nat) : ListenerStage := if bound.isSome then .waiting else .accepting

/-- A loop with a bound; zero is no bound (SPEC §10.3 item 14).  A bound that cannot be counted is
refused. -/
def new? (maxConnections : Option UInt64) : Option Listener :=
  let bound := (maxConnections.map UInt64.toNat).filter (0 < ·)
  if maxPermits < bound.getD 0 then none
  else some ⟨bound, start bound, false, bound.getD 0, 0⟩

/-- The number of permits that the loop holds. -/
def held (l : Listener) : Nat :=
  if l.bound.isSome ∧ (l.stage = .accepting ∨ l.stage = .resting) then 1 else 0

/-- Whether connections still reach the loop. -/
def isListening (l : Listener) : Bool := l.stage != .stopped

/-- Whether the loop stands where it looks for the signal. -/
def isLooking (l : Listener) : Bool := l.stage == .waiting || l.stage == .accepting

/-- What an event makes of the loop (SPEC §4.6).  An event that cannot happen where the loop stands
changes nothing. -/
def step (l : Listener) : Event → Listener
  | .permitted =>
    if l.stage = .waiting ∧ 0 < l.free then { l with stage := .accepting, free := l.free - 1 }
    else l
  | .accepted =>
    if l.stage = .accepting then { l with stage := start l.bound, running := l.running + 1 } else l
  | .acceptFailed => if l.stage = .accepting then { l with stage := .resting } else l
  | .rested =>
    if l.stage = .resting then { l with stage := start l.bound, free := l.free + l.held } else l
  | .relayEnded =>
    if 0 < l.running then
      { l with running := l.running - 1, free := if l.bound.isSome then l.free + 1 else l.free }
    else l
  | .shutdown => { l with told := true }
  | .noticed =>
    if l.told ∧ l.isLooking then { l with stage := .stopped, free := l.free + l.held } else l

/-- What events make of the loop, one after the other. -/
def run (l : Listener) (events : List Event) : Listener := events.foldl step l

end Listener

end Meshway
