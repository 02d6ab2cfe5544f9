import Meshway.Relay
set_option autoImplicit false

/-!
# A relay between two pipes (SPEC §4.5, §10.3 item 18)

A relay whose client and server are the far ends of pipes in memory.  Its clock
is moved by nothing but waiting.  Between two actions of the far ends the relay
runs until it can do nothing more.
-/

namespace Meshway

/-- Octets on their way in one direction.  A pipe is closed when its writing end was ended or either
end has gone; what is in it can still be read. -/
structure Pipe where
  buffer : Bytes
  closed : Bool
  deriving DecidableEq, Repr, Inhabited

namespace Pipe

/-- A pipe with nothing in it. -/
def empty : Pipe := ⟨[], false⟩

/-- Ends the pipe. -/
def close (p : Pipe) : Pipe := { p with closed := true }

/-- Writes octets. -/
def write (p : Pipe) (octets : Bytes) : Except IoFault Unit × Pipe :=
  if octets = [] then (.ok (), p)
  else if p.closed then (.error .brokenPipe, p)
  else (.ok (), { p with buffer := p.buffer ++ octets })

/-- Whether a read would come to an end: there is something, or there will never be. -/
def isReady (p : Pipe) : Bool := p.closed || !p.buffer.isEmpty

end Pipe

/-- One far end: the pipe from it, the pipe to it, and what it has seen. -/
structure FarEnd where
  sending : Pipe
  receiving : Pipe
  /-- whether it has gone away -/
  gone : Bool
  /-- whether it has seen the end of its input -/
  sawEnd : Bool
  deriving DecidableEq, Repr, Inhabited

namespace FarEnd

/-- A far end that has done nothing. -/
def new : FarEnd := ⟨Pipe.empty, Pipe.empty, false, false⟩

/-- The near end goes away. -/
def abandon (f : FarEnd) : FarEnd :=
  { f with sending := ⟨[], true⟩, receiving := f.receiving.close }

/-- The far end goes away. -/
def leave (f : FarEnd) : FarEnd :=
  { f with sending := f.sending.close, receiving := ⟨[], true⟩, gone := true }

/-- The far end reads all that has arrived. -/
def drain (f : FarEnd) : Bytes × FarEnd :=
  if f.gone then ([], f)
  else (f.receiving.buffer, { f with
    receiving := { f.receiving with buffer := [] }, sawEnd := f.sawEnd || f.receiving.closed })

end FarEnd

/-- A relay, its far ends, and its clock. -/
structure Session where
  config : RelayConfig
  connect : String → UInt16 → Except RelayFault Unit
  relay : Relay
  client : FarEnd
  server : FarEnd
  clock : Clock
  /-- when the relay gives up, if nothing happens -/
  deadline : Option Nat
  /-- the destinations asked for so far -/
  targets : List (String × UInt16)

namespace Session

/-- The longest that the first octets are waited for, in milliseconds: thirty years of 365 days. -/
def longestFirstWait : Nat := 30 * 365 * 86400 * 1000

/-- When a connection that has not carried anything yet is given up. -/
def firstDeadline (s : Session) : Option Nat :=
  if s.config.idleTimeoutSecs = 0 then none
  else some (s.clock.now + min (Clock.millis s.config.idleTimeoutSecs) longestFirstWait)

/-- When a connection that has just carried something, and carries nothing from now on, is given
up. -/
def idleDeadline (s : Session) : Option Nat :=
  if s.config.idleTimeoutSecs = 0 then none
  else s.clock.after? (Clock.millis s.config.idleTimeoutSecs)

/-- A relay that has heard nothing. -/
def serve (config : RelayConfig) (connect : String → UInt16 → Except RelayFault Unit) : Session :=
  ⟨config, connect, Relay.new, FarEnd.new, FarEnd.new, Clock.ofHost,
    some (Clock.ofHost.now + Clock.millis config.handshakeTimeoutSecs), []⟩

/-- A pump on its own. -/
def pump (config : RelayConfig) : Session :=
  let s : Session := { serve config (fun _ _ => .ok ()) with relay := .pumping Pump.start }
  { s with deadline := s.firstDeadline }

/-- Puts the relay where it has come to.  One that is finished or went down lets go of both
pipes. -/
def become (s : Session) (relay : Relay) : Session :=
  match s.relay, relay with
  | _, .negotiating _ => { s with relay }
  | .pumping _, .pumping _ => { s with relay, deadline := s.idleDeadline }
  | _, .pumping _ => { s with relay, deadline := s.firstDeadline }
  | _, .finished _ | _, .crashed =>
    { s with relay, deadline := none, client := s.client.abandon, server := s.server.abandon }

/-- Lets a negotiation have what has arrived. -/
def negotiate (s : Session) (rest : Socks.Negotiation RelayFault) : Session :=
  let sending := s.client.sending
  let client : Client := ⟨sending.buffer, sending.closed, !s.client.receiving.closed⟩
  let t := Relay.negotiate client s.connect rest sending.buffer
  let (_, receiving) := s.client.receiving.write t.written
  become { s with
    client := { s.client with sending := { sending with buffer := t.unread }, receiving }
    targets := s.targets ++ t.targets } t.relay

/-- A far end. -/
def farEnd (s : Session) : Side → FarEnd
  | .client => s.client
  | .server => s.server

/-- Replaces a far end. -/
def setFarEnd (s : Session) (side : Side) (f : FarEnd) : Session :=
  match side with
  | .client => { s with client := f }
  | .server => { s with server := f }

/-- Carries out what a read asks for. -/
def perform (s : Session) : Pump.Task → Except IoFault Unit × Session
  | .write side octets =>
    let f := s.farEnd side
    let (r, receiving) := f.receiving.write octets
    (r, s.setFarEnd side { f with receiving })
  | .shutdown side =>
    let f := s.farEnd side
    (.ok (), s.setFarEnd side { f with receiving := f.receiving.close })

/-- Lets a pump read from a side. -/
def carry (s : Session) (p : Pump) (source : Side) : Session :=
  let f := s.farEnd source
  let octets := f.sending.buffer.take Pump.readSize
  let rest := f.sending.buffer.drop Pump.readSize
  let s := s.setFarEnd source { f with sending := { f.sending with buffer := rest } }
  let (outcome, s) := s.perform (Pump.task source octets)
  s.become (Relay.ofRead s.config s.clock p source octets outcome)

/-- Whether the time is up. -/
def isLate (s : Session) : Bool := s.deadline.any (· ≤ s.clock.now)

/-- The next thing that the relay does, if it can do anything. -/
def step? (s : Session) : Option Session :=
  match s.relay with
  | .negotiating rest =>
    if s.client.sending.isReady then some (s.negotiate rest)
    else if s.isLate then
      some (s.become (.finished (.error (.handshakeTimeout s.config.handshakeTimeoutSecs))))
    else none
  | .pumping p =>
    if p.clientOpen && s.client.sending.isReady then some (s.carry p .client)
    else if p.serverOpen && s.server.sending.isReady then some (s.carry p .server)
    else if s.isLate then some (s.become (Relay.ofStatus s.config (p.step .idle)))
    else none
  | .finished _ | .crashed => none

/-- Lets the relay do at most `n` things. -/
def steps : Nat → Session → Session
  | 0, s => s
  | n + 1, s =>
    match s.step? with
    | none => s
    | some s => steps n s

/-- Lets the relay run until it can do nothing more.  Every step but a few takes octets out of a
pipe or ends a side. -/
def run (s : Session) : Session :=
  steps (s.client.sending.buffer.length + s.server.sending.buffer.length + 8) s

/-! ## What the far ends do -/

/-- An action of a far end, or waiting. -/
inductive Action where
  | write (side : Side) (octets : Bytes)
  | finish (side : Side)
  | leave (side : Side)
  | wait (ms : Nat)
  deriving DecidableEq, Repr, Inhabited

/-- What a far end finds out when it acts. -/
inductive Note where
  /-- it has gone away before -/
  | gone
  /-- its write failed -/
  | failed (fault : IoFault)
  deriving DecidableEq, Repr, Inhabited

/-- What is seen after an action. -/
structure Report where
  toClient : Bytes
  toServer : Bytes
  clientEnd : Bool
  serverEnd : Bool
  note : Option Note
  /-- the destinations asked for during the action -/
  targets : List (String × UInt16)
  /-- the result, if the relay finished during the action -/
  result : Option RelayResult

/-- Carries out an action, before the relay runs. -/
def act (s : Session) : Action → Option Note × Session
  | .write side octets =>
    let f := s.farEnd side
    if f.gone then (some .gone, s)
    else match f.sending.write octets with
      | (.error e, _) => (some (.failed e), s)
      | (.ok (), sending) => (none, s.setFarEnd side { f with sending })
  | .finish side =>
    let f := s.farEnd side
    if f.gone then (some .gone, s)
    else (none, s.setFarEnd side { f with sending := f.sending.close })
  | .leave side => (none, s.setFarEnd side (s.farEnd side).leave)
  | .wait ms =>
    let s := s.run
    (none, { s with clock := s.clock.pass ms })

/-- The result of a relay that is finished. -/
def result? (s : Session) : Option RelayResult :=
  match s.relay with
  | .finished r => some r
  | _ => none

/-- An action, all that the relay does about it, and what is seen. -/
def play (s : Session) (a : Action) : Report × Session :=
  let (note, t) := s.act a
  let t := t.run
  let (toClient, client) := t.client.drain
  let (toServer, server) := t.server.drain
  let t := { t with client, server }
  (⟨toClient, toServer, client.sawEnd, server.sawEnd, note, t.targets.drop s.targets.length,
    if s.result?.isSome then none else t.result?⟩, t)

end Session

end Meshway
