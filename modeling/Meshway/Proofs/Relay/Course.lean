import Mathlib.Logic.Function.Basic
import Meshway.Relay
set_option autoImplicit false

/-!
# The course of a relay (SPEC §4.5)

All that a relay can do, one call after the other.  It hears its client piece by
piece until the negotiation is over.  Then it pumps: while nothing is under way,
it may read from any side that is open, as many octets as it likes up to the
size of its buffer, and while octets are being written it does nothing else.
Any read and any write may fail, and time may pass between any two calls.  The
decisions are those of `Relay.negotiate`, `Pump.task` and `Relay.ofRead`; which
side is served, how much is read and how much is written at once are left open.
-/

namespace Meshway

namespace Pump

/-- Whether more may be read from a side. -/
def isOpen (p : Pump) : Side → Bool
  | .client => p.clientOpen
  | .server => p.serverOpen

/-- How many octets were carried to a side. -/
def carriedTo (p : Pump) : Side → Nat
  | .client => p.toClient
  | .server => p.toServer

end Pump

namespace RelayConfig

variable {config : RelayConfig} {clock : Clock}

theorem canWait_eq_false_iff : config.canWait clock = false ↔
    config.idleTimeoutSecs ≠ 0 ∧ clock.last < clock.now + Clock.millis config.idleTimeoutSecs := by
  simp [canWait, Clock.after?]

/-- What the clock cannot tell now it cannot tell later. -/
theorem canWait_pass (h : config.canWait clock = false) (ms : Nat) :
    config.canWait (clock.pass ms) = false := by
  rw [canWait_eq_false_iff] at h ⊢
  have hfar : clock.last < clock.now + ms + Clock.millis config.idleTimeoutSecs := by omega
  exact ⟨h.1, hfar⟩

end RelayConfig

@[simp] theorem Side.other_ne (side : Side) : side.other ≠ side := by cases side <;> decide

@[simp] theorem Side.other_other (side : Side) : side.other.other = side := by cases side <;> rfl

theorem Side.eq_other_iff {a b : Side} : a = b.other ↔ a.other = b := by
  cases a <;> cases b <;> decide

namespace Relay

/-- A relay goes down only where the clock cannot tell when the idle time would be over. -/
theorem canWait_of_ofRead {config : RelayConfig} {clock : Clock} {p : Pump} {source : Side}
    {octets : Bytes} {outcome : Except IoFault Unit}
    (h : ofRead config clock p source octets outcome = .crashed) :
    config.canWait clock = false := by
  cases outcome with
  | error fault => cases h
  | ok =>
    simp only [ofRead] at h
    split at h
    · cases hstatus : p.step (.read source octets (.ok ())) with
      | failed cause => cases cause <;> simp [hstatus, ofStatus] at h
      | running | finished => simp [hstatus, ofStatus] at h
    · rename_i hnot
      simpa using hnot

/-! ## Calls -/

/-- What a relay does, or finds out. -/
inductive Call where
  /-- octets were read from a side; none are its end -/
  | read (side : Side) (octets : Bytes)
  /-- a side took octets, all that is being written to it or a part -/
  | wrote (side : Side) (octets : Bytes)
  /-- the octets of one read have all been written to a side -/
  | carried (side : Side) (octets : Bytes)
  /-- a side was told that nothing more will be written to it -/
  | shutdown (side : Side)
  /-- the pump gives up -/
  | failed (fault : Pump.Fault)
  /-- a connection was asked for -/
  | asked (host : String) (port : UInt16)
  deriving DecidableEq, Repr

namespace Call

/-- The octets that a call reads from a side. -/
@[simp] def taken (side : Side) : Call → Bytes
  | read s octets => if s = side then octets else []
  | _ => []

/-- The octets that a call writes to a side. -/
@[simp] def written (side : Side) : Call → Bytes
  | wrote s octets => if s = side then octets else []
  | _ => []

/-- The octets whose way to a side a call completes. -/
@[simp] def carried? (side : Side) : Call → Option Bytes
  | carried s octets => if s = side then some octets else none
  | _ => none

/-- The connection that a call asks for. -/
@[simp] def asked? : Call → Option (String × UInt16)
  | asked host port => some (host, port)
  | _ => none

end Call

/-- The octets that were read from a side, in order. -/
def taken (side : Side) (calls : List Call) : Bytes := calls.flatMap (Call.taken side)

/-- The octets that were written to a side, in order. -/
def written (side : Side) (calls : List Call) : Bytes := calls.flatMap (Call.written side)

/-- What was written to a side, read by read, as far as all octets of the read were written. -/
def carried (side : Side) (calls : List Call) : List Bytes := calls.filterMap (Call.carried? side)

/-- The connections that were asked for. -/
def asked (calls : List Call) : List (String × UInt16) := calls.filterMap Call.asked?

section Views

variable {side : Side} {c : Call} {calls more : List Call}

@[simp] theorem taken_nil : taken side [] = [] := rfl

@[simp] theorem written_nil : written side [] = [] := rfl

@[simp] theorem carried_nil : carried side [] = [] := rfl

@[simp] theorem asked_nil : asked [] = [] := rfl

@[simp] theorem taken_cons : taken side (c :: calls) = c.taken side ++ taken side calls := rfl

@[simp] theorem written_cons :
    written side (c :: calls) = c.written side ++ written side calls := rfl

@[simp] theorem carried_cons :
    carried side (c :: calls) = (c.carried? side).toList ++ carried side calls := by
  rw [carried, List.filterMap_cons]
  cases c.carried? side <;> rfl

@[simp] theorem asked_cons : asked (c :: calls) = c.asked?.toList ++ asked calls := by
  rw [asked, List.filterMap_cons]
  cases c.asked? <;> rfl

@[simp] theorem taken_append : taken side (calls ++ more) = taken side calls ++ taken side more :=
  List.flatMap_append

@[simp] theorem written_append :
    written side (calls ++ more) = written side calls ++ written side more := List.flatMap_append

@[simp] theorem carried_append :
    carried side (calls ++ more) = carried side calls ++ carried side more :=
  List.filterMap_append

@[simp] theorem asked_append : asked (calls ++ more) = asked calls ++ asked more :=
  List.filterMap_append

end Views

/-! ## Situations -/

/-- What a relay is about to do. -/
inductive Phase where
  /-- nothing is under way -/
  | ready (relay : Relay)
  /-- octets were read from a side, and a task is still to be carried out for them -/
  | busy (pump : Pump) (source : Side) (octets : Bytes) (task : Pump.Task)

/-- The pump of a relay that has come so far and not finished. -/
def Phase.pump? : Phase → Option Pump
  | .ready (.pumping p) => some p
  | .busy p _ _ _ => some p
  | _ => none

/-- A relay between its two sides. -/
structure Situation where
  phase : Phase
  /-- the octets that a side offers and that were not read yet; its end is behind them -/
  ahead : Side → Bytes
  clock : Clock

/-- What the client and the server offer. -/
def offering (client server : Bytes) : Side → Bytes
  | .client => client
  | .server => server

/-- A relay that has heard nothing, whose sides offer the given octets. -/
def Situation.start (streams : Side → Bytes) (clock : Clock) : Situation :=
  ⟨.ready Relay.new, streams, clock⟩

/-- A pump that has carried nothing, whose sides offer the given octets. -/
def Situation.pump (streams : Side → Bytes) (clock : Clock) : Situation :=
  ⟨.ready (.pumping .start), streams, clock⟩

/-! ## Steps -/

/-- What was called while a piece of the client's octets was heard. -/
def heard (piece : Bytes) (t : Turn) : List Call :=
  .read .client (piece.take (piece.length - t.unread.length)) :: .wrote .client t.written ::
    t.targets.map fun target => .asked target.1 target.2

section Heard

variable {side : Side} {piece : Bytes} {targets : List (String × UInt16)} {t : Turn}

theorem taken_map_asked : taken side (targets.map fun target => .asked target.1 target.2) = [] := by
  induction targets with
  | nil => rfl
  | cons target targets ih => exact ih

theorem written_map_asked :
    written side (targets.map fun target => .asked target.1 target.2) = [] := by
  induction targets with
  | nil => rfl
  | cons target targets ih => exact ih

theorem asked_map_asked : asked (targets.map fun target => .asked target.1 target.2) = targets := by
  induction targets with
  | nil => rfl
  | cons target targets ih => simpa using ih

theorem taken_server_heard : taken .server (heard piece t) = [] := by
  simp [heard, taken_map_asked]

theorem written_client_heard : written .client (heard piece t) = t.written := by
  simp [heard, written_map_asked]

theorem written_server_heard : written .server (heard piece t) = [] := by
  simp [heard, written_map_asked]

theorem asked_heard : asked (heard piece t) = t.targets := by
  simp [heard, asked_map_asked]

end Heard

/-- One step of a relay, and the calls it consists of.  A client that keeps reading listens at every
step. -/
inductive Step (config : RelayConfig) (connect : String → UInt16 → Except RelayFault Unit)
    (keepsReading : Bool) : Situation → List Call → Situation → Prop where
  | pass {phase : Phase} {ahead : Side → Bytes} {clock : Clock} (ms : Nat) :
      Step config connect keepsReading ⟨phase, ahead, clock⟩ [] ⟨phase, ahead, clock.pass ms⟩
  /-- a piece of the client's octets arrives, perhaps with its end -/
  | hear {rest : Socks.Negotiation RelayFault} {ahead : Side → Bytes} {clock : Clock}
      {piece later : Bytes} {ended listening : Bool} {t : Turn}
      (hahead : ahead .client = piece ++ later) (hended : ended = true → later = [])
      (hlistening : keepsReading = true → listening = true)
      (hturn : negotiate ⟨piece, ended, listening⟩ connect rest piece = t) :
      Step config connect keepsReading ⟨.ready (.negotiating rest), ahead, clock⟩ (heard piece t)
        ⟨.ready t.relay, Function.update ahead .client (t.unread ++ later), clock⟩
  /-- the client takes too long to ask -/
  | late {rest : Socks.Negotiation RelayFault} {ahead : Side → Bytes} {clock : Clock} :
      Step config connect keepsReading ⟨.ready (.negotiating rest), ahead, clock⟩ []
        ⟨.ready (.finished (.error (.handshakeTimeout config.handshakeTimeoutSecs))), ahead, clock⟩
  | read {p : Pump} {source : Side} {ahead : Side → Bytes} {clock : Clock} {octets later : Bytes}
      (hopen : p.isOpen source = true) (hsize : octets.length ≤ Pump.readSize)
      (hahead : ahead source = octets ++ later) (hend : octets = [] → later = []) :
      Step config connect keepsReading ⟨.ready (.pumping p), ahead, clock⟩ [.read source octets]
        ⟨.busy p source octets (Pump.task source octets), Function.update ahead source later, clock⟩
  | readFailed {p : Pump} {source : Side} {ahead : Side → Bytes} {clock : Clock} {fault : IoFault}
      (hopen : p.isOpen source = true) :
      Step config connect keepsReading ⟨.ready (.pumping p), ahead, clock⟩ [.failed (.io fault)]
        ⟨.ready (ofStatus config (p.step (.readFailed source fault))), ahead, clock⟩
  /-- nothing was carried for too long, which matters unless the idle time is zero -/
  | idle {p : Pump} {ahead : Side → Bytes} {clock : Clock} (hidle : config.idleTimeoutSecs ≠ 0) :
      Step config connect keepsReading ⟨.ready (.pumping p), ahead, clock⟩ [.failed .idle]
        ⟨.ready (ofStatus config (p.step .idle)), ahead, clock⟩
  /-- the side takes a part of what is being written to it -/
  | write {p : Pump} {source side : Side} {ahead : Side → Bytes} {clock : Clock}
      {octets part left : Bytes} (hne : part ≠ []) :
      Step config connect keepsReading
        ⟨.busy p source octets (.write side (part ++ left)), ahead, clock⟩ [.wrote side part]
        ⟨.busy p source octets (.write side left), ahead, clock⟩
  | carry {p : Pump} {source side : Side} {ahead : Side → Bytes} {clock : Clock} {octets : Bytes} :
      Step config connect keepsReading ⟨.busy p source octets (.write side []), ahead, clock⟩
        [.carried side octets] ⟨.ready (ofRead config clock p source octets (.ok ())), ahead, clock⟩
  | writeFailed {p : Pump} {source side : Side} {ahead : Side → Bytes} {clock : Clock}
      {octets left : Bytes} {fault : IoFault} (hne : left ≠ []) :
      Step config connect keepsReading ⟨.busy p source octets (.write side left), ahead, clock⟩
        [.failed (.io fault)]
        ⟨.ready (ofRead config clock p source octets (.error fault)), ahead, clock⟩
  | shutdown {p : Pump} {source side : Side} {ahead : Side → Bytes} {clock : Clock}
      {octets : Bytes} :
      Step config connect keepsReading ⟨.busy p source octets (.shutdown side), ahead, clock⟩
        [.shutdown side] ⟨.ready (ofRead config clock p source octets (.ok ())), ahead, clock⟩
  | shutdownFailed {p : Pump} {source side : Side} {ahead : Side → Bytes} {clock : Clock}
      {octets : Bytes} {fault : IoFault} :
      Step config connect keepsReading ⟨.busy p source octets (.shutdown side), ahead, clock⟩
        [.shutdown side, .failed (.io fault)]
        ⟨.ready (ofRead config clock p source octets (.error fault)), ahead, clock⟩

/-- Steps one after the other, and all their calls. -/
inductive Runs (config : RelayConfig) (connect : String → UInt16 → Except RelayFault Unit)
    (keepsReading : Bool) : Situation → List Call → Situation → Prop where
  | refl {s : Situation} : Runs config connect keepsReading s [] s
  | step {s t u : Situation} {calls more : List Call} :
      Runs config connect keepsReading s calls t → Step config connect keepsReading t more u →
      Runs config connect keepsReading s (calls ++ more) u

section Runs

variable {config : RelayConfig} {connect : String → UInt16 → Except RelayFault Unit}
  {keepsReading : Bool} {s t u : Situation} {calls more : List Call}

theorem Runs.single (h : Step config connect keepsReading s calls t) :
    Runs config connect keepsReading s calls t := by
  simpa using Runs.refl.step h

theorem Runs.trans (h : Runs config connect keepsReading s calls t)
    (h' : Runs config connect keepsReading t more u) :
    Runs config connect keepsReading s (calls ++ more) u := by
  induction h' with
  | refl => simpa using h
  | step _ hstep ih => simpa using ih.step hstep

/-- A relay that is finished does nothing more. -/
theorem Runs.of_finished {result : RelayResult} {ahead : Side → Bytes} {clock : Clock}
    (h : Runs config connect keepsReading ⟨.ready (.finished result), ahead, clock⟩ calls t) :
    calls = [] ∧ ∃ later, t = ⟨.ready (.finished result), ahead, later⟩ := by
  induction h with
  | refl => exact ⟨rfl, clock, rfl⟩
  | step _ hstep ih =>
    obtain ⟨rfl, later, rfl⟩ := ih
    cases hstep with
    | pass ms => exact ⟨rfl, later.pass ms, rfl⟩

end Runs

end Relay

end Meshway
