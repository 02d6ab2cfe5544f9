import Meshway.Proofs.Dialogue
import Meshway.Proofs.Pump
import Meshway.Relay.Session
set_option autoImplicit false

/-!
# Sessions follow a course (SPEC §4.5)

A relay between two pipes does nothing that the course of a relay does not
allow.  It serves the client first, reads as much as fits its buffer and writes
it at once; whatever its far ends do, and however long they wait, what they have
written is what the course reads, and what they see is the beginning of what it
writes.
-/

namespace Meshway

namespace Relay

/-- A client that does not listen is told nothing when it is heard, and nothing when it is
answered. -/
theorem written_negotiate_of_not_listening {client : Client}
    {connect : String → UInt16 → Except RelayFault Unit} (h : client.listening = false)
    (rest : Socks.Negotiation RelayFault) (input : Bytes) :
    (negotiate client connect rest input).written = [] := by
  have hheard := @Dialogue.written_of_not_listening _ _ client connect h rest input
  unfold negotiate
  simp only
  split
  · exact hheard
  · exact hheard
  · exact hheard
  · rename_i r _
    have hanswered := @Dialogue.written_of_not_listening _ _ client connect h (answer r)
    simp [conclude, hheard, hanswered]

/-- Whether a relay still serves its client. -/
def isServing : Relay → Bool
  | negotiating _ | pumping _ => true
  | finished _ | crashed => false

end Relay

namespace Session

open Relay

variable {keepsReading : Bool} {relay : Relay} {offered seen later : Side → Bytes}
  {calls : List Call} {origin s t : Session} {side source : Side} {octets : Bytes} {p : Pump}
  {f : FarEnd}

/-! ## Far ends -/

@[simp] theorem farEnd_setFarEnd {side' : Side} :
    (s.setFarEnd side f).farEnd side' = if side = side' then f else s.farEnd side' := by
  cases side <;> cases side' <;> rfl

@[simp] theorem config_setFarEnd : (s.setFarEnd side f).config = s.config := by
  cases side <;> rfl

@[simp] theorem connect_setFarEnd : (s.setFarEnd side f).connect = s.connect := by
  cases side <;> rfl

@[simp] theorem clock_setFarEnd : (s.setFarEnd side f).clock = s.clock := by
  cases side <;> rfl

@[simp] theorem relay_setFarEnd : (s.setFarEnd side f).relay = s.relay := by
  cases side <;> rfl

@[simp] theorem deadline_setFarEnd : (s.setFarEnd side f).deadline = s.deadline := by
  cases side <;> rfl

@[simp] theorem targets_setFarEnd : (s.setFarEnd side f).targets = s.targets := by
  cases side <;> rfl

/-- What lies ahead when the far ends are to write something more behind what is on its way. -/
def ahead (s : Session) (later : Side → Bytes) (side : Side) : Bytes :=
  (s.farEnd side).sending.buffer ++ later side

/-- Nothing more is to be written by a far end that has ended. -/
def CanFollow (s : Session) (later : Side → Bytes) : Prop :=
  ∀ side, (s.farEnd side).sending.closed = true → later side = []

/-! ## What is seen -/

/-- What was seen of a pipe and what is still in it is the beginning of what was written, and all of
it unless the pipe is closed. -/
structure Shows (seen : Bytes) (pipe : Pipe) (written : Bytes) : Prop where
  isPrefix : seen ++ pipe.buffer <+: written
  eq : pipe.closed = false → seen ++ pipe.buffer = written

section Shows

variable {sight : Bytes} {pipe : Pipe} {told : Bytes}

theorem Shows.write (h : Shows sight pipe told) (hclosed : pipe.closed = true → octets = []) :
    Shows sight (pipe.write octets).2 (told ++ octets) := by
  by_cases hnil : octets = []
  · simpa [Pipe.write, hnil] using h
  · have hopen : pipe.closed = false := Bool.eq_false_iff.2 fun hc => hnil (hclosed hc)
    have hall : sight ++ (pipe.buffer ++ octets) = told ++ octets := by
      rw [← List.append_assoc, h.eq hopen]
    simp only [Pipe.write, hnil, hopen]
    exact ⟨⟨[], by rw [List.append_nil]; exact hall⟩, fun _ => hall⟩

theorem closed_write : (pipe.write octets).2.closed = pipe.closed := by
  unfold Pipe.write
  split
  · rfl
  · split <;> rfl

theorem Shows.close (h : Shows sight pipe told) : Shows sight pipe.close told :=
  ⟨h.isPrefix, nofun⟩

/-- What is in a pipe may be lost. -/
theorem Shows.lose (h : Shows sight pipe told) : Shows sight ⟨[], true⟩ told := by
  refine ⟨?_, nofun⟩
  rw [List.append_nil]
  exact (List.prefix_append _ _).trans h.isPrefix

end Shows

/-! ## Keeping to a course -/

/-- A session that has come from another to a relay by certain calls, when its far ends have offered
and seen certain octets. -/
structure Follows (keepsReading : Bool) (origin : Session) (offered seen : Side → Bytes)
    (s : Session) (relay : Relay) (calls : List Call) : Prop where
  config_eq : s.config = origin.config
  connect_eq : s.connect = origin.connect
  runs : ∀ later, s.CanFollow later → ∃ ahead, Runs origin.config origin.connect keepsReading
    ⟨.ready origin.relay, fun side => offered side ++ later side, origin.clock⟩ calls
      ⟨.ready relay, ahead, s.clock⟩ ∧
    (relay.isServing = true → ahead = s.ahead later)
  asked_eq : asked calls = s.targets
  shows : ∀ side, Shows (seen side) (s.farEnd side).receiving (written side calls)

/-- A session that waits for ever when it is told to. -/
def Patient (s : Session) : Prop :=
  s.config.idleTimeoutSecs = 0 → ∀ p, s.relay = .pumping p → s.deadline = none

/-! ### Coming to a relay -/

theorem become_negotiating (rest : Socks.Negotiation RelayFault) :
    s.become (.negotiating rest) = { s with relay := .negotiating rest } := by
  rw [become]

theorem become_pumping (p : Pump) : ∃ deadline,
    s.become (.pumping p) = { s with relay := .pumping p, deadline } ∧
      (s.config.idleTimeoutSecs = 0 → deadline = none) := by
  unfold become
  cases s.relay with
  | pumping => exact ⟨s.idleDeadline, rfl, fun h => if_pos h⟩
  | negotiating | finished | crashed => exact ⟨s.firstDeadline, rfl, fun h => if_pos h⟩

/-- A relay that serves its client no more lets go of both pipes. -/
theorem become_of_not_serving (h : relay.isServing = false) : s.become relay =
    { s with relay, deadline := none, client := s.client.abandon, server := s.server.abandon } := by
  cases relay with
  | negotiating | pumping => cases h
  | finished | crashed => rw [become]

theorem relay_become : (s.become relay).relay = relay := by
  cases relay with
  | negotiating rest => rw [become_negotiating]
  | pumping p =>
    obtain ⟨deadline, h, -⟩ := s.become_pumping p
    rw [h]
  | finished | crashed => rw [become_of_not_serving rfl]

theorem patient_become : (s.become relay).Patient := by
  intro hforever p hpumping
  rw [relay_become] at hpumping
  subst hpumping
  obtain ⟨deadline, h, hdeadline⟩ := s.become_pumping p
  rw [h] at hforever ⊢
  exact hdeadline hforever

/-- A relay that lets go of its pipes has called nothing, and nobody has seen anything. -/
theorem Follows.become (h : Follows keepsReading origin offered seen s relay calls) :
    Follows keepsReading origin offered seen (s.become relay) (s.become relay).relay calls := by
  rw [relay_become]
  cases relay with
  | negotiating rest =>
    rw [become_negotiating]
    exact ⟨h.config_eq, h.connect_eq, h.runs, h.asked_eq, h.shows⟩
  | pumping p =>
    obtain ⟨deadline, hbecome, -⟩ := s.become_pumping p
    rw [hbecome]
    exact ⟨h.config_eq, h.connect_eq, h.runs, h.asked_eq, h.shows⟩
  | finished | crashed =>
    rw [become_of_not_serving rfl]
    refine ⟨h.config_eq, h.connect_eq, ?_, h.asked_eq, ?_⟩
    · intro later hlater
      -- both far ends have ended, so nothing more is to come
      obtain rfl : later = fun _ => [] := funext fun side => by
        cases side <;> exact hlater _ rfl
      obtain ⟨ahead, hruns, -⟩ := h.runs (fun _ => []) fun _ _ => rfl
      exact ⟨ahead, hruns, nofun⟩
    · intro side
      cases side
      · exact (h.shows .client).close
      · exact (h.shows .server).close

/-! ### What the relay does -/

/-- The turn that a negotiation takes when it has what has arrived. -/
def turn (s : Session) (rest : Socks.Negotiation RelayFault) : Turn :=
  Relay.negotiate ⟨s.client.sending.buffer, s.client.sending.closed, !s.client.receiving.closed⟩
    s.connect rest s.client.sending.buffer

/-- The session once a turn was taken and the relay has not yet come to anything. -/
def afterTurn (s : Session) (t : Turn) : Session :=
  let sending := { s.client.sending with buffer := t.unread }
  let receiving := (s.client.receiving.write t.written).2
  { s with client := { s.client with sending, receiving }, targets := s.targets ++ t.targets }

theorem negotiate_eq (rest : Socks.Negotiation RelayFault) :
    s.negotiate rest = (s.afterTurn (s.turn rest)).become (s.turn rest).relay := rfl

/-- A relay hears what has arrived from its client. -/
theorem Follows.negotiate {rest : Socks.Negotiation RelayFault}
    (h : Follows keepsReading origin offered seen s (.negotiating rest) calls)
    (hlistening : keepsReading = true → s.client.receiving.closed = false) :
    ∃ more, Follows keepsReading origin offered seen (s.negotiate rest) (s.negotiate rest).relay
      (calls ++ more) := by
  refine ⟨heard s.client.sending.buffer (s.turn rest), ?_⟩
  rw [negotiate_eq]
  refine Follows.become ⟨h.config_eq, h.connect_eq, ?_, ?_, ?_⟩
  · intro later hlater
    have hcan : s.CanFollow later := fun side hclosed =>
      hlater side (by cases side <;> exact hclosed)
    obtain ⟨_, hruns, hahead⟩ := h.runs later hcan
    obtain rfl := hahead rfl
    have hstep := @Step.hear origin.config origin.connect keepsReading rest (s.ahead later) s.clock
      s.client.sending.buffer (later .client) s.client.sending.closed (!s.client.receiving.closed)
      (s.turn rest) rfl (hcan .client) (fun hkeeps => by rw [hlistening hkeeps]; rfl)
      (by rw [← h.connect_eq]; rfl)
    refine ⟨_, hruns.step hstep, fun _ => ?_⟩
    funext side
    cases side
    · rfl
    · rfl
  · rw [asked_append, asked_heard, h.asked_eq]
    rfl
  · intro side
    cases side with
    | client =>
      rw [written_append, written_client_heard]
      refine (h.shows .client).write fun hclosed => ?_
      exact written_negotiate_of_not_listening (by simpa [farEnd] using hclosed) _ _
    | server =>
      rw [written_append, written_server_heard, List.append_nil]
      exact h.shows .server

/-- The session once a pump has read from a side and not yet done what this asks for. -/
def afterRead (s : Session) (source : Side) : Session :=
  s.setFarEnd source { s.farEnd source with
    sending := { (s.farEnd source).sending with
      buffer := (s.farEnd source).sending.buffer.drop Pump.readSize } }

theorem sending_afterRead : ((s.afterRead source).farEnd side).sending =
    if source = side then { (s.farEnd side).sending with
      buffer := (s.farEnd side).sending.buffer.drop Pump.readSize }
    else (s.farEnd side).sending := by
  by_cases hside : source = side
  · subst hside
    simp [afterRead]
  · simp [afterRead, hside]

theorem receiving_afterRead :
    ((s.afterRead source).farEnd side).receiving = (s.farEnd side).receiving := by
  by_cases hside : source = side
  · subst hside
    simp [afterRead]
  · simp [afterRead, hside]

/-- The session once a pump has also changed what it writes to the other side. -/
def afterTask (s : Session) (source : Side) (pipe : Pipe) : Session :=
  (s.afterRead source).setFarEnd source.other
    { (s.afterRead source).farEnd source.other with receiving := pipe }

section AfterTask

variable {pipe : Pipe}

@[simp] theorem config_afterTask : (s.afterTask source pipe).config = s.config := by
  simp [afterTask, afterRead]

@[simp] theorem connect_afterTask : (s.afterTask source pipe).connect = s.connect := by
  simp [afterTask, afterRead]

@[simp] theorem clock_afterTask : (s.afterTask source pipe).clock = s.clock := by
  simp [afterTask, afterRead]

@[simp] theorem targets_afterTask : (s.afterTask source pipe).targets = s.targets := by
  simp [afterTask, afterRead]

theorem sending_afterTask : ((s.afterTask source pipe).farEnd side).sending =
    ((s.afterRead source).farEnd side).sending := by
  by_cases hside : source.other = side
  · subst hside
    simp [afterTask]
  · simp [afterTask, hside]

theorem receiving_afterTask : ((s.afterTask source pipe).farEnd side).receiving =
    if source.other = side then pipe else (s.farEnd side).receiving := by
  by_cases hside : source.other = side
  · simp [afterTask, hside]
  · simp [afterTask, hside, receiving_afterRead]

end AfterTask

/-- What a task makes of the pipe that it is about. -/
def afterOn (pipe : Pipe) : Pump.Task → Except IoFault Unit × Pipe
  | .write _ octets => pipe.write octets
  | .shutdown _ => (.ok (), pipe.close)

theorem perform_task : (s.afterRead source).perform (Pump.task source octets) =
    ((afterOn (s.farEnd source.other).receiving (Pump.task source octets)).1,
      s.afterTask source
        (afterOn (s.farEnd source.other).receiving (Pump.task source octets)).2) := by
  rw [← @receiving_afterRead s source.other source]
  unfold Pump.task
  split <;> rfl

theorem carry_eq (hoctets : (s.farEnd source).sending.buffer.take Pump.readSize = octets) :
    s.carry p source =
      (s.afterTask source (afterOn (s.farEnd source.other).receiving
        (Pump.task source octets)).2).become
      (ofRead s.config s.clock p source octets
        (afterOn (s.farEnd source.other).receiving (Pump.task source octets)).1) := by
  have hcarry : s.carry p source =
      let done := (s.afterRead source).perform (Pump.task source octets)
      done.2.become (ofRead done.2.config done.2.clock p source octets done.1) := by
    subst hoctets
    rfl
  rw [hcarry, perform_task]
  simp only [config_afterTask, clock_afterTask]

/-- A pump reads, and what this asks for is done by some calls that read nothing. -/
theorem Follows.read (h : Follows keepsReading origin offered seen s (.pumping p) calls)
    (hopen : p.isOpen source = true) (hready : (s.farEnd source).sending.isReady = true)
    (hoctets : (s.farEnd source).sending.buffer.take Pump.readSize = octets) {pipe : Pipe}
    {tail : List Call} (hasked : asked tail = []) (hwritten : written source tail = [])
    (hpipe : Shows (seen source.other) pipe
      (written source.other calls ++ written source.other tail))
    (htail : ∀ ahead, Runs origin.config origin.connect keepsReading
      ⟨.busy p source octets (Pump.task source octets), ahead, s.clock⟩ tail
        ⟨.ready relay, ahead, s.clock⟩) :
    Follows keepsReading origin offered seen (s.afterTask source pipe) relay
      (calls ++ .read source octets :: tail) := by
  refine ⟨by simpa using h.config_eq, by simpa using h.connect_eq, ?_, ?_, ?_⟩
  · intro later hlater
    have hcan : s.CanFollow later := fun side hclosed => by
      refine hlater side ?_
      rw [sending_afterTask, sending_afterRead]
      split <;> exact hclosed
    obtain ⟨_, hruns, hahead⟩ := h.runs later hcan
    obtain rfl := hahead rfl
    have hsplit : s.ahead later source = octets ++
        ((s.farEnd source).sending.buffer.drop Pump.readSize ++ later source) := by
      rw [← hoctets, ← List.append_assoc, List.take_append_drop]
      rfl
    have hsize : octets.length ≤ Pump.readSize := by
      rw [← hoctets]
      exact List.length_take_le _ _
    -- a pipe that is ready and empty is closed, so a read of nothing is the end
    have hend : octets = [] →
        (s.farEnd source).sending.buffer.drop Pump.readSize ++ later source = [] := by
      intro hnil
      have hempty : (s.farEnd source).sending.buffer = [] := by
        simpa [hnil, Pump.readSize] using hoctets
      have hclosed : (s.farEnd source).sending.closed = true := by
        simpa [Pipe.isReady, hempty] using hready
      rw [hempty, hcan source hclosed, List.drop_nil, List.append_nil]
    have hupdate : Function.update (s.ahead later) source
        ((s.farEnd source).sending.buffer.drop Pump.readSize ++ later source) =
          (s.afterTask source pipe).ahead later := by
      funext side
      rw [ahead, sending_afterTask, sending_afterRead]
      by_cases hside : source = side
      · subst hside
        simp
      · simp [hside, Function.update_of_ne (Ne.symm hside), ahead]
    have hread := @Step.read origin.config origin.connect keepsReading p source (s.ahead later)
      s.clock octets _ hopen hsize hsplit hend
    rw [hupdate] at hread
    refine ⟨_, ?_, fun _ => rfl⟩
    rw [List.append_cons, clock_afterTask]
    exact (hruns.step hread).trans (htail _)
  · simp [hasked, h.asked_eq]
  · intro side
    rw [receiving_afterTask]
    by_cases hside : source.other = side
    · subst hside
      simpa using hpipe
    · have hsource : source = side := by
        cases source <;> cases side <;> simp_all [Side.other]
      subst hsource
      simpa [hwritten] using h.shows source

/-- A pump carries what it reads from a side to the other. -/
theorem Follows.carry (h : Follows keepsReading origin offered seen s (.pumping p) calls)
    (hopen : p.isOpen source = true) (hready : (s.farEnd source).sending.isReady = true) :
    ∃ more, Follows keepsReading origin offered seen (s.carry p source) (s.carry p source).relay
      (calls ++ more) := by
  obtain ⟨octets, hoctets⟩ : ∃ octets,
    (s.farEnd source).sending.buffer.take Pump.readSize = octets := ⟨_, rfl⟩
  have hpipe := h.shows source.other
  rw [carry_eq hoctets, h.config_eq]
  generalize (s.farEnd source.other).receiving = pipe at hpipe
  by_cases hnil : octets = []
  · subst hnil
    refine ⟨[.read source [], .shutdown source.other], Follows.become ?_⟩
    refine h.read hopen hready hoctets rfl rfl ?_ fun _ => Runs.single .shutdown
    have hsilent : written source.other [.shutdown source.other] = [] := rfl
    rw [hsilent, List.append_nil]
    exact hpipe.close
  · have htask : Pump.task source octets = .write source.other octets := if_neg hnil
    rw [htask, afterOn]
    cases hclosed : pipe.closed with
    | true =>
      have hfails : pipe.write octets = (.error .brokenPipe, pipe) := by
        simp [Pipe.write, hnil, hclosed]
      rw [hfails]
      refine ⟨[.read source octets, .failed (.io .brokenPipe)], Follows.become ?_⟩
      refine h.read hopen hready hoctets rfl rfl ?_ fun ahead => ?_
      · simpa using hpipe
      · rw [htask]
        exact Runs.single (.writeFailed hnil)
    | false =>
      have hsucceeds : pipe.write octets = (.ok (), (pipe.write octets).2) := by
        simp [Pipe.write, hnil, hclosed]
      rw [hsucceeds]
      refine ⟨[.read source octets, .wrote source.other octets, .carried source.other octets],
        Follows.become ?_⟩
      refine h.read hopen hready hoctets rfl (by simp) ?_ fun ahead => ?_
      · simpa using hpipe.write fun hc => Bool.noConfusion (hclosed.symm.trans hc)
      · rw [htask]
        have hwrote := Runs.single (@Step.write origin.config origin.connect keepsReading p source
          source.other ahead s.clock octets octets [] hnil)
        rw [List.append_nil] at hwrote
        exact hwrote.step .carry

/-- A relay comes to an end without writing anything. -/
theorem Follows.stop {old : Relay} {result : RelayResult} {more : List Call}
    (h : Follows keepsReading origin offered seen s old calls) (hasked : asked more = [])
    (hwritten : ∀ side, written side more = [])
    (hstep : ∀ ahead, Step origin.config origin.connect keepsReading
      ⟨.ready old, ahead, s.clock⟩ more ⟨.ready (.finished result), ahead, s.clock⟩) :
    Follows keepsReading origin offered seen s (.finished result) (calls ++ more) := by
  refine ⟨h.config_eq, h.connect_eq, ?_, ?_, ?_⟩
  · intro later hlater
    obtain ⟨ahead, hruns, -⟩ := h.runs later hlater
    exact ⟨ahead, hruns.step (hstep ahead), nofun⟩
  · rw [asked_append, hasked, List.append_nil, h.asked_eq]
  · intro side
    rw [written_append, hwritten, List.append_nil]
    exact h.shows side

/-! ### Steps -/

/-- What a step can be. -/
inductive Does (s : Session) : Session → Prop where
  | negotiate {rest : Socks.Negotiation RelayFault} (hrelay : s.relay = .negotiating rest) :
      Does s (s.negotiate rest)
  | late {rest : Socks.Negotiation RelayFault} (hrelay : s.relay = .negotiating rest) :
      Does s (s.become (.finished (.error (.handshakeTimeout s.config.handshakeTimeoutSecs))))
  | carry {p : Pump} {source : Side} (hrelay : s.relay = .pumping p)
      (hopen : p.isOpen source = true) (hready : (s.farEnd source).sending.isReady = true) :
      Does s (s.carry p source)
  | idle {p : Pump} (hrelay : s.relay = .pumping p) (hlate : s.isLate = true) :
      Does s (s.become (ofStatus s.config (p.step .idle)))

theorem does_of_step? (h : s.step? = some t) : s.Does t := by
  unfold step? at h
  split at h
  · rename_i rest hrelay
    split at h
    · cases h
      exact .negotiate hrelay
    · split at h
      · cases h
        exact .late hrelay
      · cases h
  · rename_i p hrelay
    split at h
    · rename_i hready
      cases h
      obtain ⟨hopen, hready⟩ := Bool.and_eq_true_iff.1 hready
      exact @Does.carry s p .client hrelay hopen hready
    · split at h
      · rename_i hready
        cases h
        obtain ⟨hopen, hready⟩ := Bool.and_eq_true_iff.1 hready
        exact @Does.carry s p .server hrelay hopen hready
      · split at h
        · rename_i hlate
          cases h
          exact .idle hrelay hlate
        · cases h
  · cases h
  · cases h

/-- A client that keeps reading is still there while it is heard. -/
def Listens (keepsReading : Bool) (s : Session) : Prop :=
  keepsReading = true → ∀ rest, s.relay = .negotiating rest → s.client.receiving.closed = false

/-- A session that keeps to a course, hears a client that keeps reading, and waits for ever when it
is told to. -/
structure Keeps (keepsReading : Bool) (origin : Session) (offered seen : Side → Bytes) (s : Session)
    (calls : List Call) : Prop where
  follows : Follows keepsReading origin offered seen s s.relay calls
  listens : s.Listens keepsReading
  patient : s.Patient

theorem ofRead_ne_negotiating {outcome : Except IoFault Unit} {config : RelayConfig} {clock : Clock}
    {rest : Socks.Negotiation RelayFault} :
    ofRead config clock p source octets outcome ≠ .negotiating rest := by
  have hstatus : ∀ status, ofStatus config status ≠ .negotiating rest := by
    intro status
    unfold ofStatus
    split <;> nofun
  unfold ofRead
  split
  · split
    · exact hstatus _
    · nofun
  · exact hstatus _

theorem listens_carry : (s.carry p source).Listens keepsReading := by
  intro _ rest hrelay
  rw [Session.carry] at hrelay
  simp only [relay_become] at hrelay
  exact absurd hrelay ofRead_ne_negotiating

theorem listens_negotiate {rest : Socks.Negotiation RelayFault} (h : s.Listens keepsReading)
    (hrelay : s.relay = .negotiating rest) : (s.negotiate rest).Listens keepsReading := by
  intro hkeeps rest' hstill
  rw [negotiate_eq, relay_become] at hstill
  rw [negotiate_eq, hstill, become_negotiating]
  exact closed_write.trans (h hkeeps rest hrelay)

/-- Whatever the relay does next, it keeps to the course. -/
theorem Keeps.step (h : Keeps keepsReading origin offered seen s calls) (hstep : s.step? = some t) :
    ∃ more, Keeps keepsReading origin offered seen t (calls ++ more) := by
  have hfollows := h.follows
  have hconfig := hfollows.config_eq
  cases does_of_step? hstep with
  | negotiate hrelay =>
    rw [hrelay] at hfollows
    obtain ⟨more, hmore⟩ := hfollows.negotiate fun hkeeps => h.listens hkeeps _ hrelay
    exact ⟨more, hmore, listens_negotiate h.listens hrelay, patient_become⟩
  | late hrelay =>
    rw [hrelay] at hfollows
    refine ⟨[], (hfollows.stop rfl (fun _ => rfl) fun _ => ?_).become, ?_, patient_become⟩
    · rw [hconfig]
      exact .late
    · intro _ _ hnot
      rw [relay_become] at hnot
      cases hnot
  | @carry p source hrelay hopen hready =>
    rw [hrelay] at hfollows
    obtain ⟨more, hmore⟩ := hfollows.carry hopen hready
    exact ⟨more, hmore, listens_carry, patient_become⟩
  | idle hrelay hlate =>
    have hidle : origin.config.idleTimeoutSecs ≠ 0 := by
      intro hforever
      rw [← hconfig] at hforever
      rw [isLate, h.patient hforever _ hrelay] at hlate
      cases hlate
    rw [hrelay] at hfollows
    refine ⟨[.failed .idle], (hfollows.stop rfl (fun _ => rfl) fun _ => ?_).become, ?_,
      patient_become⟩
    · rw [hconfig]
      exact .idle hidle
    · intro _ _ hnot
      rw [relay_become] at hnot
      cases hnot

theorem Keeps.run (h : Keeps keepsReading origin offered seen s calls) :
    ∃ more, Keeps keepsReading origin offered seen s.run (calls ++ more) := by
  have hsteps : ∀ n (s : Session) calls, Keeps keepsReading origin offered seen s calls →
      ∃ more, Keeps keepsReading origin offered seen (steps n s) (calls ++ more) := by
    intro n
    induction n with
    | zero => exact fun s calls h => ⟨[], by simpa [steps] using h⟩
    | succ n ih =>
      intro s calls h
      rw [steps]
      split
      · exact ⟨[], by simpa using h⟩
      · rename_i t hstep
        obtain ⟨first, hfirst⟩ := h.step hstep
        obtain ⟨more, hmore⟩ := ih t _ hfirst
        exact ⟨first ++ more, by rwa [← List.append_assoc]⟩
  exact hsteps _ s calls h

/-! ### What the far ends do -/

/-- The octets that an action puts on their way from a side, unless it fails. -/
def Action.offers (a : Action) (note : Option Note) (side : Side) : Bytes :=
  match a, note with
  | .write s octets, none => if s = side then octets else []
  | _, _ => []

/-- A far end may write more if it has not ended, and lose what it has not seen. -/
theorem Keeps.setFarEnd (h : Keeps keepsReading origin offered seen s calls)
    (hbuffer : f.sending.buffer = (s.farEnd side).sending.buffer ++ octets)
    (hclosed : (s.farEnd side).sending.closed = true → octets = [] ∧ f.sending.closed = true)
    (hshows : ∀ {sight told}, Shows sight (s.farEnd side).receiving told →
      Shows sight f.receiving told)
    (hlistens : keepsReading = true → side = .client →
      f.receiving.closed = (s.farEnd side).receiving.closed) :
    Keeps keepsReading origin (fun other => offered other ++ if side = other then octets else [])
      seen (s.setFarEnd side f) calls := by
  refine ⟨⟨by simpa using h.follows.config_eq, by simpa using h.follows.connect_eq, ?_, ?_, ?_⟩,
    ?_, ?_⟩
  · intro later hlater
    have hcan : s.CanFollow fun other => (if side = other then octets else []) ++ later other := by
      intro other hended
      by_cases hside : side = other
      · subst hside
        obtain ⟨hnil, hstill⟩ := hclosed hended
        simpa [hnil] using hlater side (by simpa using hstill)
      · simpa [hside] using hlater other (by simpa [hside] using hended)
    obtain ⟨ahead, hruns, hahead⟩ := h.follows.runs _ hcan
    refine ⟨ahead, by simpa using hruns, fun hnot => ?_⟩
    rw [relay_setFarEnd] at hnot
    rw [hahead hnot]
    funext other
    by_cases hside : side = other
    · subst hside
      simp [Session.ahead, hbuffer]
    · simp [Session.ahead, hside]
  · simpa using h.follows.asked_eq
  · intro other
    by_cases hside : side = other
    · subst hside
      simpa using hshows (h.follows.shows side)
    · simpa [hside] using h.follows.shows other
  · intro hkeeps rest hrelay
    have hclient := h.listens hkeeps rest (by simpa using hrelay)
    cases side with
    | client => exact (hlistens hkeeps rfl).trans hclient
    | server => exact hclient
  · intro hforever p hpumping
    simpa using h.patient (by simpa using hforever) p (by simpa using hpumping)

/-- A far end may also end. -/
theorem Keeps.setFarEnd_same (h : Keeps keepsReading origin offered seen s calls)
    (hbuffer : f.sending.buffer = (s.farEnd side).sending.buffer)
    (hclosed : (s.farEnd side).sending.closed = true → f.sending.closed = true)
    (hshows : ∀ {sight told}, Shows sight (s.farEnd side).receiving told →
      Shows sight f.receiving told)
    (hlistens : keepsReading = true → side = .client →
      f.receiving.closed = (s.farEnd side).receiving.closed) :
    Keeps keepsReading origin offered seen (s.setFarEnd side f) calls := by
  simpa using h.setFarEnd (by rw [hbuffer, List.append_nil]) (fun hc => ⟨rfl, hclosed hc⟩) hshows
    hlistens

/-- Time passes. -/
theorem Keeps.pass (h : Keeps keepsReading origin offered seen s calls) (ms : Nat) :
    Keeps keepsReading origin offered seen { s with clock := s.clock.pass ms } calls := by
  refine ⟨⟨h.follows.config_eq, h.follows.connect_eq, ?_, h.follows.asked_eq, h.follows.shows⟩,
    h.listens, h.patient⟩
  intro later hlater
  obtain ⟨ahead, hruns, hahead⟩ := h.follows.runs later hlater
  exact ⟨ahead, by simpa using hruns.step (.pass ms), hahead⟩

/-- Whatever a far end does, the session keeps to the course. -/
theorem Keeps.act (h : Keeps keepsReading origin offered seen s calls) (a : Action)
    (hstays : keepsReading = true → a ≠ .leave .client) :
    ∃ more, Keeps keepsReading origin (fun side => offered side ++ a.offers (s.act a).1 side) seen
      (s.act a).2 (calls ++ more) := by
  -- most actions offer nothing
  have hnothing : ∀ {t more}, Keeps keepsReading origin offered seen t (calls ++ more) →
      (∀ side, a.offers (s.act a).1 side = []) →
      Keeps keepsReading origin (fun side => offered side ++ a.offers (s.act a).1 side) seen t
        (calls ++ more) := by
    intro t more ht hoffers
    simpa [hoffers] using ht
  cases a with
  | write side octets =>
    refine ⟨[], ?_⟩
    rw [List.append_nil]
    by_cases hgone : (s.farEnd side).gone = true
    · have hact : s.act (.write side octets) = (some .gone, s) := by simp [Session.act, hgone]
      simpa [hact, Action.offers] using h
    · by_cases hnil : octets = []
      · have hact : s.act (.write side octets) = (none, s.setFarEnd side { s.farEnd side with
              sending := (s.farEnd side).sending }) := by
          simp [Session.act, hgone, Pipe.write, hnil]
        rw [hact]
        simpa [Action.offers, hnil] using h.setFarEnd_same rfl id id fun _ _ => rfl
      · by_cases hclosed : (s.farEnd side).sending.closed = true
        · have hact : s.act (.write side octets) = (some (.failed .brokenPipe), s) := by
            simp [Session.act, hgone, Pipe.write, hnil, hclosed]
          simpa [hact, Action.offers] using h
        · have hact : s.act (.write side octets) = (none, s.setFarEnd side { s.farEnd side with
              sending := { (s.farEnd side).sending with
                buffer := (s.farEnd side).sending.buffer ++ octets } }) := by
            simp [Session.act, hgone, Pipe.write, hnil, hclosed]
          rw [hact]
          exact h.setFarEnd rfl (fun hc => absurd hc hclosed) id fun _ _ => rfl
  | finish side =>
    refine ⟨[], hnothing ?_ fun _ => rfl⟩
    rw [List.append_nil]
    unfold Session.act
    simp only
    split
    · exact h
    · exact h.setFarEnd_same rfl (fun _ => rfl) id fun _ _ => rfl
  | leave side =>
    refine ⟨[], hnothing ?_ fun _ => rfl⟩
    rw [List.append_nil]
    refine h.setFarEnd_same rfl (fun _ => rfl) Shows.lose ?_
    rintro hkeeps rfl
    exact absurd rfl (hstays hkeeps)
  | wait ms =>
    obtain ⟨more, hmore⟩ := h.run
    exact ⟨more, hnothing (hmore.pass ms) fun _ => rfl⟩

theorem Shows.drain {sight told : Bytes} (h : Shows sight f.receiving told) :
    Shows (sight ++ f.drain.1) f.drain.2.receiving told := by
  unfold FarEnd.drain
  split
  · simpa using h
  · exact ⟨by simpa using h.isPrefix, by simpa using h.eq⟩

theorem sending_drain : f.drain.2.sending = f.sending := by
  unfold FarEnd.drain
  split <;> rfl

theorem closed_drain : f.drain.2.receiving.closed = f.receiving.closed := by
  unfold FarEnd.drain
  split <;> rfl

/-- The session once both far ends have read all that has arrived. -/
def drained (s : Session) : Session :=
  { s with client := s.client.drain.2, server := s.server.drain.2 }

theorem farEnd_drained : s.drained.farEnd side = (s.farEnd side).drain.2 := by
  cases side <;> rfl

theorem Keeps.drain (h : Keeps keepsReading origin offered seen s calls) :
    Keeps keepsReading origin offered (fun side => seen side ++ (s.farEnd side).drain.1) s.drained
      calls := by
  have hsending : ∀ side, (s.drained.farEnd side).sending = (s.farEnd side).sending := by
    intro side
    rw [farEnd_drained, sending_drain]
  refine ⟨⟨h.follows.config_eq, h.follows.connect_eq, ?_, h.follows.asked_eq, ?_⟩, ?_, h.patient⟩
  · intro later hlater
    have hcan : s.CanFollow later := fun side hclosed => hlater side (by rwa [hsending])
    obtain ⟨ahead, hruns, hahead⟩ := h.follows.runs later hcan
    refine ⟨ahead, hruns, fun hnot => ?_⟩
    rw [hahead hnot]
    funext side
    rw [Session.ahead, Session.ahead, hsending]
  · intro side
    rw [farEnd_drained]
    exact (h.follows.shows side).drain
  · intro hkeeps rest hrelay
    exact closed_drain.trans (h.listens hkeeps rest hrelay)

/-- What a far end sees after an action. -/
def Report.sees (r : Report) : Side → Bytes
  | .client => r.toClient
  | .server => r.toServer

theorem sees_play (s : Session) (a : Action) (side : Side) :
    (s.play a).1.sees side = (((s.act a).2.run).farEnd side).drain.1 := by
  cases side <;> rfl

theorem Keeps.play (h : Keeps keepsReading origin offered seen s calls) (a : Action)
    (hstays : keepsReading = true → a ≠ .leave .client) :
    ∃ more, Keeps keepsReading origin (fun side => offered side ++ a.offers (s.play a).1.note side)
      (fun side => seen side ++ (s.play a).1.sees side) (s.play a).2 (calls ++ more) := by
  obtain ⟨acted, hacted⟩ := h.act a hstays
  obtain ⟨ran, hran⟩ := hacted.run
  refine ⟨acted ++ ran, ?_⟩
  rw [← List.append_assoc]
  simp only [sees_play]
  exact hran.drain

/-! ## Whole plays -/

/-- Actions one after the other, each with what is seen after it. -/
def plays (s : Session) : List Action → List (Action × Report) × Session
  | [] => ([], s)
  | a :: actions =>
    let (r, t) := s.play a
    let (reports, u) := plays t actions
    ((a, r) :: reports, u)

/-- All that a far end put on its way. -/
def offeredBy (side : Side) (reports : List (Action × Report)) : Bytes :=
  reports.flatMap fun (a, r) => a.offers r.note side

/-- All that a far end saw. -/
def seenBy (side : Side) (reports : List (Action × Report)) : Bytes :=
  reports.flatMap fun (_, r) => r.sees side

theorem Keeps.plays (h : Keeps keepsReading origin offered seen s calls) {actions : List Action}
    (hstays : keepsReading = true → .leave .client ∉ actions) :
    ∃ more, Keeps keepsReading origin
      (fun side => offered side ++ offeredBy side (s.plays actions).1)
      (fun side => seen side ++ seenBy side (s.plays actions).1) (s.plays actions).2
      (calls ++ more) := by
  induction actions generalizing offered seen s calls with
  | nil => exact ⟨[], by simpa [Session.plays, offeredBy, seenBy] using h⟩
  | cons a actions ih =>
    obtain ⟨first, hfirst⟩ := h.play a fun hkeeps ha => hstays hkeeps (by simp [ha])
    obtain ⟨more, hmore⟩ := ih hfirst fun hkeeps hmem => hstays hkeeps (List.mem_cons_of_mem _ hmem)
    exact ⟨first ++ more, by simpa [Session.plays, offeredBy, seenBy] using hmore⟩

/-- A session in which nothing has happened yet. -/
structure Fresh (s : Session) : Prop where
  client_eq : s.client = FarEnd.new
  server_eq : s.server = FarEnd.new
  targets_eq : s.targets = []
  patient : s.Patient

theorem fresh_serve (config : RelayConfig) (connect : String → UInt16 → Except RelayFault Unit) :
    (serve config connect).Fresh :=
  ⟨rfl, rfl, rfl, fun _ _ h => Relay.noConfusion h⟩

theorem fresh_pump (config : RelayConfig) : (pump config).Fresh :=
  ⟨rfl, rfl, rfl, fun h _ _ => if_pos h⟩

theorem Fresh.keeps (h : s.Fresh) :
    Keeps keepsReading s (fun _ => []) (fun _ => []) s [] := by
  have hfarEnd : ∀ side, s.farEnd side = FarEnd.new := by
    intro side
    cases side
    · exact h.client_eq
    · exact h.server_eq
  refine ⟨⟨rfl, rfl, ?_, h.targets_eq.symm, ?_⟩, ?_, h.patient⟩
  · intro later _
    refine ⟨later, .refl, fun _ => ?_⟩
    funext side
    rw [Session.ahead, hfarEnd]
    rfl
  · intro side
    rw [hfarEnd]
    exact ⟨List.prefix_refl _, fun _ => rfl⟩
  · intro _ _ _
    rw [h.client_eq]
    rfl

/-- Whatever the far ends do, and however long they wait, what a session comes to is what some
course of the relay comes to that reads what they have offered.  They see the beginning of what it
writes, and the connections asked for are those that it asks for.  A client that does not leave
keeps reading. -/
theorem Fresh.runs_of_plays (h : s.Fresh) {actions : List Action}
    (hstays : keepsReading = true → .leave .client ∉ actions) :
    ∃ calls ahead, Runs s.config s.connect keepsReading
        ⟨.ready s.relay, fun side => offeredBy side (s.plays actions).1, s.clock⟩ calls
        ⟨.ready (s.plays actions).2.relay, ahead, (s.plays actions).2.clock⟩ ∧
      asked calls = (s.plays actions).2.targets ∧
      ∀ side, seenBy side (s.plays actions).1 <+: written side calls := by
  obtain ⟨calls, hkeeps⟩ := h.keeps.plays hstays
  obtain ⟨ahead, hruns, -⟩ := hkeeps.follows.runs (fun _ => []) fun _ _ => rfl
  refine ⟨calls, ahead, by simpa using hruns, by simpa using hkeeps.follows.asked_eq,
    fun side => ?_⟩
  exact (List.prefix_append _ _).trans (by simpa using (hkeeps.follows.shows side).isPrefix)

/-- What a pump on its own comes to is what some course of a pump comes to. -/
theorem sound_pump_plays (config : RelayConfig) (actions : List Action) :
    ∃ calls ahead, Sound config
      (fun side => offeredBy side ((pump config).plays actions).1) calls
      ⟨.ready ((pump config).plays actions).2.relay, ahead,
        ((pump config).plays actions).2.clock⟩ := by
  obtain ⟨calls, ahead, hruns, -⟩ := @Fresh.runs_of_plays false _ (fresh_pump config) actions nofun
  exact ⟨calls, ahead, sound_runs hruns⟩

/-- A pump that comes to a result has carried all that the far ends wrote. -/
theorem pump_eq_ok {config : RelayConfig} {actions : List Action} {toServer toClient : Nat}
    (h : ((pump config).plays actions).2.relay = .finished (.ok (toServer, toClient))) :
    toServer = (offeredBy .client ((pump config).plays actions).1).length ∧
      toClient = (offeredBy .server ((pump config).plays actions).1).length := by
  obtain ⟨calls, ahead, hsound⟩ := sound_pump_plays config actions
  rw [h] at hsound
  exact hsound.of_ok.2

/-- A pump goes down only where the clock cannot tell when its idle time would be over. -/
theorem far_of_pump_crashed {config : RelayConfig} {actions : List Action}
    (h : ((pump config).plays actions).2.relay = .crashed) :
    config.canWait ((pump config).plays actions).2.clock = false := by
  obtain ⟨calls, ahead, hsound⟩ := sound_pump_plays config actions
  exact hsound.far_of_crashed (congrArg Phase.ready h)

/-- A pump without an idle time is never given up for carrying nothing. -/
theorem pump_ne_timeout {config : RelayConfig} (hforever : config.idleTimeoutSecs = 0)
    (actions : List Action) (secs : UInt64) :
    ((pump config).plays actions).2.relay ≠ .finished (.error (.timeout secs)) := by
  intro h
  obtain ⟨calls, ahead, hsound⟩ := sound_pump_plays config actions
  exact hsound.not_timeout hforever secs (congrArg Phase.ready h)

end Session

end Meshway
