import Meshway.Proofs.Relay.Course
set_option autoImplicit false

/-!
# What a pump carries (SPEC §4.5, §10.3 item 18)

A pump is followed through any course: whichever side is served, however its
octets are cut into reads and writes, and wherever a read or a write fails.
While nothing is under way, what was written to each side is what was read from
the other, and the counters agree; in between, a read and the beginning of what
it brought are to be accounted for.  Main statement: nothing that was written is
not the beginning of what the other side offers, a side is told of the end once
and at the end, and a pump that comes to a result has carried all of both
streams.
-/

namespace Meshway

namespace Pump

variable {p : Pump} {source side : Side} {octets : Bytes}

theorem isOpen_settle : (p.settle source octets).isOpen side =
    if octets = [] ∧ source = side then false else p.isOpen side := by
  by_cases hnil : octets = []
  · cases source <;> cases side <;> simp [settle, isOpen, hnil]
  · cases source <;> cases side <;> simp [settle, isOpen, hnil]

theorem carriedTo_settle : (p.settle source octets).carriedTo side =
    p.carriedTo side + if source.other = side then octets.length else 0 := by
  by_cases hnil : octets = []
  · cases source <;> cases side <;> simp [settle, carriedTo, hnil]
  · cases source <;> cases side <;> simp [settle, carriedTo, hnil, Side.other]

theorem isDone_iff : p.isDone = true ↔ ∀ side, p.isOpen side = false := by
  constructor
  · intro h side
    cases side <;> simp_all [isDone, isOpen]
  · intro h
    simpa [isDone] using ⟨h .client, h .server⟩

end Pump

namespace Relay

variable {config : RelayConfig} {connect : String → UInt16 → Except RelayFault Unit}
  {keepsReading : Bool} {streams : Side → Bytes} {p : Pump} {source side : Side}
  {octets : Bytes} {parts : List Bytes} {c : Call} {calls more before : List Call}
  {clock : Clock} {s t : Situation}

/-! ## At rest -/

/-- The accounts of a pump while nothing is under way. -/
structure Balanced (p : Pump) (calls : List Call) : Prop where
  written_eq : ∀ side, written side calls = taken side.other calls
  carried_eq : ∀ side, (carried side calls).flatten = written side calls
  carriedTo_eq : ∀ side, p.carriedTo side = (carried side calls).flatten.length
  isOpen_iff : ∀ side, p.isOpen side = true ↔ .read side [] ∉ calls

theorem balanced_start : Balanced .start [] where
  written_eq _ := rfl
  carried_eq _ := rfl
  carriedTo_eq side := by cases side <;> rfl
  isOpen_iff side := by cases side <;> simp [Pump.isOpen, Pump.start]

/-- What was written to a side is a beginning of what was read from the other, and what was carried
in full is a beginning of what was written. -/
structure InOrder (calls : List Call) : Prop where
  written_prefix : ∀ side, written side calls <+: taken side.other calls
  carried_prefix : ∀ side, (carried side calls).flatten <+: written side calls

theorem Balanced.inOrder (h : Balanced p calls) : InOrder calls where
  written_prefix side := ⟨[], by rw [List.append_nil, h.written_eq side]⟩
  carried_prefix side := ⟨[], by rw [List.append_nil, h.carried_eq side]⟩

/-- The calls since a pump was at rest: a read, and writes of parts of what it brought. -/
def carrying (source : Side) (octets : Bytes) (parts : List Bytes) : List Call :=
  .read source octets :: parts.map (.wrote source.other)

theorem taken_carrying :
    taken side (carrying source octets parts) = if source = side then octets else [] := by
  have hparts : taken side (parts.map (.wrote source.other)) = [] := by
    induction parts with
    | nil => rfl
    | cons part parts ih => exact ih
  simp [carrying, hparts]

theorem written_carrying : written side (carrying source octets parts) =
    if source.other = side then parts.flatten else [] := by
  have hparts : written side (parts.map (.wrote source.other)) =
      if source.other = side then parts.flatten else [] := by
    induction parts with
    | nil => simp
    | cons part parts ih =>
      rw [List.map_cons, written_cons, ih]
      split <;> simp_all
  simp [carrying, hparts]

theorem carried_carrying : carried side (carrying source octets parts) = [] := by
  have hparts : carried side (parts.map (.wrote source.other)) = [] := by
    induction parts with
    | nil => rfl
    | cons part parts ih => simpa using ih
  simpa [carrying] using hparts

theorem read_mem_carrying :
    .read side [] ∈ carrying source octets parts ↔ side = source ∧ octets = [] := by
  simp [carrying, eq_comm]

/-- A pump is at rest again when all that was read has been written. -/
theorem Balanced.carry (h : Balanced p before) (hne : octets ≠ [])
    (hparts : parts.flatten = octets) :
    Balanced (p.settle source octets)
      (before ++ carrying source octets parts ++ [.carried source.other octets]) where
  written_eq side := by
    have hother : source.other = side ↔ source = side.other := by
      rw [Side.eq_other_iff]
    simp only [written_append, taken_append, written_carrying, taken_carrying, h.written_eq side,
      hparts, hother]
    simp
  carried_eq side := by
    simp only [carried_append, written_append, written_carrying, carried_carrying,
      List.flatten_append, h.carried_eq side, hparts]
    by_cases hside : source.other = side <;> simp [hside]
  carriedTo_eq side := by
    simp only [carried_append, carried_carrying, List.flatten_append, List.length_append,
      Pump.carriedTo_settle, h.carriedTo_eq side]
    by_cases hside : source.other = side <;> simp [hside]
  isOpen_iff side := by
    simp [Pump.isOpen_settle, hne, h.isOpen_iff side, read_mem_carrying]

/-- So it is when the end of a side was passed on. -/
theorem Balanced.shutdown (h : Balanced p before) :
    Balanced (p.settle source [])
      (before ++ carrying source [] [] ++ [.shutdown source.other]) where
  written_eq side := by simp [carrying, h.written_eq side]
  carried_eq side := by simpa [carrying] using h.carried_eq side
  carriedTo_eq side := by simpa [carrying, Pump.carriedTo_settle] using h.carriedTo_eq side
  isOpen_iff side := by
    by_cases hside : source = side
    · simp [Pump.isOpen_settle, hside, carrying]
    · simp [Pump.isOpen_settle, hside, h.isOpen_iff side, carrying, Ne.symm hside]

/-! ## In between -/

/-- How the calls of a pump stand to what it is about to do. -/
def Stands (config : RelayConfig) (calls : List Call) : Phase → Prop
  | .ready (.negotiating _) => False
  | .ready (.pumping p) => Balanced p calls ∧ p.isDone = false
  | .busy p source octets task => p.isOpen source = true ∧ ∃ before, Balanced p before ∧
      ((octets = [] ∧ task = .shutdown source.other ∧ calls = before ++ carrying source [] []) ∨
        ∃ parts left, octets ≠ [] ∧ task = .write source.other left ∧
          parts.flatten ++ left = octets ∧ calls = before ++ carrying source octets parts)
  | .ready (.finished (.ok (toServer, toClient))) => ∃ p, Balanced p calls ∧ p.isDone = true ∧
      toServer = p.toServer ∧ toClient = p.toClient
  | .ready (.finished (.error fault)) => InOrder calls ∧
      ∃ cause, .failed cause ∈ calls ∧ ofStatus config (.failed cause) = .finished (.error fault)
  | .ready .crashed => InOrder calls

/-- While a task is under way, a read and the beginning of what it brought come after the pump was
at rest. -/
theorem Stands.of_busy {task : Pump.Task} (h : Stands config calls (.busy p source octets task)) :
    ∃ before parts left, Balanced p before ∧ parts.flatten ++ left = octets ∧
      calls = before ++ carrying source octets parts := by
  obtain ⟨_, before, hrest, ⟨rfl, -, rfl⟩ | ⟨parts, left, -, -, hparts, rfl⟩⟩ := h
  · exact ⟨before, [], [], hrest, rfl, rfl⟩
  · exact ⟨before, parts, left, hrest, hparts, rfl⟩

theorem Stands.inOrder {phase : Phase} (h : Stands config calls phase) : InOrder calls := by
  match phase, h with
  | .ready (.pumping p), ⟨hrest, _⟩ => exact hrest.inOrder
  | .ready (.finished (.ok _)), ⟨p, hrest, _⟩ => exact hrest.inOrder
  | .ready (.finished (.error _)), ⟨horder, _⟩ => exact horder
  | .ready .crashed, horder => exact horder
  | .busy p source octets task, h =>
    obtain ⟨before, parts, left, hrest, hparts, rfl⟩ := h.of_busy
    constructor
    · intro side
      rw [written_append, taken_append, written_carrying, taken_carrying, hrest.written_eq side,
        List.prefix_append_right_inj]
      by_cases hside : source = side.other
      · rw [if_pos hside, if_pos (Side.eq_other_iff.1 hside)]
        exact ⟨left, hparts⟩
      · rw [if_neg (mt Side.eq_other_iff.2 hside)]
        exact List.nil_prefix
    · intro side
      rw [carried_append, carried_carrying, List.append_nil, hrest.carried_eq side, written_append]
      exact List.prefix_append _ _

/-- The counters of a pump tell how much has been carried in full. -/
theorem Stands.carriedTo_eq {phase : Phase} (h : Stands config calls phase)
    (hpump : phase.pump? = some p) (side : Side) :
    p.carriedTo side = (carried side calls).flatten.length := by
  match phase, h with
  | .ready (.pumping q), ⟨hrest, _⟩ =>
    cases hpump
    exact hrest.carriedTo_eq side
  | .busy q source octets task, h =>
    obtain ⟨before, parts, left, hrest, -, rfl⟩ := h.of_busy
    cases hpump
    rw [carried_append, carried_carrying, List.append_nil]
    exact hrest.carriedTo_eq side

/-- What becomes of a pump that is at rest again. -/
theorem Balanced.stands (h : Balanced (p.settle source octets) calls) :
    Stands config calls (.ready (ofRead config clock p source octets (.ok ()))) := by
  by_cases hwait : config.canWait clock = true
  · simp only [ofRead, hwait, if_true]
    by_cases hdone : (p.settle source octets).isDone = true
    · simp only [Pump.step, hdone]
      exact ⟨_, h, hdone, rfl, rfl⟩
    · simp only [Pump.step, hdone]
      exact ⟨h, Bool.eq_false_iff.2 hdone⟩
  · simp only [ofRead, hwait]
    exact h.inOrder

/-- What becomes of a pump that gives up. -/
theorem Stands.failed {phase : Phase} (h : Stands config calls phase) (cause : Pump.Fault) :
    Stands config (calls ++ [.failed cause]) (.ready (ofStatus config (.failed cause))) := by
  have horder : InOrder (calls ++ [.failed cause]) :=
    ⟨fun side => by simpa using h.inOrder.written_prefix side,
      fun side => by simpa using h.inOrder.carried_prefix side⟩
  cases cause with
  | io fault => exact ⟨horder, .io fault, by simp, rfl⟩
  | idle => exact ⟨horder, .idle, by simp, rfl⟩

/-! ## The end of a side -/

/-- A side is told of the end when the other has ended and all its octets have been written, once,
and nothing is written to it after that. -/
def Orderly (streams : Side → Bytes) (calls : List Call) : Prop :=
  ∀ before after side, calls = before ++ .shutdown side :: after →
    (.read side.other [] ∈ before ∧ written side before = streams side.other) ∧
      .shutdown side ∉ before ∧ .shutdown side ∉ after ∧ ∀ octets, .wrote side octets ∉ after

theorem orderly_nil : Orderly streams [] := by
  intro before after side h
  simp at h

/-- One more call stands behind all the others, or is the one that is looked for. -/
theorem append_singleton_eq {α : Type} {calls before after : List α} {c d : α}
    (h : calls ++ [c] = before ++ d :: after) :
    (after = [] ∧ before = calls ∧ d = c) ∨
      ∃ rest, after = rest ++ [c] ∧ calls = before ++ d :: rest := by
  rcases List.eq_nil_or_concat after with rfl | ⟨rest, last, rfl⟩
  · obtain ⟨rfl, hlast⟩ := List.append_inj' h rfl
    cases hlast
    exact .inl ⟨rfl, rfl, rfl⟩
  · rw [List.concat_eq_append, ← List.cons_append, ← List.append_assoc] at h
    obtain ⟨hcalls, hlast⟩ := List.append_inj' h rfl
    cases hlast
    exact .inr ⟨rest, by simp, hcalls⟩

/-- A call that tells no side of the end and writes to no side that was told. -/
theorem Orderly.append (h : Orderly streams calls) (hc : ∀ side, c ≠ .shutdown side)
    (hwrote : ∀ side octets, c = .wrote side octets → .shutdown side ∉ calls) :
    Orderly streams (calls ++ [c]) := by
  intro before after side hsplit
  rcases append_singleton_eq hsplit with ⟨-, -, hlast⟩ | ⟨rest, rfl, rfl⟩
  · exact absurd hlast.symm (hc side)
  · obtain ⟨hended, hbefore, hafter, hsilent⟩ := h before rest side rfl
    refine ⟨hended, hbefore, ?_, fun octets hmem => ?_⟩
    · simp [hafter, Ne.symm (hc side)]
    · rcases List.mem_append.1 hmem with hmem | hmem
      · exact hsilent octets hmem
      · exact hwrote side octets (List.mem_singleton.1 hmem).symm (by simp)

/-- A side is told of the end. -/
theorem Orderly.append_shutdown (h : Orderly streams calls) (hended : .read side.other [] ∈ calls)
    (hwritten : written side calls = streams side.other) (hfresh : .shutdown side ∉ calls) :
    Orderly streams (calls ++ [.shutdown side]) := by
  intro before after side' hsplit
  rcases append_singleton_eq hsplit with ⟨rfl, rfl, hlast⟩ | ⟨rest, rfl, rfl⟩
  · cases hlast
    exact ⟨⟨hended, hwritten⟩, hfresh, List.not_mem_nil, fun _ => List.not_mem_nil⟩
  · obtain ⟨hended', hbefore, hafter, hsilent⟩ := h before rest side' rfl
    have hne : side' ≠ side := by
      rintro rfl
      exact hfresh (by simp)
    refine ⟨hended', hbefore, ?_, fun octets hmem => hsilent octets ?_⟩
    · simp [hafter, hne]
    · simpa using hmem

/-- A side across from one that is open has not been told of the end. -/
theorem Orderly.shutdown_not_mem (h : Orderly streams (before ++ carrying source octets parts))
    (hrest : Balanced p before) (hopen : p.isOpen source = true) :
    .shutdown source.other ∉ before ++ carrying source octets parts := by
  intro hmem
  have hbefore : .shutdown source.other ∈ before := by simpa [carrying] using hmem
  -- it was told only when this side had ended, but then this side would not be open
  obtain ⟨earlier, later, rfl⟩ := List.append_of_mem hbefore
  have hended := (h earlier (later ++ carrying source octets parts) source.other (by simp)).1.1
  rw [Side.other_other] at hended
  exact (hrest.isOpen_iff source).1 hopen (List.mem_append_left _ hended)

/-! ## Whole courses -/

/-- What a course of a pump keeps. -/
structure Sound (config : RelayConfig) (streams : Side → Bytes) (calls : List Call)
    (s : Situation) : Prop where
  stream_eq : ∀ side, taken side calls ++ s.ahead side = streams side
  ahead_of_ended : ∀ side, .read side [] ∈ calls → s.ahead side = []
  orderly : Orderly streams calls
  stands : Stands config calls s.phase
  asked_eq : asked calls = []
  idle_of_failed : .failed .idle ∈ calls → config.idleTimeoutSecs ≠ 0
  far_of_crashed : s.phase = .ready .crashed → config.canWait s.clock = false

theorem sound_pump : Sound config streams [] (.pump streams clock) where
  stream_eq _ := rfl
  ahead_of_ended _ h := by cases h
  orderly := orderly_nil
  stands := ⟨balanced_start, rfl⟩
  asked_eq := rfl
  idle_of_failed h := by cases h
  far_of_crashed h := by cases h

/-- Time passes, and nothing comes of it. -/
theorem Sound.pass {phase : Phase} {ahead : Side → Bytes}
    (h : Sound config streams calls ⟨phase, ahead, clock⟩) (ms : Nat) :
    Sound config streams calls ⟨phase, ahead, clock.pass ms⟩ :=
  { h with
    far_of_crashed := fun hcrashed => RelayConfig.canWait_pass (h.far_of_crashed hcrashed) ms }

/-- A call that reads nothing changes nothing of what is ahead. -/
theorem Sound.append {phase : Phase} {ahead : Side → Bytes}
    (h : Sound config streams calls ⟨phase, ahead, clock⟩) {phase' : Phase}
    (htaken : ∀ side, c.taken side = []) (hread : ∀ side octets, c ≠ .read side octets)
    (hasked : c.asked? = none) (hidle : c = .failed .idle → config.idleTimeoutSecs ≠ 0)
    (horderly : Orderly streams (calls ++ [c])) (hstands : Stands config (calls ++ [c]) phase')
    (hfar : phase' = .ready .crashed → config.canWait clock = false) :
    Sound config streams (calls ++ [c]) ⟨phase', ahead, clock⟩ where
  stream_eq side := by
    rw [taken_append, taken_cons, htaken side, taken_nil, List.append_nil, List.append_nil]
    exact h.stream_eq side
  ahead_of_ended side hmem := by
    rcases List.mem_append.1 hmem with hmem | hmem
    · exact h.ahead_of_ended side hmem
    · exact absurd (List.mem_singleton.1 hmem).symm (hread side [])
  orderly := horderly
  stands := hstands
  asked_eq := by
    rw [asked_append, asked_cons, h.asked_eq, hasked]
    rfl
  idle_of_failed hmem := by
    rcases List.mem_append.1 hmem with hmem | hmem
    · exact h.idle_of_failed hmem
    · exact hidle (List.mem_singleton.1 hmem).symm
  far_of_crashed := hfar

/-- A read that is begun. -/
theorem Sound.read {ahead : Side → Bytes} {later : Bytes}
    (h : Sound config streams calls ⟨.ready (.pumping p), ahead, clock⟩)
    (hopen : p.isOpen source = true) (hahead : ahead source = octets ++ later)
    (hend : octets = [] → later = []) :
    Sound config streams (calls ++ [.read source octets])
      ⟨.busy p source octets (Pump.task source octets), Function.update ahead source later,
        clock⟩ where
  stream_eq side := by
    have hstream : taken side calls ++ ahead side = streams side := h.stream_eq side
    by_cases hside : source = side
    · subst hside
      rw [hahead] at hstream
      simpa using hstream
    · simpa [hside, Function.update_of_ne (Ne.symm hside)] using hstream
  ahead_of_ended side hmem := by
    by_cases hside : source = side
    · subst hside
      -- an open side has not ended before, so it can only be this read that is its end
      have hfresh := (h.stands.1.isOpen_iff source).1 hopen
      have hnil : octets = [] := by simpa [hfresh, eq_comm] using hmem
      simpa using hend hnil
    · have hbefore : .read side [] ∈ calls := by simpa [Ne.symm hside] using hmem
      simpa [Function.update_of_ne (Ne.symm hside)] using h.ahead_of_ended side hbefore
  orderly := h.orderly.append (fun _ => Call.noConfusion) fun _ _ h => Call.noConfusion h
  stands := by
    refine ⟨hopen, calls, h.stands.1, ?_⟩
    by_cases hnil : octets = []
    · subst hnil
      exact .inl ⟨rfl, rfl, rfl⟩
    · exact .inr ⟨[], octets, hnil, if_neg hnil, rfl, rfl⟩
  asked_eq := by simp [h.asked_eq]
  idle_of_failed hmem := h.idle_of_failed (by simpa using hmem)
  far_of_crashed := nofun

/-- The end of a side is passed on. -/
theorem Sound.shutdown {ahead : Side → Bytes}
    (h : Sound config streams calls ⟨.busy p source octets (.shutdown side), ahead, clock⟩) :
    Sound config streams (calls ++ [.shutdown side])
      ⟨.ready (ofRead config clock p source octets (.ok ())), ahead, clock⟩ := by
  obtain ⟨hopen, before, hrest, ⟨rfl, htask, rfl⟩ | ⟨_, _, _, htask, _⟩⟩ := h.stands
  · cases htask
    have hended : .read source [] ∈ before ++ carrying source [] [] := by simp [carrying]
    have hall : written source.other (before ++ carrying source [] []) = streams source := by
      rw [← h.stream_eq source, h.ahead_of_ended source hended]
      simp [carrying, hrest.written_eq]
    refine h.append (fun _ => rfl) (fun _ _ => Call.noConfusion) rfl Call.noConfusion ?_ ?_
      fun hcrashed => canWait_of_ofRead (Phase.ready.inj hcrashed)
    · refine h.orderly.append_shutdown ?_ ?_ (h.orderly.shutdown_not_mem hrest hopen)
      · rwa [Side.other_other]
      · rwa [Side.other_other]
    · exact hrest.shutdown.stands
  · cases htask

/-- The pump gives up. -/
theorem Sound.failed {phase : Phase} {ahead : Side → Bytes} {cause : Pump.Fault}
    (h : Sound config streams calls ⟨phase, ahead, clock⟩)
    (hidle : cause = .idle → config.idleTimeoutSecs ≠ 0) :
    Sound config streams (calls ++ [.failed cause])
      ⟨.ready (ofStatus config (.failed cause)), ahead, clock⟩ := by
  refine h.append (fun _ => rfl) (fun _ _ => Call.noConfusion) rfl ?_ ?_ (h.stands.failed cause) ?_
  · rintro ⟨⟩
    exact hidle rfl
  · exact h.orderly.append (fun _ => Call.noConfusion) fun _ _ h => Call.noConfusion h
  · cases cause <;> nofun

/-- Every step keeps the accounts. -/
theorem sound_step (h : Sound config streams calls s)
    (hstep : Step config connect keepsReading s more t) :
    Sound config streams (calls ++ more) t := by
  cases hstep with
  | pass ms =>
    rw [List.append_nil]
    exact h.pass ms
  | hear => exact h.stands.elim
  | late => exact h.stands.elim
  | read hopen _ hahead hend => exact h.read hopen hahead hend
  | readFailed => exact h.failed Pump.Fault.noConfusion
  | idle hidle => exact h.failed fun _ => hidle
  | @write p source side ahead clock octets part left hne =>
    obtain ⟨hopen, before, hrest, ⟨_, htask, _⟩ | ⟨parts, _, hoctets, htask, hparts, rfl⟩⟩ :=
      h.stands
    · cases htask
    · cases htask
      have hfresh := h.orderly.shutdown_not_mem hrest hopen
      refine h.append (fun _ => rfl) (fun _ _ => Call.noConfusion) rfl Call.noConfusion ?_ ?_ nofun
      · refine h.orderly.append (fun _ => Call.noConfusion) ?_
        rintro _ _ ⟨⟩
        exact hfresh
      · refine ⟨hopen, before, hrest, .inr ⟨parts ++ [part], left, hoctets, rfl, ?_, ?_⟩⟩
        · simpa using hparts
        · simp [carrying]
  | carry =>
    obtain ⟨hopen, before, hrest, ⟨_, htask, _⟩ | ⟨parts, _, hoctets, htask, hparts, rfl⟩⟩ :=
      h.stands
    · cases htask
    · cases htask
      refine h.append (fun _ => rfl) (fun _ _ => Call.noConfusion) rfl Call.noConfusion ?_ ?_
        fun hcrashed => canWait_of_ofRead (Phase.ready.inj hcrashed)
      · exact h.orderly.append (fun _ => Call.noConfusion) fun _ _ h => Call.noConfusion h
      · exact (hrest.carry hoctets (by simpa using hparts)).stands
  | writeFailed => exact h.failed Pump.Fault.noConfusion
  | shutdown => exact h.shutdown
  | shutdownFailed =>
    -- as if it had succeeded, and then the pump gave up
    rw [List.append_cons]
    exact h.shutdown.failed Pump.Fault.noConfusion

/-- Every course keeps the accounts. -/
theorem sound_runs (h : Runs config connect keepsReading (.pump streams clock) calls s) :
    Sound config streams calls s := by
  induction h with
  | refl => exact sound_pump
  | step _ hstep ih => exact sound_step ih hstep

/-- A pump that came to a result has carried all of both streams. -/
theorem Sound.of_ok {toServer toClient : Nat} {ahead : Side → Bytes}
    (h : Sound config streams calls ⟨.ready (.finished (.ok (toServer, toClient))), ahead, clock⟩) :
    (∀ side, .read side [] ∈ calls ∧ written side.other calls = streams side) ∧
      toServer = (streams .client).length ∧ toClient = (streams .server).length := by
  obtain ⟨p, hrest, hdone, rfl, rfl⟩ := h.stands
  have hall : ∀ side, .read side [] ∈ calls ∧ written side.other calls = streams side := by
    intro side
    have hended : .read side [] ∈ calls := by
      by_contra hfresh
      have hopen := (hrest.isOpen_iff side).2 hfresh
      rw [Pump.isDone_iff.1 hdone side] at hopen
      cases hopen
    have hstream : taken side calls ++ ahead side = streams side := h.stream_eq side
    rw [show ahead side = [] from h.ahead_of_ended side hended, List.append_nil] at hstream
    exact ⟨hended, by rw [hrest.written_eq, Side.other_other, hstream]⟩
  have hcount : ∀ side, p.carriedTo side.other = (streams side).length := by
    intro side
    rw [hrest.carriedTo_eq, hrest.carried_eq, (hall side).2]
  exact ⟨hall, hcount .client, hcount .server⟩

/-- Without an idle time a pump never finds that nothing was carried for too long. -/
theorem Sound.not_timeout (h : Sound config streams calls s) (hforever : config.idleTimeoutSecs = 0)
    (secs : UInt64) : s.phase ≠ .ready (.finished (.error (.timeout secs))) := by
  intro hphase
  have hstands := h.stands
  rw [hphase] at hstands
  obtain ⟨-, cause, hmem, hcause⟩ := hstands
  cases cause with
  | io => cases hcause
  | idle => exact h.idle_of_failed hmem hforever

/-- A pump one of whose sides is still open goes on, if the clock can tell when its idle time will
be over. -/
theorem ofRead_of_isOpen (hwait : config.canWait clock = true)
    (hopen : (p.settle source octets).isOpen side = true) :
    ofRead config clock p source octets (.ok ()) = .pumping (p.settle source octets) := by
  have hdone : (p.settle source octets).isDone = false := by
    rw [Bool.eq_false_iff, ne_eq, Pump.isDone_iff]
    intro hclosed
    exact Bool.noConfusion (hopen.symm.trans (hclosed side))
  simp [ofRead, hwait, Pump.step, hdone, ofStatus]

/-- An open direction carries what its side offers, whatever has become of the other. -/
theorem runs_carry {ahead : Side → Bytes} {later : Bytes} (hopen : p.isOpen side = true)
    (hne : octets ≠ []) (hsize : octets.length ≤ Pump.readSize)
    (hahead : ahead side = octets ++ later) (hwait : config.canWait clock = true) :
    Runs config connect keepsReading ⟨.ready (.pumping p), ahead, clock⟩
      [.read side octets, .wrote side.other octets, .carried side.other octets]
      ⟨.ready (.pumping (p.settle side octets)), Function.update ahead side later, clock⟩ := by
  have htask : Pump.task side octets = .write side.other (octets ++ []) := by
    rw [Pump.task, if_neg hne, List.append_nil]
  have hstill : (p.settle side octets).isOpen side = true := by
    rw [Pump.isOpen_settle, if_neg (fun h => hne h.1), hopen]
  have hread := Runs.single (@Step.read config connect keepsReading p side ahead clock octets later
    hopen hsize hahead fun h => absurd h hne)
  rw [htask] at hread
  have hcarried := (hread.step (.write hne)).step .carry
  rwa [ofRead_of_isOpen hwait hstill] at hcarried

/-- The end of a side leaves a pump going whose other side is still open. -/
theorem runs_end {ahead : Side → Bytes} (hopen : p.isOpen side = true)
    (hother : p.isOpen side.other = true) (hahead : ahead side = [])
    (hwait : config.canWait clock = true) :
    Runs config connect keepsReading ⟨.ready (.pumping p), ahead, clock⟩
      [.read side [], .shutdown side.other]
      ⟨.ready (.pumping (p.settle side [])), ahead, clock⟩ := by
  have hstill : (p.settle side []).isOpen side.other = true := by
    rw [Pump.isOpen_settle, if_neg (fun h => Side.other_ne side h.2.symm), hother]
  have hsame : Function.update ahead side [] = ahead := by
    rw [← hahead, Function.update_eq_self]
  have hended := (Runs.single (@Step.read config connect keepsReading p side ahead clock [] [] hopen
    (by decide) hahead fun _ => rfl)).step .shutdown
  rwa [ofRead_of_isOpen hwait hstill, hsame] at hended

/-- Whatever the two sides offer, however it is cut into reads and writes, whichever side is served
and wherever the pump gives up: what was written to a side is the beginning of what was read from
the other, and the counters tell how much of it was written in full; 64 bits are enough for them
when they are enough for what a side offers.  A side is told of the end once, after everything.
While the clock can tell when the idle time will be over, the end of one side leaves the other
direction going; only when it cannot does the pump go down.  The pump comes to a result only when
both sides have ended and all has been carried.  Without an idle time it never finds that nothing
was carried for too long. -/
theorem pump_carries_streams
    (h : Runs config connect keepsReading (.pump streams clock) calls s) :
    (∀ side, taken side calls <+: streams side ∧
      written side calls <+: taken side.other calls ∧
      (carried side calls).flatten <+: written side calls) ∧
    (∀ p, s.phase.pump? = some p → ∀ side,
      p.carriedTo side = (carried side calls).flatten.length ∧
      ((streams side.other).length < UInt64.size → p.carriedTo side < UInt64.size)) ∧
    Orderly streams calls ∧
    (∀ p side, s.phase = .ready (.pumping p) → .read side [] ∉ calls →
      config.canWait s.clock = true →
      (∀ octets later, octets ≠ [] → octets.length ≤ Pump.readSize →
        s.ahead side = octets ++ later →
        ∃ q, Runs config connect keepsReading s
          [.read side octets, .wrote side.other octets, .carried side.other octets]
          ⟨.ready (.pumping q), Function.update s.ahead side later, s.clock⟩) ∧
      (s.ahead side = [] → .read side.other [] ∉ calls →
        ∃ q, Runs config connect keepsReading s [.read side [], .shutdown side.other]
          ⟨.ready (.pumping q), s.ahead, s.clock⟩)) ∧
    (s.phase = .ready .crashed → config.idleTimeoutSecs ≠ 0 ∧
      s.clock.last < s.clock.now + Clock.millis config.idleTimeoutSecs) ∧
    (∀ toServer toClient, s.phase = .ready (.finished (.ok (toServer, toClient))) →
      (∀ side, .read side [] ∈ calls ∧ written side.other calls = streams side) ∧
      toServer = (streams .client).length ∧ toClient = (streams .server).length) ∧
    (∀ fault, s.phase = .ready (.finished (.error fault)) →
      ∃ cause, .failed cause ∈ calls ∧ ofStatus config (.failed cause) = .finished (.error fault)) ∧
    (config.idleTimeoutSecs = 0 →
      ∀ secs, s.phase ≠ .ready (.finished (.error (.timeout secs)))) := by
  have hsound := sound_runs h
  have horder := hsound.stands.inOrder
  refine ⟨fun side => ⟨⟨_, hsound.stream_eq side⟩, horder.written_prefix side,
    horder.carried_prefix side⟩, fun p hp side => ⟨hsound.stands.carriedTo_eq hp side, ?counted⟩,
    hsound.orderly, ?carries, fun hcrashed => RelayConfig.canWait_eq_false_iff.1
      (hsound.far_of_crashed hcrashed), ?ok, ?error, hsound.not_timeout⟩
  case counted =>
    intro hshort
    have hcarried := (horder.carried_prefix side).trans ((horder.written_prefix side).trans
      ⟨_, hsound.stream_eq side.other⟩)
    rw [hsound.stands.carriedTo_eq hp side]
    exact Nat.lt_of_le_of_lt hcarried.length_le hshort
  all_goals obtain ⟨phase, ahead, now⟩ := s
  case carries =>
    rintro p side rfl hfresh hwait
    have hopen : ∀ side, .read side [] ∉ calls → p.isOpen side = true :=
      fun side => (hsound.stands.1.isOpen_iff side).2
    exact ⟨fun octets later hne hsize hahead => ⟨_, runs_carry (hopen side hfresh) hne hsize hahead
        hwait⟩,
      fun hahead hother => ⟨_, runs_end (hopen side hfresh) (hopen _ hother) hahead hwait⟩⟩
  case ok =>
    rintro toServer toClient rfl
    exact hsound.of_ok
  case error =>
    rintro fault rfl
    exact hsound.stands.2

/-- The server ends first, and the client's octets still go across, one by one. -/
theorem pump_carries_after_server_ended :
    ∃ s, Runs ⟨10, 600⟩ (fun _ _ => .ok ()) true
        (.pump (offering [0x61, 0x62] [0x63]) .ofHost)
        [.read .server [0x63], .wrote .client [0x63], .carried .client [0x63],
          .read .server [], .shutdown .client,
          .read .client [0x61, 0x62], .wrote .server [0x61], .wrote .server [0x62],
          .carried .server [0x61, 0x62], .read .client [], .shutdown .server] s ∧
      s.phase = .ready (.finished (.ok (2, 1))) ∧ s.phase ≠ .ready .crashed := by
  have hserver := @runs_carry ⟨10, 600⟩ (fun _ _ => .ok ()) true .start .server [0x63]
    .ofHost (offering [0x61, 0x62] [0x63]) [] rfl (by decide) (by decide) rfl (by decide)
  have hended := hserver.trans (@runs_end ⟨10, 600⟩ (fun _ _ => .ok ()) true _ .server .ofHost _
    rfl rfl rfl (by decide))
  have hwritten := ((hended.step (@Step.read _ _ _ _ .client _ _ [0x61, 0x62] [] rfl (by decide) rfl
    fun _ => rfl)).step (@Step.write _ _ _ _ _ _ _ _ _ [0x61] [0x62] (by decide))).step
      (@Step.write _ _ _ _ _ _ _ _ _ [0x62] [] (by decide))
  have hall := ((hwritten.step .carry).step (@Step.read _ _ _ _ .client _ _ [] [] rfl (by decide)
    rfl fun _ => rfl)).step .shutdown
  obtain ⟨-, -, -, -, hcrashed, -⟩ := pump_carries_streams hall
  exact ⟨_, hall, rfl, fun h => absurd (hcrashed h).2 (by decide)⟩

end Relay

end Meshway
