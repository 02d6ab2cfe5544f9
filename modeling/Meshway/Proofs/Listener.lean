import Meshway.Listener
set_option autoImplicit false

/-!
# No permit is lost (SPEC §4.6, §10.3 items 14 and 15)

Permits are free, held by the accept loop, or lent to relays.  Whatever happens
to the loop and its relays, in any order, hands permits on between the three.
Main statement: together they are as many as the bound, so no more relays run at
once, and a loop that waits for a permit gets one as soon as fewer run; without
a bound the loop never waits for a permit.  Relays start where connections are
accepted and are gone only when they end.  That none starts is certain once the
loop has noticed the signal to stop, and not before: between the arrival of the
signal and its notice the loop may still accept.
-/

namespace Meshway.Listener

variable {l : Listener}

theorem run_cons (l : Listener) (e : Event) (events : List Event) :
    l.run (e :: events) = (l.step e).run events := rfl

/-! ## What an event leaves as it is -/

@[simp] theorem bound_step (l : Listener) (e : Event) : (l.step e).bound = l.bound := by
  cases e with
  | shutdown => rfl
  | _ => simp only [step]; split <;> rfl

@[simp] theorem bound_run (l : Listener) (events : List Event) :
    (l.run events).bound = l.bound := by
  induction events generalizing l with
  | nil => rfl
  | cons e events ih => exact (ih (l.step e)).trans (bound_step l e)

theorem isLooking_iff : l.isLooking = true ↔ l.stage = .waiting ∨ l.stage = .accepting := by
  simp [isLooking]

/-! ## Permits -/

/-- With a bound, the loop holds a permit from when it took one until it starts over. -/
theorem held_of_bound {n : Nat} (h : l.bound = some n) :
    l.held = if l.stage = .accepting ∨ l.stage = .resting then 1 else 0 := by
  simp [held, h]

theorem held_le_one (l : Listener) : l.held ≤ 1 := by
  unfold held
  split <;> decide

theorem start_of_bound {n : Nat} (h : l.bound = some n) : start l.bound = .waiting := by
  simp [start, h]

theorem start_of_unbounded (h : l.bound = none) : start l.bound = .accepting := by simp [start, h]

theorem start_ne_stopped (bound : Option Nat) : start bound ≠ .stopped := by
  unfold start
  split <;> decide

/-- An event takes a permit from one place to another, or leaves all of them where they are. -/
theorem permits_step {n : Nat} (hn : l.bound = some n) (e : Event) :
    (l.step e).free + (l.step e).held + (l.step e).running = l.free + l.held + l.running := by
  have hstart := start_of_bound hn
  rw [held_of_bound hn, held_of_bound (l := l.step e) (by rw [bound_step, hn])]
  cases e with
  | permitted =>
    -- from the free ones to the loop
    simp only [step]
    split
    · rename_i hwaits
      simp only [hwaits.1, reduceCtorEq, or_self, if_false, true_or, if_true]
      omega
    · rfl
  | accepted =>
    -- from the loop to a relay
    simp only [step]
    split
    · rename_i hstage
      simp only [hstage, hstart, reduceCtorEq, or_self, if_false, true_or, if_true]
      omega
    · rfl
  | acceptFailed =>
    simp only [step]
    split
    · rename_i hstage
      simp only [hstage, true_or, or_true, if_true]
    · rfl
  | rested =>
    -- from the loop back to the free ones
    simp only [step]
    split
    · rename_i hstage
      simp only [held_of_bound hn, hstage, hstart, reduceCtorEq, or_self, if_false, or_true,
        if_true]
    · rfl
  | relayEnded =>
    -- from a relay back to the free ones
    simp only [step]
    split
    · simp only [hn, Option.isSome_some, if_true]
      omega
    · rfl
  | shutdown => rfl
  | noticed =>
    -- from the loop back to the free ones, if it has one
    simp only [step]
    split
    · rename_i hlooking
      rcases isLooking_iff.1 hlooking.2 with hstage | hstage <;> simp [held_of_bound hn, hstage]
    · rfl

/-- Where there are no permits, nobody comes to wait for one. -/
theorem stage_step_ne_waiting (hnone : l.bound = none) (hstage : l.stage ≠ .waiting) (e : Event) :
    (l.step e).stage ≠ .waiting := by
  have hstart := start_of_unbounded hnone
  cases e with
  | shutdown => exact hstage
  | _ => simp only [step]; split <;> simp_all

theorem permits_run {n : Nat} (hn : l.bound = some n) (events : List Event) :
    (l.run events).free + (l.run events).held + (l.run events).running =
      l.free + l.held + l.running := by
  induction events generalizing l with
  | nil => rfl
  | cons e events ih => exact (ih (by rw [bound_step, hn])).trans (permits_step hn e)

theorem stage_run_ne_waiting (hnone : l.bound = none) (hstage : l.stage ≠ .waiting)
    (events : List Event) : (l.run events).stage ≠ .waiting := by
  induction events generalizing l with
  | nil => exact hstage
  | cons e events ih =>
    exact ih (by rw [bound_step, hnone]) (stage_step_ne_waiting hnone hstage e)

/-- A loop that waits for a permit gets one unless there is none. -/
theorem stage_step_permitted (hstage : l.stage = .waiting) :
    (l.step .permitted).stage = .accepting ↔ 0 < l.free := by
  simp only [step, hstage, true_and]
  split
  · rename_i hfree
    exact ⟨fun _ => hfree, fun _ => rfl⟩
  · rename_i hfree
    rw [hstage]
    exact ⟨fun h => (by cases h), fun h => absurd h hfree⟩

/-! ## New loops -/

theorem new?_eq_some {maxConnections : Option UInt64} (h : new? maxConnections = some l) :
    let bound := (maxConnections.map UInt64.toNat).filter (0 < ·)
    l = ⟨bound, start bound, false, bound.getD 0, 0⟩ := by
  simp only [new?] at h
  split at h
  · cases h
  · exact (Option.some.inj h).symm

theorem filter_of_pos {n : UInt64} (hpos : 0 < n) :
    ((some n).map UInt64.toNat).filter (0 < ·) = some n.toNat :=
  if_pos (decide_eq_true (UInt64.lt_iff_toNat_lt.1 hpos))

theorem filter_of_zero {maxConnections : Option UInt64} (hzero : ∀ n ∈ maxConnections, n = 0) :
    (maxConnections.map UInt64.toNat).filter (0 < ·) = none := by
  cases maxConnections with
  | none => rfl
  | some n =>
    rw [hzero n rfl]
    rfl

/-- The bound of a loop that was made with one, and all its permits, which are free. -/
theorem permits_new {n : UInt64} (hpos : 0 < n) (h : new? (some n) = some l) :
    l.bound = some n.toNat ∧ l.free + l.held + l.running = n.toNat := by
  rw [new?_eq_some h, filter_of_pos hpos]
  simp [held, start]

/-- A loop that was made without a bound accepts from the start. -/
theorem unbounded_new {maxConnections : Option UInt64} (hzero : ∀ n ∈ maxConnections, n = 0)
    (h : new? maxConnections = some l) : l.bound = none ∧ l.stage = .accepting := by
  rw [new?_eq_some h, filter_of_zero hzero]
  exact ⟨rfl, rfl⟩

/-- Only a bound that cannot be counted is refused. -/
theorem new?_eq_none_iff (maxConnections : Option UInt64) :
    new? maxConnections = none ↔ ∃ n, maxConnections = some n ∧ maxPermits < n.toNat := by
  simp only [new?, ite_eq_left_iff, reduceCtorEq, imp_false, Decidable.not_not]
  cases maxConnections with
  | none => exact ⟨fun h => absurd h (by decide), fun ⟨_, heq, _⟩ => by cases heq⟩
  | some n =>
    have hcounted : ((((some n).map UInt64.toNat).filter (0 < ·)).getD 0) = n.toNat := by
      by_cases hzero : n = 0
      · subst hzero
        rfl
      · rw [filter_of_pos (UInt64.pos_iff_ne_zero.2 hzero)]
        rfl
    rw [hcounted]
    exact ⟨fun h => ⟨n, rfl, h⟩, fun ⟨_, heq, h⟩ => Option.some.inj heq ▸ h⟩

/-! ## Relays -/

/-- The relays that start while events happen. -/
def started (l : Listener) : List Event → Nat
  | [] => 0
  | e :: events =>
    (if e = .accepted ∧ l.stage = .accepting then 1 else 0) + (l.step e).started events

/-- The relays that end while events happen. -/
def ended (l : Listener) : List Event → Nat
  | [] => 0
  | e :: events =>
    (if e = .relayEnded ∧ 0 < l.running then 1 else 0) + (l.step e).ended events

/-- A relay starts when a connection is accepted, and is gone when it ends. -/
theorem running_step (l : Listener) (e : Event) :
    (l.step e).running + (if e = .relayEnded ∧ 0 < l.running then 1 else 0) =
      l.running + if e = .accepted ∧ l.stage = .accepting then 1 else 0 := by
  cases e with
  | accepted =>
    simp only [step, reduceCtorEq, false_and, if_false, true_and, Nat.add_zero]
    split <;> rfl
  | relayEnded =>
    simp only [step, reduceCtorEq, false_and, if_false, true_and, Nat.add_zero]
    split
    · rename_i hsome
      exact Nat.sub_add_cancel hsome
    · rfl
  | shutdown => rfl
  | _ => simp only [step, reduceCtorEq, false_and, if_false, Nat.add_zero]; split <;> rfl

theorem running_run (l : Listener) (events : List Event) :
    (l.run events).running + l.ended events = l.running + l.started events := by
  induction events generalizing l with
  | nil => rfl
  | cons e events ih =>
    have hstep := running_step l e
    have hrun := ih (l.step e)
    rw [ended, started, run_cons]
    omega

/-! ## Stopping -/

theorem told_step (l : Listener) (e : Event) :
    (l.step e).told = true ↔ l.told = true ∨ e = .shutdown := by
  cases e with
  | shutdown => simp [step]
  | _ =>
    simp only [step, reduceCtorEq, or_false]
    split <;> rfl

/-- The signal is not forgotten, wherever the loop stands when it arrives. -/
theorem told_run (l : Listener) (events : List Event) :
    (l.run events).told = true ↔ l.told = true ∨ .shutdown ∈ events := by
  induction events generalizing l with
  | nil => simp [run]
  | cons e events ih =>
    rw [run_cons, ih, told_step, List.mem_cons, or_assoc, eq_comm (a := e)]

/-- A loop stops when it notices the signal, and stays so. -/
theorem stage_step_eq_stopped (l : Listener) (e : Event) : (l.step e).stage = .stopped ↔
    l.stage = .stopped ∨ e = .noticed ∧ l.told = true ∧ l.isLooking = true := by
  cases e with
  | shutdown => simp [step]
  | noticed =>
    simp only [step, true_and]
    split
    · rename_i hlooking
      exact ⟨fun _ => .inr hlooking, fun _ => rfl⟩
    · rename_i hnot
      exact ⟨.inl, fun h => h.resolve_right hnot⟩
  | permitted | acceptFailed =>
    simp only [step]
    split <;> simp_all
  | accepted | rested =>
    have hstart := start_ne_stopped l.bound
    simp only [step]
    split <;> simp_all
  | relayEnded =>
    simp only [step]
    split <;> simp

theorem stage_run_eq_stopped (l : Listener) (events : List Event) :
    (l.run events).stage = .stopped ↔ l.stage = .stopped ∨ ∃ before after,
      events = before ++ .noticed :: after ∧ (l.run before).told = true ∧
        (l.run before).isLooking = true := by
  induction events generalizing l with
  | nil => simp [run]
  | cons e events ih =>
    rw [run_cons, ih, stage_step_eq_stopped, or_assoc]
    refine or_congr_right ⟨?_, ?_⟩
    · rintro (⟨rfl, hlooking⟩ | ⟨before, after, rfl, hlooking⟩)
      · exact ⟨[], events, rfl, hlooking⟩
      · exact ⟨e :: before, after, rfl, hlooking⟩
    · rintro ⟨before, after, hsplit, hlooking⟩
      cases before with
      | nil =>
        cases hsplit
        exact .inl ⟨rfl, hlooking⟩
      | cons first before =>
        cases hsplit
        exact .inr ⟨before, after, rfl, hlooking⟩

/-- The loop looks for the signal where it waits, and comes there after its rest where it rests. -/
theorem isLooking_step_rested (h : l.stage ≠ .stopped) : (l.step .rested).isLooking = true := by
  rw [isLooking_iff]
  simp only [step]
  split
  · cases l.bound <;> simp [start]
  · rename_i hresting
    cases hstage : l.stage <;> simp_all

/-- A loop that was told comes to stop, after its rest at most.  No relay is touched by that. -/
theorem run_noticed (htold : l.told = true) :
    (l.run [.rested, .noticed]).stage = .stopped ∧
      (l.run [.rested, .noticed]).running = l.running := by
  have hrunning := running_run l [.rested, .noticed]
  refine ⟨(stage_run_eq_stopped l _).2 ?_, by simpa [started, ended] using hrunning⟩
  by_cases hstopped : l.stage = .stopped
  · exact .inl hstopped
  · exact .inr ⟨[.rested], [], rfl, (told_step l .rested).2 (.inl htold),
      isLooking_step_rested hstopped⟩

/-- A loop that has stopped accepts nothing. -/
theorem started_of_stopped (h : l.stage = .stopped) (later : List Event) :
    l.started later = 0 := by
  induction later generalizing l with
  | nil => rfl
  | cons e later ih => simp [started, h, ih ((stage_step_eq_stopped l e).2 (.inl h))]

/-- As long as the loop has not stopped, one more relay can start: the loop rests, a permit becomes
free, it takes one and accepts. -/
theorem started_of_not_stopped (hstage : l.stage ≠ .stopped)
    (hfree : l.stage = .waiting → 0 < l.free + l.running ∧ l.bound.isSome = true) :
    0 < l.started [.rested, .relayEnded, .permitted, .accepted] := by
  obtain ⟨bound, stage, told, free, running⟩ := l
  cases stage with
  | stopped => exact absurd rfl hstage
  | accepting => cases running <;> simp [started, step]
  | waiting =>
    obtain ⟨hsome, hbound⟩ := hfree rfl
    cases running with
    | zero =>
      have : 0 < free := by simpa using hsome
      simp [started, step, this]
    | succ running => simp [started, step, hbound]
  | resting =>
    cases bound with
    | none => cases running <;> simp [started, step, start]
    | some n => cases running <;> simp [started, step, start, held]

/-- A loop comes to wait for a permit only if it has a bound, and then a permit is free or lent to a
relay. -/
theorem free_of_waiting {maxConnections : Option UInt64} (h : new? maxConnections = some l)
    {events : List Event} (hwaiting : (l.run events).stage = .waiting) :
    0 < (l.run events).free + (l.run events).running ∧ (l.run events).bound.isSome = true := by
  have hbounded : ∃ n, maxConnections = some n ∧ 0 < n := by
    refine Decidable.byContradiction fun hnone => ?_
    have hzero : ∀ n ∈ maxConnections, n = 0 := fun n hn => Decidable.byContradiction fun hne =>
      hnone ⟨n, hn, UInt64.pos_iff_ne_zero.2 hne⟩
    obtain ⟨hbound, hstage⟩ := unbounded_new hzero h
    exact stage_run_ne_waiting hbound (by rw [hstage]; decide) events hwaiting
  obtain ⟨n, rfl, hpos⟩ := hbounded
  obtain ⟨hbound, hpermits⟩ := permits_new hpos h
  have hall := (permits_run hbound events).trans hpermits
  have hheld := held_of_bound (l := l.run events) (by rw [bound_run, hbound])
  rw [hwaiting] at hheld
  simp only [reduceCtorEq, or_self, if_false] at hheld
  have hsome : 0 < n.toNat := UInt64.lt_iff_toNat_lt.1 hpos
  exact ⟨by omega, by rw [bound_run, hbound]; rfl⟩

/-! ## The accept loop -/

/-- An accept loop after whatever happened to it and its relays.  With a bound, every permit is
free, held by the loop or lent to a relay.  Without one, nothing holds an accept back.  Every relay
that started is there until it ends.  The signal to stop is kept until the loop notices it, which it
may do after its rest at most and which leaves the relays as they are.  Whether relays can still
start is a matter of the notice and not of the signal. -/
theorem conserves_permits_and_starts_none_once_noticed (maxConnections : Option UInt64) :
    (new? maxConnections = none ↔ ∃ n, maxConnections = some n ∧ maxPermits < n.toNat) ∧
    ∀ l, new? maxConnections = some l → ∀ events,
      let s := l.run events
      (∀ n, maxConnections = some n → 0 < n →
        s.free + s.held + s.running = n.toNat ∧ s.held ≤ 1 ∧ s.running ≤ n.toNat ∧
        (s.stage = .waiting →
          ((s.step .permitted).stage = .accepting ↔ s.running < n.toNat))) ∧
      ((∀ n ∈ maxConnections, n = 0) →
        s.stage ≠ .waiting ∧
        (s.stage = .accepting → (s.step .accepted).stage = .accepting) ∧
        (s.stage = .resting → (s.step .rested).stage = .accepting)) ∧
      (∀ later, (s.run later).running + s.ended later = s.running + s.started later) ∧
      (s.stage = .stopped ↔ ∃ before after, events = before ++ .noticed :: after ∧
        .shutdown ∈ before ∧ (l.run before).isLooking = true) ∧
      (.shutdown ∈ events → (s.run [.rested, .noticed]).stage = .stopped ∧
        (s.run [.rested, .noticed]).running = s.running) ∧
      ((∀ later, s.started later = 0) ↔ s.stage = .stopped) := by
  refine ⟨new?_eq_none_iff maxConnections, fun l hnew events => ?_⟩
  have hfresh := new?_eq_some hnew
  have htold : ∀ events, (l.run events).told = true ↔ .shutdown ∈ events := by
    intro events
    rw [told_run, hfresh]
    simp
  refine ⟨?bounded, ?unbounded, running_run _, ?stopped, fun hmem =>
    run_noticed ((htold events).2 hmem), fun hnone => ?some, started_of_stopped⟩
  case bounded =>
    rintro n rfl hpos
    obtain ⟨hbound, hpermits⟩ := permits_new hpos hnew
    have hall := (permits_run hbound events).trans hpermits
    have hheld := held_le_one (l.run events)
    refine ⟨hall, hheld, by omega, fun hwaiting => ?_⟩
    -- a loop that waits holds no permit
    have hnone : (l.run events).held = 0 := by
      rw [held_of_bound (n := n.toNat) (by rw [bound_run, hbound]), hwaiting]
      rfl
    rw [stage_step_permitted hwaiting]
    omega
  case unbounded =>
    intro hzero
    obtain ⟨hbound, hstage⟩ := unbounded_new hzero hnew
    have hstart : start (l.run events).bound = .accepting := by
      rw [bound_run, start_of_unbounded hbound]
    refine ⟨stage_run_ne_waiting hbound (by rw [hstage]; decide) events, fun haccepting => ?_,
      fun hresting => ?_⟩
    · rw [step, if_pos haccepting]
      exact hstart
    · rw [step, if_pos hresting]
      exact hstart
  case stopped =>
    have hstage : l.stage ≠ .stopped := by
      rw [hfresh]
      exact start_ne_stopped _
    rw [stage_run_eq_stopped, or_iff_right hstage]
    simp only [htold]
  case some =>
    refine Decidable.byContradiction fun hstage => ?_
    have hsome := started_of_not_stopped hstage (free_of_waiting hnew)
    rw [hnone] at hsome
    exact Nat.lt_irrefl 0 hsome

/-- Two permits: one is lent to a relay, a failed accept does not lose the other, and the signal
that arrived during the rest is noticed after it. -/
theorem conserves_permits_and_starts_none_once_noticed_after_failure :
    ∃ l, new? (some 2) = some l ∧
      let s := l.run [.permitted, .accepted, .permitted, .acceptFailed, .shutdown]
      s.free + s.held + s.running = 2 ∧ s.running = 1 ∧
        (s.run [.rested, .noticed]).stage = .stopped ∧
        (s.run [.rested, .noticed]).running = 1 ∧
        ¬ ∀ later, s.started later = 0 := by
  obtain ⟨-, hrun⟩ := conserves_permits_and_starts_none_once_noticed (some 2)
  refine ⟨⟨some 2, .waiting, false, 2, 0⟩, rfl, ?_⟩
  obtain ⟨hbounded, -, -, -, hnoticed, hnone⟩ :=
    hrun _ rfl [.permitted, .accepted, .permitted, .acceptFailed, .shutdown]
  obtain ⟨hstopped, hrunning⟩ := hnoticed (by decide)
  exact ⟨(hbounded 2 rfl (by decide)).1, rfl, hstopped, hrunning,
    fun h => absurd (hnone.1 h) (by decide)⟩

/-- The signal arrives while the loop rests after a failed accept.  The loop wakes, takes the permit
and accepts before it looks: a relay starts after the signal. -/
theorem starts_relay_after_shutdown :
    ¬ ∀ (n : UInt64) (l : Listener), 0 < n → new? (some n) = some l → ∀ before later,
      .shutdown ∈ before → (l.run before).started later = 0 := by
  intro h
  have hnone := h 1 ⟨some 1, .waiting, false, 1, 0⟩ (by decide) rfl
    [.permitted, .acceptFailed, .shutdown] [.rested, .permitted, .accepted] (by decide)
  exact absurd hnone (by decide)

end Meshway.Listener
