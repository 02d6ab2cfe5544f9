import Mathlib.Data.Finset.Card
import Mathlib.Data.Fintype.Card
import Mathlib.Data.Nat.ModEq
import Meshway.Proofs.Ports
set_option autoImplicit false

/-!
# Calls for a port that overlap (SPEC §5, §10.3 item 12)

A call takes one step on the counter, and a second one where it finds that the
counter has gone round.  Between the steps of one call, others may take theirs.
Main statement: callers get different ports, where there are enough of them,
just if no call begins while another is between its two steps.  A call that does
begin there finds the counter at one and is handed the first port once more.
-/

namespace Meshway

/-- Within one round, turns have different ports. -/
theorem PortAllocator.turn_injective {base : UInt16} {k r r' : Nat} (hr : r < span base)
    (hr' : r' < span base) (h : turn base (k + r) = turn base (k + r')) : r = r' := by
  have hmod : (k + r) % span base = (k + r') % span base := by
    have hval := congrArg UInt16.toNat h
    rw [toNat_turn, toNat_turn] at hval
    omega
  have hmod' : r % span base = r' % span base := Nat.ModEq.add_left_cancel' k hmod
  rwa [Nat.mod_eq_of_lt hr, Nat.mod_eq_of_lt hr'] at hmod'

/-! ## Callers -/

/-- How far a call is. -/
inductive PortCall where
  /-- it has not begun -/
  | waiting
  /-- it has found that the counter has gone round, and its second step is due -/
  | restarting
  /-- it is over, with the port that was handed out -/
  | returned (port : UInt16)
  deriving DecidableEq, Repr

namespace PortCall

/-- The port of a call, which its first step settles, if `base` is the first port. -/
def port? (base : UInt16) : PortCall → Option UInt16
  | .waiting => none
  | .restarting => some base
  | .returned port => some port

/-- The steps that a call has left, at most. -/
def left : PortCall → Nat
  | .waiting => 2
  | .restarting => 1
  | .returned _ => 0

theorem left_le_two (c : PortCall) : c.left ≤ 2 := by
  cases c <;> simp [left]

end PortCall

/-- An allocator with callers that share it, and how far each call is. -/
structure PortCallers (m : Nat) where
  allocator : PortAllocator
  call : Fin m → PortCall

namespace PortCallers

open PortAllocator

variable {m : Nat}

/-- Callers that have not begun. -/
def start (m : Nat) (a : PortAllocator) : PortCallers m := ⟨a, fun _ => .waiting⟩

/-- The next step of a call.  A call that is over takes none. -/
def step (s : PortCallers m) (i : Fin m) : PortCallers m :=
  match s.call i with
  | .waiting =>
    let (port, a) := s.allocator.advance
    ⟨a, Function.update s.call i (if a.wentRound port then .restarting else .returned port)⟩
  | .restarting =>
    ⟨s.allocator.restart, Function.update s.call i (.returned s.allocator.base)⟩
  | .returned _ => s

/-- Calls that take their steps in some order. -/
def run (s : PortCallers m) (order : List (Fin m)) : PortCallers m := order.foldl step s

/-- The port of one of the calls, from its first step on. -/
def port? (s : PortCallers m) (i : Fin m) : Option UInt16 := (s.call i).port? s.allocator.base

/-- The calls that have begun. -/
def begun (s : PortCallers m) : Finset (Fin m) := Finset.univ.filter fun i => s.call i ≠ .waiting

/-- Whether the next step of a call is its first, while another is between its two steps. -/
def Disturbs (s : PortCallers m) (i : Fin m) : Prop :=
  s.call i = .waiting ∧ ∃ j, s.call j = .restarting

/-- Whether no call begins while another is between its two steps. -/
def Undisturbed (s : PortCallers m) : List (Fin m) → Prop
  | [] => True
  | i :: order => ¬ s.Disturbs i ∧ (s.step i).Undisturbed order

instance (s : PortCallers m) (i : Fin m) : Decidable (s.Disturbs i) :=
  inferInstanceAs (Decidable (_ ∧ _))

instance decidableUndisturbed : (s : PortCallers m) → (order : List (Fin m)) →
    Decidable (s.Undisturbed order)
  | _, [] => isTrue trivial
  | s, i :: order =>
    have := decidableUndisturbed (s.step i) order
    inferInstanceAs (Decidable (_ ∧ _))

variable {s : PortCallers m} {i j : Fin m} {port : UInt16}

/-! ## Steps -/

/-- The first step moves the counter on, and ends the call unless the counter has gone round. -/
theorem step_of_waiting (h : s.call i = .waiting) :
    (s.step i).allocator = { s.allocator with counter := s.allocator.counter + 1 } ∧
      (s.step i).call i =
        if s.allocator.counter = 0 ∨ s.allocator.counter < s.allocator.base then .restarting
        else .returned s.allocator.counter := by
  have hround : (s.allocator.wentRound s.allocator.counter = true) ↔
      s.allocator.counter = 0 ∨ s.allocator.counter < s.allocator.base := by
    simp [wentRound]
  rw [step, h]
  simp only [← hround]
  exact ⟨rfl, Function.update_self _ _ _⟩

/-- The second step sets the counter right and ends the call. -/
theorem step_of_restarting (h : s.call i = .restarting) :
    (s.step i).allocator = s.allocator.restart ∧
      (s.step i).call i = .returned s.allocator.base := by
  rw [step, h]
  exact ⟨rfl, Function.update_self _ _ _⟩

theorem step_of_returned (h : s.call i = .returned port) : s.step i = s := by
  simp only [step, h]

theorem base_step (s : PortCallers m) (i : Fin m) :
    (s.step i).allocator.base = s.allocator.base := by
  cases h : s.call i with
  | waiting => rw [(step_of_waiting h).1]
  | restarting => rw [(step_of_restarting h).1, restart]
  | returned port => rw [step_of_returned h]

/-- A step of one call leaves the others where they are. -/
theorem call_step_of_ne (h : j ≠ i) : (s.step i).call j = s.call j := by
  simp only [step]
  split
  · exact Function.update_of_ne h _ _
  · exact Function.update_of_ne h _ _
  · rfl

/-- A step that ends a call leaves no other call between its steps than was there before. -/
theorem restarting_of_step (hreturned : (s.step i).call i = .returned port)
    (h : (s.step i).call j = .restarting) : j ≠ i ∧ s.call j = .restarting := by
  have hne : j ≠ i := by
    rintro rfl
    cases h.symm.trans hreturned
  exact ⟨hne, (call_step_of_ne hne).symm.trans h⟩

theorem port?_step_of_ne (h : j ≠ i) : (s.step i).port? j = s.port? j := by
  rw [port?, port?, call_step_of_ne h, base_step]

/-- The port of a call is the one that it would be handed at its first step without others. -/
theorem port?_step_of_waiting (h : s.call i = .waiting) :
    (s.step i).port? i = some s.allocator.next.1 := by
  rw [port?, base_step, (step_of_waiting h).2, next_eq]
  split_ifs <;> rfl

/-- A call that nobody overlaps is a call of `next`. -/
theorem step_step_of_waiting (h : s.call i = .waiting) :
    ((s.step i).step i).allocator = s.allocator.next.2 ∧
      ((s.step i).step i).call i = .returned s.allocator.next.1 := by
  obtain ⟨hallocator, hcall⟩ := step_of_waiting h
  rw [next_eq]
  split_ifs at hcall ⊢
  · obtain ⟨hrestart, hreturned⟩ := step_of_restarting hcall
    rw [hrestart, hreturned, hallocator]
    exact ⟨rfl, rfl⟩
  · rw [step_of_returned hcall]
    exact ⟨hallocator, hcall⟩

/-- Steps after the first change no port. -/
theorem port?_step_of_begun (h : s.call i ≠ .waiting) (j : Fin m) :
    (s.step i).port? j = s.port? j := by
  by_cases hj : j = i
  · subst hj
    cases hcall : s.call j with
    | waiting => exact absurd hcall h
    | restarting => rw [port?, port?, (step_of_restarting hcall).2, hcall]; rfl
    | returned port => rw [step_of_returned hcall]
  · exact port?_step_of_ne hj

/-- A call keeps its port. -/
theorem port?_run_eq_some (h : s.port? j = some port) (order : List (Fin m)) :
    (s.run order).port? j = some port := by
  induction order generalizing s with
  | nil => exact h
  | cons i order ih =>
    refine ih ?_
    by_cases hcall : s.call i = .waiting
    · have hne : j ≠ i := by
        rintro rfl
        rw [port?, hcall] at h
        cases h
      rwa [port?_step_of_ne hne]
    · rwa [port?_step_of_begun hcall]

/-! ## Every call is over after two steps -/

theorem left_step (s : PortCallers m) (i j : Fin m) :
    ((s.step i).call j).left ≤ (s.call j).left - if i = j then 1 else 0 := by
  by_cases h : i = j
  · subst h
    rw [if_pos rfl]
    cases hcall : s.call i with
    | waiting =>
      rw [(step_of_waiting hcall).2]
      split_ifs
      · exact Nat.le_refl 1
      · exact Nat.zero_le 1
    | restarting =>
      rw [(step_of_restarting hcall).2]
      exact Nat.zero_le 0
    | returned port =>
      rw [step_of_returned hcall, hcall]
      exact Nat.zero_le _
  · rw [call_step_of_ne (Ne.symm h), if_neg h]
    exact Nat.le_refl _

theorem left_run (s : PortCallers m) (order : List (Fin m)) (j : Fin m) :
    ((s.run order).call j).left ≤ (s.call j).left - order.count j := by
  induction order generalizing s with
  | nil => exact Nat.le_refl _
  | cons i order ih =>
    have hstep := left_step s i j
    have hrun := ih (s.step i)
    simp only [List.count_cons, beq_iff_eq]
    exact Nat.le_trans hrun (by omega)

/-- A call that has taken two steps is over. -/
theorem exists_returned {order : List (Fin m)} (h : 2 ≤ order.count j) :
    ∃ port, (s.run order).call j = .returned port := by
  have hleft := left_run s order j
  have hmost := (s.call j).left_le_two
  have hzero : ((s.run order).call j).left = 0 := by omega
  cases hcall : (s.run order).call j with
  | returned port => exact ⟨port, rfl⟩
  | _ =>
    rw [hcall] at hzero
    cases hzero

/-! ## Ports are from the first one on -/

/-- Whether every port is one from the first on. -/
def InRange (s : PortCallers m) : Prop :=
  ∀ i port, s.port? i = some port → s.allocator.base ≤ port

theorem inRange_start (m : Nat) (a : PortAllocator) : (start m a).InRange := nofun

theorem InRange.step (h : s.InRange) (i : Fin m) : (s.step i).InRange := by
  intro j port hport
  rw [base_step]
  by_cases hcall : s.call i = .waiting
  · by_cases hj : j = i
    · rw [hj, port?_step_of_waiting hcall, Option.some.injEq] at hport
      exact hport ▸ base_le_next _
    · rw [port?_step_of_ne hj] at hport
      exact h j port hport
  · rw [port?_step_of_begun hcall] at hport
    exact h j port hport

theorem InRange.run (h : s.InRange) (order : List (Fin m)) :
    (s.run order).InRange ∧ (s.run order).allocator.base = s.allocator.base := by
  induction order generalizing s with
  | nil => exact ⟨h, rfl⟩
  | cons i order ih =>
    obtain ⟨hrange, hbase⟩ := ih (h.step i)
    exact ⟨hrange, hbase.trans (base_step s i)⟩

/-! ## The calls that have begun -/

theorem mem_begun : i ∈ s.begun ↔ s.call i ≠ .waiting := by
  simp [begun]

theorem card_begun_lt (h : s.call i = .waiting) : s.begun.card < m := by
  have hnot : i ∉ s.begun := fun hmem => mem_begun.1 hmem h
  simpa using Finset.card_lt_univ_of_notMem hnot

theorem call_step_ne_waiting (s : PortCallers m) (i : Fin m) : (s.step i).call i ≠ .waiting := by
  cases hcall : s.call i with
  | waiting =>
    rw [(step_of_waiting hcall).2]
    split_ifs <;> nofun
  | restarting =>
    rw [(step_of_restarting hcall).2]
    nofun
  | returned port =>
    rw [step_of_returned hcall, hcall]
    nofun

theorem begun_step (s : PortCallers m) (i : Fin m) : (s.step i).begun = insert i s.begun := by
  ext j
  rw [Finset.mem_insert, mem_begun, mem_begun]
  by_cases hj : j = i
  · subst hj
    simp [call_step_ne_waiting]
  · simp [hj, call_step_of_ne hj]

theorem card_begun_step (h : s.call i = .waiting) :
    (s.step i).begun.card = s.begun.card + 1 := by
  rw [begun_step, Finset.card_insert_of_notMem fun hmem => mem_begun.1 hmem h]

theorem begun_step_of_begun (h : s.call i ≠ .waiting) : (s.step i).begun = s.begun := by
  rw [begun_step, Finset.insert_eq_of_mem (mem_begun.2 h)]

/-! ## Calls that are not disturbed -/

/-- Where the counter stands for the call that begins next: at the port of turn `k`, or, while a
call is between its two steps, at one, where that call will set it right. -/
inductive Resumes (k : Nat) (s : PortCallers m) : Prop where
  | settled (hnone : ∀ i, s.call i ≠ .restarting) (hdue : s.allocator.Due k)
  | between (j : Fin m) (hcall : s.call j = .restarting)
      (honly : ∀ i, s.call i = .restarting → i = j) (hcounter : s.allocator.counter = 1)
      (hdue : s.allocator.restart.Due k)

/-- After a first step that disturbs nobody, the next turn is due. -/
theorem resumes_step_of_waiting {k : Nat} (hbase : s.allocator.base ≠ 0)
    (hcall : s.call i = .waiting) (hnone : ∀ j, s.call j ≠ .restarting)
    (hdue : s.allocator.Due k) : (s.step i).Resumes (k + 1) := by
  obtain ⟨hallocator, hcall'⟩ := step_of_waiting hcall
  have hnext := (next_of_due hbase hdue).2.2
  rw [next_eq] at hnext
  split_ifs at hcall' hnext with hround
  · -- only a counter at zero has gone round
    have hzero : s.allocator.counter = 0 := by
      rcases hdue with hturn | ⟨hzero, -⟩
      · exact absurd hround (not_round_of_le hbase (hturn ▸ base_le_turn _ _))
      · exact hzero
    refine .between i hcall' (fun j hj => ?_) (by rw [hallocator, hzero]; rfl) ?_
    · by_contra hne
      rw [call_step_of_ne hne] at hj
      exact hnone j hj
    · rw [hallocator]
      exact hnext
  · refine .settled (fun j hj => hnone j (restarting_of_step hcall' hj).2) ?_
    rw [hallocator]
    exact hnext

/-- After the second step of the only call that is between its steps, the same turn is due. -/
theorem resumes_step_of_restarting {k : Nat} (h : s.Resumes k) (hcall : s.call i = .restarting) :
    (s.step i).Resumes k := by
  obtain ⟨hallocator, hreturned⟩ := step_of_restarting hcall
  cases h with
  | settled hnone => exact absurd hcall (hnone i)
  | between j _ honly _ hdue =>
    refine .settled (fun j' hj' => ?_) (by rw [hallocator]; exact hdue)
    obtain ⟨hne, hbefore⟩ := restarting_of_step hreturned hj'
    exact hne ((honly j' hbefore).trans (honly i hcall).symm)

/-- What holds of callers that have not disturbed each other, after `k` calls before theirs: the
calls that have begun have the ports of the turns from there on, each its own. -/
structure Sound (base : UInt16) (k : Nat) (s : PortCallers m) : Prop where
  base_eq : s.allocator.base = base
  handed : ∀ i port, s.port? i = some port → ∃ r < s.begun.card, port = turn base (k + r)
  apart : ∀ i j port, s.port? i = some port → s.port? j = some port → i = j
  resumes : s.Resumes (k + s.begun.card)

variable {base : UInt16} {k : Nat}

theorem sound_start (m : Nat) (hbase : base ≠ 0) (k : Nat) :
    Sound base k (start m (after base k)) := by
  obtain ⟨hsame, hdue⟩ := due_after hbase k
  have hbegun : (start m (after base k)).begun.card = 0 := by simp [begun, start]
  exact ⟨hsame, nofun, nofun, .settled nofun (by rw [hbegun]; exact hdue)⟩

/-- The call that begins next, if it disturbs nobody, gets the port whose turn it is. -/
theorem Sound.port?_step (h : Sound base k s) (hbase : base ≠ 0) (hcall : s.call i = .waiting)
    (hdue : s.allocator.Due (k + s.begun.card)) :
    (s.step i).port? i = some (turn base (k + s.begun.card)) := by
  rw [port?_step_of_waiting hcall, (next_of_due (by rwa [h.base_eq]) hdue).1, h.base_eq]

/-- The turn of the next call is that of no call before it. -/
theorem Sound.ne_turn (h : Sound base k s) (hm : m ≤ span base) (hcall : s.call i = .waiting)
    (hport : s.port? j = some port) : port ≠ turn base (k + s.begun.card) := by
  rintro rfl
  obtain ⟨r, hr, heq⟩ := h.handed j _ hport
  have hroom := card_begun_lt hcall
  have hsame := turn_injective (by omega) (by omega) heq
  omega

/-- A first step that disturbs nobody. -/
theorem Sound.begin (h : Sound base k s) (hbase : base ≠ 0) (hm : m ≤ span base)
    (hcall : s.call i = .waiting) (hnone : ∀ j, s.call j ≠ .restarting) :
    Sound base k (s.step i) := by
  have hdue : s.allocator.Due (k + s.begun.card) := by
    cases h.resumes with
    | settled _ hdue => exact hdue
    | between j hj => exact absurd hj (hnone j)
  have hnew := h.port?_step hbase hcall hdue
  have hold (j : Fin m) (hj : j ≠ i) : (s.step i).port? j = s.port? j := port?_step_of_ne hj
  refine ⟨by rw [base_step, h.base_eq], fun j port hj => ?_, fun j j' port hj hj' => ?_, ?_⟩
  · rw [card_begun_step hcall]
    by_cases heq : j = i
    · rw [heq, hnew, Option.some.injEq] at hj
      exact ⟨_, Nat.lt_succ_self _, hj.symm⟩
    · rw [hold j heq] at hj
      obtain ⟨r, hr, hport⟩ := h.handed j port hj
      exact ⟨r, Nat.lt_succ_of_lt hr, hport⟩
  · by_cases heq : j = i <;> by_cases heq' : j' = i
    · rw [heq, heq']
    · rw [heq, hnew, Option.some.injEq] at hj
      rw [hold j' heq'] at hj'
      exact absurd hj.symm (h.ne_turn hm hcall hj')
    · rw [heq', hnew, Option.some.injEq] at hj'
      rw [hold j heq] at hj
      exact absurd hj'.symm (h.ne_turn hm hcall hj)
    · rw [hold j heq] at hj
      rw [hold j' heq'] at hj'
      exact h.apart j j' port hj hj'
  · rw [card_begun_step hcall]
    exact resumes_step_of_waiting (by rwa [h.base_eq]) hcall hnone hdue

theorem Sound.step (h : Sound base k s) (hbase : base ≠ 0) (hm : m ≤ span base)
    (hfree : ¬ s.Disturbs i) : Sound base k (s.step i) := by
  by_cases hcall : s.call i = .waiting
  · exact h.begin hbase hm hcall fun j hj => hfree ⟨hcall, j, hj⟩
  have hports : ∀ j, (s.step i).port? j = s.port? j := port?_step_of_begun hcall
  refine ⟨by rw [base_step, h.base_eq], ?_, ?_, ?_⟩
  · simp only [hports, begun_step_of_begun hcall]
    exact h.handed
  · simp only [hports]
    exact h.apart
  · rw [begun_step_of_begun hcall]
    cases hcase : s.call i with
    | waiting => exact absurd hcase hcall
    | restarting => exact resumes_step_of_restarting h.resumes hcase
    | returned port =>
      rw [step_of_returned hcase]
      exact h.resumes

theorem Sound.run (h : Sound base k s) (hbase : base ≠ 0) (hm : m ≤ span base)
    {order : List (Fin m)} (hfree : s.Undisturbed order) : Sound base k (s.run order) := by
  induction order generalizing s with
  | nil => exact h
  | cons i order ih => exact ih (h.step hbase hm hfree.1) hfree.2

/-! ## A call that is disturbed -/

/-- A call that begins while another is between its two steps gets the port of that call. -/
theorem Sound.disturb (h : Sound base k s) (hbase : base ≠ 0) (hcall : s.call i = .waiting)
    (hj : s.call j = .restarting) :
    (s.step i).port? i = some base ∧ (s.step i).port? j = some base := by
  have hne : j ≠ i := by
    rintro rfl
    cases hj.symm.trans hcall
  have hother : s.port? j = some base := by rw [port?, hj, h.base_eq]; rfl
  refine ⟨?_, by rw [port?_step_of_ne hne, hother]⟩
  cases h.resumes with
  | settled hnone => exact absurd hj (hnone j)
  | between _ _ _ hcounter =>
    rw [port?_step_of_waiting hcall, next_eq, hcounter, h.base_eq]
    split_ifs with hround
    · rfl
    · -- one is no port before the first, so it is the first itself
      have hle : base.toNat ≤ 1 :=
        UInt16.le_iff_toNat_le.1 (UInt16.not_lt.1 fun hlt => hround (.inr hlt))
      have hpos : base.toNat ≠ 0 := fun hzero => hbase (UInt16.toNat_inj.1 hzero)
      have hone : 1 = base :=
        UInt16.toNat_inj.1 (Nat.le_antisymm (Nat.one_le_iff_ne_zero.2 hpos) hle)
      exact congrArg some hone

theorem Sound.exists_shared (h : Sound base k s) (hbase : base ≠ 0) (hm : m ≤ span base)
    {order : List (Fin m)} (hdisturbed : ¬ s.Undisturbed order) :
    ∃ i j, i ≠ j ∧ (s.run order).port? i = some base ∧ (s.run order).port? j = some base := by
  induction order generalizing s with
  | nil => exact absurd trivial hdisturbed
  | cons i order ih =>
    by_cases hfree : s.Disturbs i
    · obtain ⟨hcall, j, hj⟩ := hfree
      obtain ⟨hport, hport'⟩ := h.disturb hbase hcall hj
      have hne : i ≠ j := by
        rintro rfl
        cases hj.symm.trans hcall
      exact ⟨i, j, hne, port?_run_eq_some hport order, port?_run_eq_some hport' order⟩
    · exact ih (h.step hbase hm hfree) fun hrest => hdisturbed ⟨hfree, hrest⟩

/-! ## Before the counter goes round -/

/-- Whether no call finds that the counter has gone round: there are ports left for all that have
not begun. -/
structure Room (s : PortCallers m) : Prop where
  none : ∀ i, s.call i ≠ .restarting
  room : ∀ i, s.call i = .waiting → s.allocator.base ≤ s.allocator.counter ∧
    s.allocator.counter.toNat + (m - s.begun.card) ≤ UInt16.size

theorem Room.step (h : s.Room) (hbase : s.allocator.base ≠ 0) (i : Fin m) : (s.step i).Room := by
  cases hcall : s.call i with
  | waiting =>
    obtain ⟨hallocator, hcall'⟩ := step_of_waiting hcall
    obtain ⟨hle, hroom⟩ := h.room i hcall
    rw [if_neg (not_round_of_le hbase hle)] at hcall'
    refine ⟨fun j hj => h.none j (restarting_of_step hcall' hj).2, fun j hj => ?_⟩
    -- the call that still waits has a port left, so the counter does not go round yet
    have hbegun := card_begun_step hcall
    have hleft := card_begun_lt hj
    have hcounter : (s.allocator.counter + 1).toNat = s.allocator.counter.toNat + 1 := by
      rw [UInt16.toNat_add]
      exact Nat.mod_eq_of_lt (by change _ + 1 < UInt16.size; omega)
    rw [UInt16.le_iff_toNat_le] at hle ⊢
    rw [hallocator, hbegun]
    simp only [hcounter]
    omega
  | restarting => exact absurd hcall (h.none i)
  | returned port =>
    rw [step_of_returned hcall]
    exact h

theorem Room.undisturbed (h : s.Room) (hbase : s.allocator.base ≠ 0) (order : List (Fin m)) :
    s.Undisturbed order := by
  induction order generalizing s with
  | nil => trivial
  | cons i order ih =>
    exact ⟨fun ⟨_, j, hj⟩ => h.none j hj, ih (h.step hbase i) (by rwa [base_step])⟩

theorem room_start {a : PortAllocator} (hle : a.base ≤ a.counter)
    (hroom : a.counter.toNat + m ≤ UInt16.size) : (start m a).Room := by
  refine ⟨nofun, fun i _ => ⟨hle, ?_⟩⟩
  exact Nat.le_trans (Nat.add_le_add_left (Nat.sub_le _ _) _) hroom

/-! ## All callers -/

/-- Callers of an allocator that was called so many times before, taking their steps in any order.
A call is over after two steps.  Its port is one from the first on.  Where there are as many ports
as callers, no two of these get the same port just if none begins while another is between its two
steps.  In no order does one begin there if the ports up to the last are enough for all. -/
theorem different_ports_iff_undisturbed {base : UInt16} (hbase : base ≠ 0) {m : Nat}
    (hm : m ≤ UInt16.size - base.toNat) (k : Nat) (order : List (Fin m)) :
    let s := start m (after base k)
    ((∀ i, 2 ≤ order.count i) →
      ∃ ports : Fin m → UInt16, ∀ i, (s.run order).call i = .returned (ports i)) ∧
    (∀ ports : Fin m → UInt16, (∀ i, (s.run order).call i = .returned (ports i)) →
      (∀ i, base ≤ ports i) ∧ (Function.Injective ports ↔ s.Undisturbed order)) ∧
    (base ≤ s.allocator.counter → s.allocator.counter.toNat + m ≤ UInt16.size →
      s.Undisturbed order) := by
  intro s
  have hstart : Sound base k s := sound_start m hbase k
  refine ⟨fun hcount => ?_, fun ports hports => ?_, fun hle hroom => ?_⟩
  · exact Classical.skolem.1 fun i => exists_returned (hcount i)
  · have hport (i : Fin m) : (s.run order).port? i = some (ports i) := by
      rw [port?, hports i]
      rfl
    obtain ⟨hrange, hsame⟩ := (inRange_start m (after base k)).run order
    refine ⟨fun i => ?_, fun hinjective => ?_, fun hfree i j hij => ?_⟩
    · have hle := hrange i _ (hport i)
      rwa [hsame, hstart.base_eq] at hle
    · by_contra hdisturbed
      obtain ⟨i, j, hne, hi, hj⟩ := hstart.exists_shared hbase hm hdisturbed
      rw [hport, Option.some.injEq] at hi hj
      exact hne (hinjective (hi.trans hj.symm))
    · exact (hstart.run hbase hm hfree).apart i j _ (hport i) (hij ▸ hport j)
  · have hbase' : s.allocator.base ≠ 0 := by rwa [hstart.base_eq]
    rw [← hstart.base_eq] at hle
    exact (room_start hle hroom).undisturbed hbase' order

/-- Two ports and two callers.  The counter has gone round, and one caller takes both its steps
before the other begins.  At the first port, any order does. -/
theorem different_ports_one_after_the_other :
    let base : UInt16 := 65534
    let s := start 2 (after base 2)
    let order : List (Fin 2) := [1, 1, 0, 0]
    let ports : Fin 2 → UInt16 := fun i => if i = 0 then 65535 else 65534
    base ≠ 0 ∧ 2 ≤ UInt16.size - base.toNat ∧ (∀ i, 2 ≤ order.count i) ∧
      (∀ i, (s.run order).call i = .returned (ports i)) ∧ Function.Injective ports ∧
      (start 2 (after base 0)).Undisturbed [0, 1, 1, 0] := by
  intro base s order ports
  have hbase : base ≠ 0 := by decide
  have hm : 2 ≤ UInt16.size - base.toNat := by decide
  have hreturned : ∀ i, (s.run order).call i = .returned (ports i) := by decide
  obtain ⟨-, hports, -⟩ := different_ports_iff_undisturbed hbase hm 2 order
  obtain ⟨-, -, hroom⟩ := different_ports_iff_undisturbed hbase hm 0 [0, 1, 1, 0]
  exact ⟨hbase, hm, by decide, hreturned, (hports ports hreturned).2.2 (by decide),
    hroom (by decide) (by decide)⟩

/-- All sixty-five ports were handed out once and the counter has gone round.  A caller begins while
another is between its two steps, and both get the first port. -/
theorem shared_port_of_disturbed_call :
    let base : UInt16 := 65471
    let s := (start 2 (after base 65)).run [0, 1, 0, 1]
    base ≠ 0 ∧ 2 ≤ UInt16.size - base.toNat ∧ ∃ ports : Fin 2 → UInt16,
      (∀ i, s.call i = .returned (ports i)) ∧ ¬ Function.Injective ports := by
  refine ⟨by decide, by decide, fun _ => 65471, by decide +kernel, fun hinjective => ?_⟩
  have hsame : (0 : Fin 2) = 1 := hinjective rfl
  cases hsame

end PortCallers

end Meshway
