import Meshway.Ports
set_option autoImplicit false

/-!
# Ports are handed out in turn (SPEC §10.3 item 12)

The counter has sixteen bits and goes round at the last port, to zero and not to
the first port; a call that finds it there takes the first port and sets it
right.  Main statement: the ports come in turn, from the first to the last and
again from the first, for any number of rounds.  So a listener gets the first
port that is not taken among the next ones in turn, as many as are tried, and
none just when all of these are taken; as long as it is open, no other listener
gets its port.
-/

namespace Meshway

namespace PortAllocator

/-! ## Turns -/

/-- The number of ports from the first one on. -/
def span (base : UInt16) : Nat := UInt16.size - base.toNat

/-- The port whose turn it is after so many calls. -/
def turn (base : UInt16) (k : Nat) : UInt16 := UInt16.ofNat (base.toNat + k % span base)

theorem base_add_span (base : UInt16) : base.toNat + span base = UInt16.size := by
  have hbase : base.toNat < UInt16.size := base.toNat_lt
  unfold span
  omega

theorem mod_span_lt (base : UInt16) (k : Nat) : k % span base < span base :=
  Nat.mod_lt k (Nat.sub_pos_of_lt base.toNat_lt)

theorem toNat_turn (base : UInt16) (k : Nat) :
    (turn base k).toNat = base.toNat + k % span base := by
  have hspan := base_add_span base
  have hlt := mod_span_lt base k
  exact UInt16.toNat_ofNat_of_lt' (by omega)

theorem base_le_turn (base : UInt16) (k : Nat) : base ≤ turn base k := by
  rw [UInt16.le_iff_toNat_le, toNat_turn]
  exact Nat.le_add_right _ _

theorem turn_eq_base {base : UInt16} {k : Nat} (h : k % span base = 0) : turn base k = base := by
  apply UInt16.toNat_inj.1
  rw [toNat_turn, h, Nat.add_zero]

/-- After the last port, the round starts anew. -/
theorem succ_mod_span (base : UInt16) (k : Nat) :
    (k + 1) % span base = if k % span base + 1 = span base then 0 else k % span base + 1 := by
  have hlt := mod_span_lt base k
  rw [← Nat.mod_add_mod]
  split
  · rename_i hlast
    rw [hlast, Nat.mod_self]
  · exact Nat.mod_eq_of_lt (by omega)

/-! ## The counter -/

/-- The counter of an allocator from which the port of turn `k` comes next: it stands at that port,
or at zero when that is the first port. -/
def Due (k : Nat) (a : PortAllocator) : Prop :=
  a.counter = turn a.base k ∨ a.counter = 0 ∧ k % span a.base = 0

theorem due_new (base : UInt16) : (new base).Due 0 := .inl (turn_eq_base (Nat.zero_mod _)).symm

/-- A port that is not the last one is followed by the next port, and the last one by zero. -/
theorem turn_add_one (base : UInt16) (k : Nat) :
    turn base k + 1 = turn base (k + 1) ∨ turn base k + 1 = 0 ∧ (k + 1) % span base = 0 := by
  have hspan := base_add_span base
  have hlt := mod_span_lt base k
  have hturn := toNat_turn base k
  have hnext := toNat_turn base (k + 1)
  rw [succ_mod_span] at hnext ⊢
  rw [← UInt16.toNat_inj, ← UInt16.toNat_inj, UInt16.toNat_add, hturn]
  change (_ + 1) % UInt16.size = _ ∨ (_ + 1) % UInt16.size = 0 ∧ _
  split at hnext
  · rename_i hlast
    refine .inr ⟨?_, if_pos hlast⟩
    rw [Nat.add_assoc, hlast, hspan, Nat.mod_self]
  · rename_i hlast
    rw [hnext]
    exact .inl (Nat.mod_eq_of_lt (by omega))

/-- The second port has its turn after the first, which is the second one too if it is the last. -/
theorem second_eq_turn (a : PortAllocator) {k : Nat} (h : k % span a.base = 0) :
    a.second = turn a.base (k + 1) := by
  have hfirst := turn_eq_base h
  unfold second
  split
  · rename_i hlast
    have hone : span a.base = 1 := by rw [hlast]; rfl
    rw [turn_eq_base (by rw [hone, Nat.mod_one]), hlast]
  · rename_i hlast
    have hnext := turn_add_one a.base k
    rw [hfirst] at hnext
    refine hnext.resolve_right fun hround => hlast ?_
    have hbase : a.base = 0 - 1 := by rw [← hround.1, UInt16.add_sub_cancel]
    exact hbase

/-- What a call does, by where the counter stands. -/
theorem next_eq (a : PortAllocator) :
    a.next =
      if a.counter = 0 ∨ a.counter < a.base then (a.base, { a with counter := a.second })
      else (a.counter, { a with counter := a.counter + 1 }) := by
  have hround : (a.wentRound a.counter = true) ↔ a.counter = 0 ∨ a.counter < a.base := by
    simp [wentRound]
  simp only [← hround]
  rfl

theorem base_le_next (a : PortAllocator) : a.base ≤ a.next.1 := by
  rw [next_eq]
  split
  · exact UInt16.le_refl _
  · rename_i hround
    exact UInt16.not_lt.1 fun hlt => hround (.inr hlt)

/-- A counter at a port from the first one on has not gone round. -/
theorem not_round_of_le {a : PortAllocator} (hbase : a.base ≠ 0) (hle : a.base ≤ a.counter) :
    ¬(a.counter = 0 ∨ a.counter < a.base) := by
  rintro (hzero | hlt)
  · exact hbase (UInt16.le_zero_iff.1 (hzero ▸ hle))
  · exact UInt16.not_lt.2 hle hlt

/-- A call hands out the port whose turn it is, and the next one is due. -/
theorem next_of_due {a : PortAllocator} {k : Nat} (hbase : a.base ≠ 0) (h : a.Due k) :
    a.next.1 = turn a.base k ∧ a.next.2.base = a.base ∧ a.next.2.Due (k + 1) := by
  rw [next_eq]
  rcases h with hcounter | ⟨hcounter, hround⟩
  · have hle : a.base ≤ a.counter := hcounter ▸ base_le_turn a.base k
    rw [if_neg (not_round_of_le hbase hle)]
    refine ⟨hcounter, rfl, ?_⟩
    have hnext := turn_add_one a.base k
    rwa [← hcounter] at hnext
  · rw [if_pos (.inl hcounter)]
    exact ⟨(turn_eq_base hround).symm, rfl, .inl (second_eq_turn a hround)⟩

/-- An allocator after so many calls. -/
def after (base : UInt16) : Nat → PortAllocator
  | 0 => new base
  | k + 1 => (after base k).next.2

section

variable {base : UInt16}

theorem due_after (hbase : base ≠ 0) (k : Nat) :
    (after base k).base = base ∧ (after base k).Due k := by
  induction k with
  | zero => exact ⟨rfl, due_new base⟩
  | succ k ih =>
    obtain ⟨hsame, hdue⟩ := ih
    obtain ⟨-, hkept, hnext⟩ := next_of_due (by rw [hsame]; exact hbase) hdue
    exact ⟨hkept.trans hsame, hnext⟩

/-- After `k` calls the port of turn `k` is handed out. -/
theorem next_after (hbase : base ≠ 0) (k : Nat) :
    (after base k).next = (turn base k, after base (k + 1)) := by
  obtain ⟨hsame, hdue⟩ := due_after hbase k
  have hport := (next_of_due (by rw [hsame]; exact hbase) hdue).1
  rw [hsame] at hport
  exact Prod.ext hport rfl

/-! ## Listeners -/

/-- The next ports in turn are tried, and no more of them than are taken and the one after. -/
theorem tryPorts_after (hbase : base ≠ 0) (taken : UInt16 → Bool) (n k : Nat) :
    (∃ i < n, taken (turn base (k + i)) = false ∧ (∀ j < i, taken (turn base (k + j)) = true) ∧
        tryPorts taken n (after base k) = (some (turn base (k + i)), after base (k + i + 1))) ∨
      (∀ i < n, taken (turn base (k + i)) = true) ∧
        tryPorts taken n (after base k) = (none, after base (k + n)) := by
  induction n generalizing k with
  | zero => exact .inr ⟨fun i hi => absurd hi (Nat.not_lt_zero i), rfl⟩
  | succ n ih =>
    have hshift (i : Nat) : k + 1 + i = k + (i + 1) := by omega
    simp only [tryPorts, next_after hbase k]
    cases htaken : taken (turn base k) with
    | false =>
      exact .inl ⟨0, Nat.succ_pos n, htaken, fun j hj => absurd hj (Nat.not_lt_zero j), rfl⟩
    | true =>
      have hlater := ih (k + 1)
      simp only [hshift] at hlater
      rcases hlater with ⟨i, hi, hfree, hbefore, htry⟩ | ⟨hall, htry⟩
      · refine .inl ⟨i + 1, Nat.succ_lt_succ hi, hfree, fun j hj => ?_, htry⟩
        cases j with
        | zero => exact htaken
        | succ j => exact hbefore j (Nat.lt_of_succ_lt_succ hj)
      · refine .inr ⟨fun i hi => ?_, htry⟩
        cases i with
        | zero => exact htaken
        | succ i => exact hall i (Nat.lt_of_succ_lt_succ hi)

/-- Of the next ports in turn, the first that is not taken. -/
theorem bind_after_eq_ok_iff (hbase : base ≠ 0) (taken : UInt16 → Bool) (k : Nat) (port : UInt16) :
    ((after base k).bind taken).1 = .ok (.number port) ↔
      ∃ i < maxAttempts, port = turn base (k + i) ∧ taken port = false ∧
        ∀ j < i, taken (turn base (k + j)) = true := by
  have hsame := (due_after hbase k).1
  rw [bind, hsame, if_neg hbase]
  rcases tryPorts_after hbase taken maxAttempts k with ⟨i, hi, hfree, hbefore, htry⟩ | ⟨hall, htry⟩
  · simp only [htry, Except.ok.injEq, BoundPort.number.injEq]
    constructor
    · rintro rfl
      exact ⟨i, hi, rfl, hfree, hbefore⟩
    · rintro ⟨i', hi', rfl, hfree', hbefore'⟩
      -- neither of two first free ports is before the other
      rcases Nat.lt_trichotomy i i' with hlt | rfl | hlt
      · rw [hbefore' i hlt] at hfree
        cases hfree
      · rfl
      · rw [hbefore i' hlt] at hfree'
        cases hfree'
  · simp only [htry, reduceCtorEq, false_iff]
    rintro ⟨i, hi, rfl, hfree, -⟩
    rw [hall i hi] at hfree
    cases hfree

/-- No port, when all of them are taken. -/
theorem bind_after_eq_error_iff (hbase : base ≠ 0) (taken : UInt16 → Bool) (k : Nat) :
    ((after base k).bind taken).1 = .error .addressInUse ↔
      ∀ i < maxAttempts, taken (turn base (k + i)) = true := by
  have hsame := (due_after hbase k).1
  rw [bind, hsame, if_neg hbase]
  rcases tryPorts_after hbase taken maxAttempts k with ⟨i, hi, hfree, -, htry⟩ | ⟨hall, htry⟩
  · simp only [htry, reduceCtorEq, false_iff]
    intro hall
    rw [hall i hi] at hfree
    cases hfree
  · simp only [htry, true_iff]
    exact hall

/-- However a listener fares, the allocator has been called so many times more. -/
theorem exists_after_bind (hbase : base ≠ 0) (taken : UInt16 → Bool) (k : Nat) :
    ∃ k', ((after base k).bind taken).2 = after base k' := by
  have hsame := (due_after hbase k).1
  rw [bind, hsame, if_neg hbase]
  rcases tryPorts_after hbase taken maxAttempts k with ⟨i, -, -, -, htry⟩ | ⟨-, htry⟩
  · exact ⟨k + i + 1, by simp only [htry]⟩
  · exact ⟨k + maxAttempts, by simp only [htry]⟩

end

end PortAllocator

/-! ## A host in use -/

/-- The loopback ports of a host: the allocator, the ports of its listeners that are open, and which
ports others have. -/
structure LoopbackPorts where
  allocator : PortAllocator
  listeners : List UInt16
  others : UInt16 → Bool

namespace LoopbackPorts

open PortAllocator

/-- What happens to loopback ports. -/
inductive Event where
  /-- somebody asks for a listener -/
  | listen
  /-- a listener is closed -/
  | close (port : UInt16)
  /-- others take and leave ports -/
  | others (taken : UInt16 → Bool)

/-- A host on which nobody listens. -/
def new (base : UInt16) (others : UInt16 → Bool) : LoopbackPorts := ⟨.new base, [], others⟩

/-- Whether a port is taken, by a listener or by others. -/
def isTaken (s : LoopbackPorts) (port : UInt16) : Bool :=
  s.listeners.contains port || s.others port

/-- What an event makes of the ports. -/
def step (s : LoopbackPorts) : Event → LoopbackPorts
  | .listen =>
    match s.allocator.bind s.isTaken with
    | (.ok (.number port), allocator) =>
      { s with allocator, listeners := port :: s.listeners }
    | (_, allocator) => { s with allocator }
  | .close port => { s with listeners := s.listeners.erase port }
  | .others taken => { s with others := taken }

/-- What events make of the ports, one after the other. -/
def run (s : LoopbackPorts) (events : List Event) : LoopbackPorts := events.foldl step s

/-- What holds of the ports of a host in use: the allocator was only ever called, and no two open
listeners have one port. -/
structure Sound (base : UInt16) (s : LoopbackPorts) : Prop where
  called : ∃ k, s.allocator = after base k
  nodup : s.listeners.Nodup

variable {base : UInt16} {s : LoopbackPorts}

theorem sound_new (base : UInt16) (others : UInt16 → Bool) : Sound base (new base others) :=
  ⟨⟨0, rfl⟩, .nil⟩

/-- A port that is not taken is no port of a listener. -/
theorem notMem_of_not_isTaken {port : UInt16} (h : s.isTaken port = false) :
    port ∉ s.listeners := by
  intro hmem
  rw [isTaken, List.contains_iff_mem.2 hmem] at h
  cases h

/-- The port that a new listener gets is the port of no other. -/
theorem Sound.notMem_of_bind (h : Sound base s) (hbase : base ≠ 0) {port : UInt16}
    (hbind : (s.allocator.bind s.isTaken).1 = .ok (.number port)) : port ∉ s.listeners := by
  obtain ⟨k, hk⟩ := h.called
  rw [hk] at hbind
  obtain ⟨-, -, -, hfree, -⟩ := (bind_after_eq_ok_iff hbase _ k port).1 hbind
  exact notMem_of_not_isTaken hfree

theorem Sound.step (h : Sound base s) (hbase : base ≠ 0) (e : Event) : Sound base (s.step e) := by
  obtain ⟨k, hk⟩ := id h.called
  cases e with
  | listen =>
    have hcalled := exists_after_bind hbase s.isTaken k
    rw [← hk] at hcalled
    simp only [LoopbackPorts.step]
    split
    · rename_i port allocator hbind
      rw [hbind] at hcalled
      exact ⟨hcalled, List.nodup_cons.2 ⟨h.notMem_of_bind hbase (by rw [hbind]), h.nodup⟩⟩
    · rename_i allocator _ hbind
      rw [hbind] at hcalled
      exact ⟨hcalled, h.nodup⟩
  | close port => exact ⟨h.called, h.nodup.erase port⟩
  | others taken => exact ⟨h.called, h.nodup⟩

theorem Sound.run (h : Sound base s) (hbase : base ≠ 0) (events : List Event) :
    Sound base (s.run events) := by
  induction events generalizing s with
  | nil => exact h
  | cons e events ih => exact ih (h.step hbase e)

/-- The ports that an allocator hands out, and what becomes of listeners on a host where anybody
opens and closes listeners and others take and leave ports as they like. -/
theorem bind_takes_first_free_of_next_ports (base : UInt16) (hbase : base ≠ 0) :
    (∀ k, let port := (after base k).next.1
      port.toNat = base.toNat + k % (UInt16.size - base.toNat) ∧ port ≠ 0 ∧ base ≤ port) ∧
    ∀ (others : UInt16 → Bool) (events : List Event),
      let s := (new base others).run events
      let bound := (s.allocator.bind s.isTaken).1
      (∃ k, s.allocator = after base k ∧
        (∀ port, bound = .ok (.number port) ↔
          ∃ i < 64, port = (after base (k + i)).next.1 ∧ s.isTaken port = false ∧
            ∀ j < i, s.isTaken (after base (k + j)).next.1 = true) ∧
        (bound = .error .addressInUse ↔ ∀ i < 64, s.isTaken (after base (k + i)).next.1 = true)) ∧
      s.listeners.Nodup ∧ ∀ port ∈ s.listeners, bound ≠ .ok (.number port) := by
  have hport (k : Nat) : (after base k).next.1 = turn base k := by rw [next_after hbase k]
  constructor
  · intro k
    simp only [hport]
    refine ⟨toNat_turn base k, fun hzero => hbase ?_, base_le_turn base k⟩
    exact UInt16.le_zero_iff.1 (hzero ▸ base_le_turn base k)
  · intro others events s bound
    have hsound : Sound base s := (sound_new base others).run hbase events
    refine ⟨?_, hsound.nodup, fun port hmem hbind => hsound.notMem_of_bind hbase hbind hmem⟩
    obtain ⟨k, hk⟩ := hsound.called
    simp only [bound, hport]
    refine ⟨k, hk, ?_⟩
    rw [hk]
    exact ⟨fun port => bind_after_eq_ok_iff hbase s.isTaken k port,
      bind_after_eq_error_iff hbase s.isTaken k⟩

/-- Two ports only: both were handed out, and one was given back. -/
theorem bind_takes_none_of_two_handed_out :
    let base : UInt16 := 65534
    let s := (new base fun _ => false).run [.listen, .listen, .close 65534]
    base ≠ 0 ∧ (after base 5).next.1.toNat = 65535 ∧ s.listeners = [65535] ∧
      (s.allocator.bind s.isTaken).1 ≠ .ok (.number 65535) := by
  intro base s
  have hbase : base ≠ 0 := by decide
  have hlisteners : s.listeners = [65535] := by decide
  obtain ⟨hturn, hhost⟩ := bind_takes_first_free_of_next_ports base hbase
  obtain ⟨-, -, hopen⟩ := hhost (fun _ => false) [.listen, .listen, .close 65534]
  have hlast : base.toNat + 5 % (UInt16.size - base.toNat) = 65535 := by decide
  exact ⟨hbase, (hturn 5).1.trans hlast, hlisteners,
    hopen 65535 (hlisteners ▸ List.mem_singleton_self _)⟩

end LoopbackPorts

end Meshway
