import Meshway.Proofs.Stream.Ledger
set_option autoImplicit false

/-!
# What becomes of a chunk (SPEC §4.3, §5)

A registry keeps three tables: who claims a stream, what has begun to arrive for
it, and what waits for its owner.  However it is used, they agree: octets are
kept only for streams that are claimed, and whoever claims a stream has a
generation of its own and is still there to receive.  Main statement: so what
becomes of a chunk is told by the chunk itself and by whether its stream is
claimed, what is announced is put at the end of the queue of the owner and of
nobody else, and no claim is ever taken from an owner that went away.
-/

namespace Meshway

/-- Octets are kept after a chunk for its stream, unless it ended, and for those they were kept for
before. -/
theorem Reassembler.contains_accept {r : Reassembler} {c : Chunk} {id : StreamId}
    (h : (r.accept c).2.partials.contains id = true) :
    (id = c.streamId ∧ c.isClose = false) ∨
      (id ≠ c.streamId ∧ r.partials.contains id = true) := by
  have hforget : (r.forget c.streamId).partials.contains id = true →
      id ≠ c.streamId ∧ r.partials.contains id = true :=
    (r.partials.contains_erase_iff c.streamId id).1
  unfold accept at h
  split at h
  · exact .inr (hforget h)
  · rename_i hclose
    have hopen : c.isClose = false := Bool.eq_false_iff.2 hclose
    split at h
    · exact .inr (hforget h)
    · dsimp only at h
      split at h
      · exact .inr (hforget h)
      · by_cases hid : id = c.streamId
        · exact .inl ⟨hid, hopen⟩
        · exact .inr ⟨hid, ((Table.contains_insert_iff _ _ _ _).1 h).resolve_left hid⟩

/-- Octets are kept where there are any. -/
theorem Reassembler.contains_of_buffered {r : Reassembler} {id : StreamId}
    (h : 0 < r.buffered id) : r.partials.contains id = true := by
  unfold buffered held at h
  unfold Table.contains
  cases hkept : r.partials.get? id with
  | none => simp [hkept] at h
  | some octets => rfl

/-- Whether an operation is to claim a stream. -/
def RegistryOp.registers : RegistryOp → Bool
  | .register _ => true
  | _ => false

namespace Registry

/-- What becomes of a chunk whose stream is claimed by a registration that was not given up. -/
theorem deliver_fst_of_claimed {r : Registry} {c : Chunk} {k : Nat} {queue : List StreamEvent}
    (hclaim : r.streams.get? c.streamId = some k) (hqueue : r.inboxes.get? k = some queue) :
    (r.deliver c).1 =
      if c.payload = [] then .closed else if c.isLast then .delivered else .buffered := by
  have hjoined := r.reassembler.accept_fst c
  have hclose : c.isClose = true ↔ c.payload = [] := List.isEmpty_iff
  unfold Chunk.join at hjoined
  unfold deliver
  simp only [hclaim]
  split
  · rename_i reassembler haccept
    rw [haccept] at hjoined
    split at hjoined
    · cases hjoined
    · rename_i hopen
      rw [if_neg (mt hclose.2 hopen)]
      dsimp only at hjoined
      split at hjoined
      · cases hjoined
      · rename_i hlast
        rw [if_neg hlast]
  · rename_i message reassembler haccept
    rw [haccept] at hjoined
    simp only [post?, hqueue, Option.map_some]
    split at hjoined
    · cases hjoined
    · rename_i hopen
      rw [if_neg (mt hclose.2 hopen)]
      dsimp only at hjoined
      split at hjoined
      · rename_i hlast
        rw [if_pos hlast]
      · cases hjoined
  · rename_i reassembler haccept
    rw [haccept] at hjoined
    split at hjoined
    · rename_i hempty
      rw [if_pos (hclose.1 hempty)]
    · dsimp only at hjoined
      split at hjoined <;> cases hjoined

/-- It is told by what the reassembler makes of it. -/
theorem deliver_fst_of_accept {r : Registry} {c : Chunk} {k : Nat} {queue : List StreamEvent}
    (hclaim : r.streams.get? c.streamId = some k) (hqueue : r.inboxes.get? k = some queue) :
    (r.deliver c).1 = match (r.reassembler.accept c).1 with
      | .pending => .buffered
      | .complete _ => .delivered
      | .closed => .closed := by
  unfold deliver
  simp only [hclaim]
  split
  · rename_i haccept
    rw [haccept]
  · rename_i haccept
    simp [haccept, post?, hqueue]
  · rename_i haccept
    rw [haccept]

/-- What was kept for the stream of a registration that is given up stays only if the stream
does. -/
theorem release_reassembler (r : Registry) (g : Registration) :
    (r.release g).reassembler =
      if (r.release g).isRegistered g.id then r.reassembler else r.reassembler.forget g.id := rfl

theorem isRegistered_release_of_ne (r : Registry) {g : Registration} {id : StreamId}
    (h : id ≠ g.id) : (r.release g).isRegistered id = r.isRegistered id := by
  simp only [release, isRegistered, Table.contains]
  split
  · rw [Table.get?_erase, if_neg h]
  · rfl

end Registry

namespace Ledger

/-! ## Nothing is kept for a free stream -/

/-- Octets are kept only for streams that are claimed. -/
def Tidy (l : Ledger) : Prop :=
  ∀ id, l.registry.reassembler.partials.contains id = true → l.registry.isRegistered id = true

theorem tidy_new : new.Tidy := by
  intro id h
  cases h

/-- A stream that is claimed afresh has nothing kept for it. -/
theorem tidy_register {l : Ledger} (h : l.Tidy) (id : StreamId) : (l.step (.register id)).Tidy := by
  simp only [step]
  split
  · exact h
  · rename_i g r hreg
    obtain ⟨-, rfl, rfl⟩ := Registry.register?_eq_some hreg
    intro id' hkept
    have hbefore := ((Table.contains_erase_iff _ _ _).1 hkept).2
    exact (Table.contains_insert_iff _ _ _ _).2 (.inr (h id' hbefore))

/-- A chunk leaves octets for its own stream only while that stays claimed. -/
theorem tidy_deliver {l : Ledger} (hs : l.Sound) (h : l.Tidy) (c : Chunk) :
    (l.step (.deliver c)).Tidy := by
  rcases deliver_cases hs c with ⟨-, heq⟩ | ⟨k, queue, hclaim, -, -, heq⟩
  · rw [heq]
    exact h
  · intro id hkept
    rw [heq] at hkept ⊢
    rcases Reassembler.contains_accept hkept with ⟨rfl, hopen⟩ | ⟨hid, hbefore⟩
    · simp [Registry.isRegistered, Table.contains, hopen, hclaim]
    · simp only [Registry.isRegistered]
      split
      · exact (Table.contains_erase_iff _ _ _).2 ⟨hid, h id hbefore⟩
      · exact h id hbefore

/-- What was kept for a stream that has become free is dropped. -/
theorem tidy_drop {l : Ledger} (h : l.Tidy) (g : Registration) : (l.step (.drop g)).Tidy := by
  simp only [step]
  split
  · intro id hkept
    dsimp only at hkept ⊢
    rw [Registry.release_reassembler] at hkept
    by_cases hid : id = g.id
    · subst hid
      split at hkept
      · assumption
      · exact absurd rfl ((Table.contains_erase_iff _ _ _).1 hkept).1
    · -- another stream: neither what is kept for it nor who claims it has changed
      have hbefore : l.registry.reassembler.partials.contains id = true := by
        split at hkept
        · exact hkept
        · exact ((Table.contains_erase_iff _ _ _).1 hkept).2
      rw [Registry.isRegistered_release_of_ne _ hid]
      exact h id hbefore
  · exact h

theorem tidy_receive {l : Ledger} (h : l.Tidy) (g : Registration) :
    (l.step (.receive g)).Tidy := by
  simp only [step]
  split
  · rw [Registry.receive_eq]
    split <;> exact h
  · exact h

theorem tidy_step {l : Ledger} (hs : l.Sound) (h : l.Tidy) (op : RegistryOp) :
    (l.step op).Tidy := by
  cases op with
  | register id => exact tidy_register h id
  | deliver c => exact tidy_deliver hs h c
  | drop g => exact tidy_drop h g
  | receive g => exact tidy_receive h g

theorem tidy_run {l : Ledger} (hs : l.Sound) (h : l.Tidy) (ops : List RegistryOp) :
    (l.run ops).Tidy := by
  induction ops generalizing l with
  | nil => exact h
  | cons op ops ih => exact ih (sound_step hs op) (tidy_step hs h op)

/-! ## The tables agree -/

/-- How the tables of a registry agree with each other and with who owns what. -/
structure Consistent (l : Ledger) : Prop where
  claimed_of_kept : ∀ id, l.registry.reassembler.partials.contains id = true →
    l.registry.isRegistered id = true
  claimed_of_buffered : ∀ id, 0 < l.registry.reassembler.buffered id →
    l.registry.isRegistered id = true
  id_eq_of_generation : ∀ id id' k, l.registry.streams.get? id = some k →
    l.registry.streams.get? id' = some k → id = id'
  generation_le : ∀ id k, l.registry.streams.get? id = some k → k ≤ l.registry.generations
  owner_of_claimed : ∀ id k, l.registry.streams.get? id = some k →
    ⟨id, k⟩ ∈ l.owned ∧ ∃ queue, l.registry.inboxes.get? k = some queue

theorem consistent_of_sound {l : Ledger} (hs : l.Sound) (h : l.Tidy) : l.Consistent where
  claimed_of_kept := h
  claimed_of_buffered id hbuffered := h id (Reassembler.contains_of_buffered hbuffered)
  id_eq_of_generation id id' k hclaim hclaim' := by
    have howned := hs.owned_of_claims ⟨id, k⟩ hclaim
    have howned' := hs.owned_of_claims ⟨id', k⟩ hclaim'
    have heq := (hs.issued_of_owned _ howned').eq_of_generation _ howned rfl
    exact congrArg Registration.id heq
  generation_le id k hclaim :=
    (hs.issued_of_owned _ (hs.owned_of_claims ⟨id, k⟩ hclaim)).generation_le
  owner_of_claimed id k hclaim :=
    have howned := hs.owned_of_claims ⟨id, k⟩ hclaim
    ⟨howned, hs.inbox_of_owned _ howned⟩

/-- Every generation belongs to an operation that claimed a stream. -/
theorem generations_run_le (l : Ledger) (ops : List RegistryOp) :
    (l.run ops).registry.generations ≤
      l.registry.generations + ops.countP RegistryOp.registers := by
  induction ops generalizing l with
  | nil => exact Nat.le_refl _
  | cons op ops ih =>
    have hstep : (l.step op).registry.generations ≤
        l.registry.generations + if op.registers then 1 else 0 := by
      cases op with
      | register id =>
        simp only [step]
        split
        · exact Nat.le_succ _
        · rename_i g r hreg
          obtain ⟨-, -, rfl⟩ := Registry.register?_eq_some hreg
          exact Nat.le_refl _
      | deliver c =>
        simp only [step, record, generations_deliver]
        exact Nat.le_refl _
      | drop g =>
        simp only [step]
        split <;> exact Nat.le_refl _
      | receive g =>
        simp only [step]
        split
        · rw [Registry.receive_eq]
          split <;> exact Nat.le_refl _
        · exact Nat.le_refl _
    have hrest := ih (l.step op)
    rw [run_cons, List.countP_cons]
    omega

/-! ## Deliveries -/

/-- Nobody who claims a stream has gone away, so an event for it is always queued. -/
theorem post?_ne_none {l : Ledger} (hs : l.Sound) {id : StreamId} {k : Nat}
    (hclaim : l.registry.streams.get? id = some k) (reassembler : Reassembler) (e : StreamEvent) :
    Registry.post? { l.registry with reassembler } k e ≠ none := by
  obtain ⟨queue, hqueue⟩ := hs.inbox_of_owned _ (hs.owned_of_claims ⟨id, k⟩ hclaim)
  simp only at hqueue
  simp [Registry.post?, hqueue]

/-- What a chunk of a stream that a generation claims adds to the queues: nothing as long as more
chunks are expected, else its event at the end of the queue of that generation, and nothing to any
other. -/
structure Announces (r : Registry) (c : Chunk) (k : Nat) : Prop where
  inbox_of_other : ∀ g : Registration, g.generation ≠ k → (r.deliver c).2.inbox g = r.inbox g
  inbox_of_buffered : (r.deliver c).1 = .buffered → ∀ g, (r.deliver c).2.inbox g = r.inbox g
  inbox_of_delivered : (r.deliver c).1 = .delivered →
    ∃ message, (r.reassembler.accept c).1 = .complete message ∧
      ∀ g : Registration, g.generation = k →
        (r.deliver c).2.inbox g = r.inbox g ++ [.data message]
  inbox_of_closed : (r.deliver c).1 = .closed → ∀ g : Registration, g.generation = k →
    (r.deliver c).2.inbox g = r.inbox g ++ [.closed]

theorem announces_of_claimed {l : Ledger} (hs : l.Sound) {c : Chunk} {k : Nat}
    (hclaim : l.registry.streams.get? c.streamId = some k) : Announces l.registry c k := by
  obtain ⟨queue, hqueue⟩ := hs.inbox_of_owned _ (hs.owned_of_claims ⟨c.streamId, k⟩ hclaim)
  have hfst := Registry.deliver_fst_of_accept hclaim hqueue
  have hinbox : ∀ g : Registration, (l.registry.deliver c).2.inbox g =
      l.registry.inbox g ++ if k = g.generation then
        (Registry.eventOf (l.registry.reassembler.accept c).1).toList else [] := by
    intro g
    refine (inbox_deliver hs c g).trans ?_
    simp only [added, hclaim, Option.some.injEq]
  constructor
  case inbox_of_other =>
    intro g hg
    rw [hinbox, if_neg (Ne.symm hg), List.append_nil]
  case inbox_of_buffered =>
    intro hbuffered g
    cases haccept : (l.registry.reassembler.accept c).1 with
    | pending => simp [hinbox, haccept, Registry.eventOf]
    | complete | closed => simp [hfst, haccept] at hbuffered
  case inbox_of_delivered =>
    intro hdelivered
    cases haccept : (l.registry.reassembler.accept c).1 with
    | complete message =>
      refine ⟨message, rfl, fun g hg => ?_⟩
      simp [hinbox, haccept, Registry.eventOf, hg]
    | pending | closed => simp [hfst, haccept] at hdelivered
  case inbox_of_closed =>
    intro hclosed g hg
    cases haccept : (l.registry.reassembler.accept c).1 with
    | closed => simp [hinbox, haccept, Registry.eventOf, hg]
    | pending | complete => simp [hfst, haccept] at hclosed

/-- A chunk that ends a claimed stream leaves it free, and nothing is kept for it. -/
theorem free_of_close {l : Ledger} (hs : l.Sound) (h : l.Tidy) {c : Chunk}
    (hclose : c.isClose = true) :
    (l.registry.deliver c).2.isRegistered c.streamId = false ∧
      (l.registry.deliver c).2.reassembler.partials.contains c.streamId = false := by
  have hfree : (l.registry.deliver c).2.isRegistered c.streamId = false := by
    rcases deliver_cases hs c with ⟨hclaim, -⟩ | ⟨k, queue, -, -, -, heq⟩
    · rw [Registry.deliver_of_unclaimed hclaim]
      simp [Registry.isRegistered, Table.contains, hclaim]
    · have hregistry : (l.registry.deliver c).2 = (l.step (.deliver c)).registry := rfl
      rw [hregistry, heq]
      simp [Registry.isRegistered, Table.contains, hclose, Table.get?_erase]
  refine ⟨hfree, ?_⟩
  cases hkept : (l.registry.deliver c).2.reassembler.partials.contains c.streamId with
  | false => rfl
  | true => exact absurd (tidy_deliver hs h c _ hkept) (by simp [step, record, hfree])

/-- What becomes of a chunk in a registry that was used in any way. -/
theorem deliver_fst_eq {l : Ledger} (hs : l.Sound) (c : Chunk) :
    (l.registry.deliver c).1 =
      if l.registry.isRegistered c.streamId = false then .unknown
      else if c.payload = [] then .closed
      else if c.isLast then .delivered
      else .buffered := by
  cases hclaim : l.registry.streams.get? c.streamId with
  | none =>
    have hfree : l.registry.isRegistered c.streamId = false := by
      simp [Registry.isRegistered, Table.contains, hclaim]
    rw [if_pos hfree, Registry.deliver_of_unclaimed hclaim]
  | some k =>
    have hclaimed : ¬ l.registry.isRegistered c.streamId = false := by
      simp [Registry.isRegistered, Table.contains, hclaim]
    obtain ⟨queue, hqueue⟩ := hs.inbox_of_owned _ (hs.owned_of_claims ⟨c.streamId, k⟩ hclaim)
    rw [if_neg hclaimed, Registry.deliver_fst_of_claimed hclaim hqueue]

theorem unclaimed_of_unknown {l : Ledger} (hs : l.Sound) {c : Chunk}
    (h : (l.registry.deliver c).1 = .unknown) : l.registry.streams.get? c.streamId = none := by
  rw [deliver_fst_eq hs] at h
  split at h
  · rename_i hfree
    simpa [Registry.isRegistered, Table.contains] using hfree
  · split at h
    · cases h
    · split at h <;> cases h

theorem isClose_of_closed {l : Ledger} (hs : l.Sound) {c : Chunk}
    (h : (l.registry.deliver c).1 = .closed) : c.isClose = true := by
  rw [deliver_fst_eq hs] at h
  split at h
  · cases h
  · split at h
    · rename_i hempty
      exact List.isEmpty_iff.2 hempty
    · split at h <;> cases h

/-- In a registry that anybody uses in any way, the tables agree, and what becomes of a chunk is
told by the chunk and by whether its stream is claimed.  A chunk of a stream that nobody claims
changes nothing; one that ends its stream leaves the stream free and nothing kept for it.  A message
that is handed over and the end of the stream are put at the end of the queue of the generation that
claims it, and nothing else is put anywhere.  A message can always be queued for the owner: no claim
is ever taken from one that went away. -/
theorem deliver_eq_of_claim_and_payload (ops : List RegistryOp) :
    let l := new.run ops
    let r := l.registry
    l.Consistent ∧ r.generations ≤ ops.countP RegistryOp.registers ∧
      ∀ c : Chunk,
        (r.deliver c).1 =
            (if r.isRegistered c.streamId = false then .unknown
            else if c.payload = [] then .closed
            else if c.isLast then .delivered
            else .buffered) ∧
          ((r.deliver c).1 = .unknown → (r.deliver c).2 = r) ∧
          ((r.deliver c).1 = .closed →
            (r.deliver c).2.isRegistered c.streamId = false ∧
              (r.deliver c).2.reassembler.partials.contains c.streamId = false ∧
              (r.deliver c).2.reassembler.buffered c.streamId = 0) ∧
          (∀ k, r.streams.get? c.streamId = some k → Announces r c k) ∧
          ∀ k message reassembler, r.streams.get? c.streamId = some k →
            r.reassembler.accept c = (.complete message, reassembler) →
            Registry.post? { r with reassembler } k (.data message) ≠ none := by
  intro l r
  have hs : l.Sound := sound_run sound_new ops
  have htidy : l.Tidy := tidy_run sound_new tidy_new ops
  have hcount : r.generations ≤ ops.countP RegistryOp.registers := by
    have hle := generations_run_le new ops
    rwa [show new.registry.generations = 0 from rfl, Nat.zero_add] at hle
  refine ⟨consistent_of_sound hs htidy, hcount, fun c => ⟨deliver_fst_eq hs c, fun hunknown => ?_,
    fun hclosed => ?_, fun k => announces_of_claimed hs,
    fun k message reassembler hclaim _ => post?_ne_none hs hclaim reassembler _⟩⟩
  · rw [Registry.deliver_of_unclaimed (unclaimed_of_unknown hs hunknown)]
  · obtain ⟨hfree, hkept⟩ := free_of_close hs htidy (isClose_of_closed hs hclosed)
    refine ⟨hfree, hkept, Nat.eq_zero_of_not_pos fun hpos => ?_⟩
    rw [Reassembler.contains_of_buffered hpos] at hkept
    cases hkept

/-- A stream is claimed, closed by the peer and claimed again, and the first registration is given
up only then; the beginning of a message that was kept goes with the end of the stream. -/
theorem deliver_eq_after_stale_drop :
    let ops : List RegistryOp := [.register default, .deliver (.close default), .register default,
      .drop ⟨default, 1⟩, .deliver ⟨default, none, 0, 2, [2]⟩, .receive ⟨default, 2⟩]
    let r := (new.run ops).registry
    let other : Chunk := ⟨⟨List.replicate 8 1, rfl⟩, none, 0, 1, [9]⟩
    r.reassembler.buffered default = 1 ∧ r.isRegistered default = true ∧
      (r.deliver ⟨default, none, 1, 2, [3]⟩).1 = .delivered ∧
      (r.deliver other).1 = .unknown ∧ (r.deliver other).2 = r ∧
      (r.deliver (.close default)).2.reassembler.buffered default = 0 := by
  intro ops r other
  obtain ⟨hconsistent, -, hdeliver⟩ := deliver_eq_of_claim_and_payload ops
  have hbuffered : r.reassembler.buffered default = 1 := rfl
  have hunknown : (r.deliver other).1 = .unknown := (hdeliver other).1.trans rfl
  have hclosed : (r.deliver (.close default)).1 = .closed := (hdeliver _).1.trans rfl
  refine ⟨hbuffered, ?_, (hdeliver _).1.trans rfl, hunknown, (hdeliver other).2.1 hunknown,
    ((hdeliver _).2.2.1 hclosed).2.2⟩
  exact hconsistent.claimed_of_buffered default (hbuffered ▸ Nat.one_pos)

end Ledger

end Meshway
