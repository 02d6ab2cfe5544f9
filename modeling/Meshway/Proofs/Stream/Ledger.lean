import Meshway.Stream.Registry
import Meshway.Proofs.Reassembly
set_option autoImplicit false

/-!
# A registry in use (SPEC §4.3)

A ledger is a registry together with the registrations that have not been given
up and a record of what each registration was given.  Anybody may claim a
stream, the dispatcher delivers chunks, and an owner receives events or gives
its registration up; a registration is given up once only, and nothing is
received through it after that.

The record of queued events is taken from the queues themselves: what a delivery
adds at the end of the queue of a registration.

`Ledger.Sound` is what every ledger satisfies that was reached from an empty
registry: whoever claims a stream still owns its registration, no two
registrations share a generation, and nothing is on record for a generation that
is yet to come.
-/

namespace Meshway

/-! ## What the operations of a registry do -/

namespace Registry

/-- The events that wait for a registration. -/
def inbox (r : Registry) (g : Registration) : List StreamEvent :=
  (r.inboxes.get? g.generation).getD []

theorem register?_eq_some {r r' : Registry} {id : StreamId} {g : Registration}
    (h : r.register? id = some (g, r')) :
    r.streams.get? id = none ∧ g = ⟨id, r.generations + 1⟩ ∧
      r' = { generations := r.generations + 1
             streams := r.streams.insert id (r.generations + 1)
             reassembler := r.reassembler.forget id
             inboxes := r.inboxes.insert (r.generations + 1) [] } := by
  unfold register? isRegistered Table.contains at h
  split at h
  · cases h
  · rename_i hfree
    cases h
    exact ⟨by simpa using hfree, rfl, rfl⟩

/-- The event that an outcome of reassembly is announced by. -/
def eventOf : Joined → Option StreamEvent
  | .pending => none
  | .complete message => some (.data message)
  | .closed => some .closed

theorem deliver_of_unclaimed {r : Registry} {c : Chunk} (h : r.streams.get? c.streamId = none) :
    r.deliver c = (.unknown, r) := by
  simp [deliver, h]

/-- The registry after a chunk of a claimed stream whose registration was not given up: the chunk
went to the reassembler, its outcome to the queue, and a stream that has ended is free. -/
theorem deliver_of_claimed {r : Registry} {c : Chunk} {k : Nat} {queue : List StreamEvent}
    (hclaim : r.streams.get? c.streamId = some k) (hqueue : r.inboxes.get? k = some queue) :
    (r.deliver c).2 =
      { generations := r.generations
        streams := if c.isClose then r.streams.erase c.streamId else r.streams
        reassembler := (r.reassembler.accept c).2
        inboxes := match eventOf (r.reassembler.accept c).1 with
          | none => r.inboxes
          | some e => r.inboxes.insert k (queue ++ [e]) } := by
  have hclosed := r.reassembler.accept_fst_eq_closed_iff c
  unfold deliver
  simp only [hclaim]
  split
  · rename_i reassembler haccept
    rw [haccept] at hclosed
    have hclose : c.isClose = false := Bool.eq_false_iff.2 fun h => by cases hclosed.2 h
    simp [haccept, eventOf, hclose]
  · rename_i message reassembler haccept
    rw [haccept] at hclosed
    have hclose : c.isClose = false := Bool.eq_false_iff.2 fun h => by cases hclosed.2 h
    simp [haccept, eventOf, hclose, post?, hqueue]
  · rename_i reassembler haccept
    rw [haccept] at hclosed
    have hclose : c.isClose = true := hclosed.1 rfl
    simp [haccept, eventOf, hclose, post?, hqueue]

/-- Receiving takes the first event off the queue of the registration, if there is one. -/
theorem receive_eq (r : Registry) (g : Registration) :
    r.receive g =
      match r.inbox g with
      | e :: queue => (.event e, { r with inboxes := r.inboxes.insert g.generation queue })
      | [] => (if r.streams.get? g.id = some g.generation then .pending else .ended, r) := by
  unfold receive inbox
  cases hqueue : r.inboxes.get? g.generation with
  | none =>
    simp only [Option.getD_none]
    split <;> rfl
  | some queue =>
    cases queue with
    | nil =>
      simp only [Option.getD_some]
      split <;> rfl
    | cons e queue => rfl

end Registry

/-! ## Ledgers -/

/-- What the owners of registrations and the dispatcher do. -/
inductive RegistryOp where
  /-- somebody claims a stream -/
  | register (id : StreamId)
  /-- the dispatcher hands a chunk over -/
  | deliver (c : Chunk)
  /-- an owner gives a registration up -/
  | drop (g : Registration)
  /-- an owner asks for the next event -/
  | receive (g : Registration)
  deriving DecidableEq, Repr, Inhabited

/-- A registry, the registrations not given up, and for each registration the events that were ever
queued for it and what its owner was given. -/
structure Ledger where
  registry : Registry
  owned : List Registration
  queued : Registration → List StreamEvent
  given : Registration → List Received

namespace Ledger

/-- A registry that nobody has used. -/
def new : Ledger := ⟨.empty, [], fun _ => [], fun _ => []⟩

/-- Whether a registration is the one that claims its stream. -/
def Claims (l : Ledger) (g : Registration) : Prop :=
  l.registry.streams.get? g.id = some g.generation

instance (l : Ledger) (g : Registration) : Decidable (l.Claims g) :=
  inferInstanceAs (Decidable (_ = _))

/-- A claimed stream is not free. -/
theorem Claims.id_ne {l : Ledger} {g : Registration} (hg : l.Claims g) {id : StreamId}
    (hfree : l.registry.streams.get? id = none) : g.id ≠ id := by
  intro h
  rw [Claims, h, hfree] at hg
  cases hg

/-- The ledger when chunks were handed to the registry: what they added to queues is on record. -/
def record (l : Ledger) (r : Registry) : Ledger :=
  { l with
    registry := r
    queued := fun g => l.queued g ++ (r.inbox g).drop (l.registry.inbox g).length }

/-- What an operation makes of a ledger.  Only an owner gives a registration up or receives. -/
def step (l : Ledger) : RegistryOp → Ledger
  | .register id =>
    match l.registry.register? id with
    | none => l
    | some (g, r) => { l with registry := r, owned := g :: l.owned }
  | .deliver c => l.record (l.registry.deliver c).2
  | .drop g =>
    if g ∈ l.owned then { l with registry := l.registry.release g, owned := l.owned.erase g } else l
  | .receive g =>
    if g ∈ l.owned then
      let (outcome, r) := l.registry.receive g
      { l with
        registry := r
        given := fun g' => if g' = g then l.given g ++ [outcome] else l.given g' }
    else l

/-- What operations one after the other make of a ledger. -/
def run (l : Ledger) (ops : List RegistryOp) : Ledger := ops.foldl step l

@[simp] theorem run_nil (l : Ledger) : l.run [] = l := rfl

@[simp] theorem run_cons (l : Ledger) (op : RegistryOp) (ops : List RegistryOp) :
    l.run (op :: ops) = (l.step op).run ops := rfl

/-- Nothing is on record of a registry that stays as it is. -/
@[simp] theorem record_registry (l : Ledger) : l.record l.registry = l := by
  simp [record]

theorem run_append (l : Ledger) (ops ops' : List RegistryOp) :
    l.run (ops ++ ops') = (l.run ops).run ops' := List.foldl_append

/-! ## Soundness -/

/-- A registration that was made, whether or not it was given up since: its generation has come, and
no other registration has it. -/
structure Issued (l : Ledger) (g : Registration) : Prop where
  generation_le : g.generation ≤ l.registry.generations
  eq_of_generation : ∀ g' ∈ l.owned, g'.generation = g.generation → g' = g

/-- What holds of every ledger in use. -/
structure Sound (l : Ledger) : Prop where
  owned_of_claims : ∀ g, l.Claims g → g ∈ l.owned
  nodup : l.owned.Nodup
  issued_of_owned : ∀ g ∈ l.owned, l.Issued g
  inbox_of_owned : ∀ g ∈ l.owned, ∃ queue, l.registry.inboxes.get? g.generation = some queue
  blank_of_gt : ∀ g, l.registry.generations < g.generation → l.queued g = [] ∧ l.given g = []

theorem sound_new : Sound new where
  owned_of_claims g h := by cases h
  nodup := .nil
  issued_of_owned g h := by cases h
  inbox_of_owned g h := by cases h
  blank_of_gt _ _ := ⟨rfl, rfl⟩

/-- A delivery changes neither the generations nor who owns what. -/
theorem generations_deliver (r : Registry) (c : Chunk) :
    (r.deliver c).2.generations = r.generations := by
  unfold Registry.deliver Registry.post?
  split
  · rfl
  · split
    · rfl
    · split
      · rename_i hpost
        obtain ⟨queue, -, rfl⟩ := Option.map_eq_some_iff.1 hpost
        rfl
      · rfl
    · simp only
      cases r.inboxes.get? _ <;> rfl

/-- A registration stays the only one with its generation. -/
theorem issued_step {l : Ledger} {g : Registration} (h : l.Issued g) (op : RegistryOp) :
    (l.step op).Issued g := by
  obtain ⟨hle, huniq⟩ := h
  cases op with
  | register id =>
    simp only [step]
    split
    · exact ⟨hle, huniq⟩
    · rename_i g' r hreg
      obtain ⟨-, rfl, rfl⟩ := Registry.register?_eq_some hreg
      refine ⟨Nat.le_succ_of_le hle, fun a ha hgen => ?_⟩
      rcases List.mem_cons.1 ha with rfl | ha
      · simp only at hgen
        omega
      · exact huniq a ha hgen
  | deliver c => exact ⟨by simpa [step, record, generations_deliver] using hle, huniq⟩
  | drop g' =>
    simp only [step]
    split
    · exact ⟨hle, fun a ha => huniq a (List.mem_of_mem_erase ha)⟩
    · exact ⟨hle, huniq⟩
  | receive g' =>
    simp only [step]
    split
    · rw [Registry.receive_eq]
      split <;> exact ⟨hle, huniq⟩
    · exact ⟨hle, huniq⟩

/-! ### Claiming a stream -/

theorem sound_register {l : Ledger} (hs : l.Sound) (id : StreamId) :
    (l.step (.register id)).Sound := by
  simp only [step]
  split
  · exact hs
  · rename_i g r hreg
    obtain ⟨hfree, rfl, rfl⟩ := Registry.register?_eq_some hreg
    have hnew : ∀ g ∈ l.owned, g.generation ≠ l.registry.generations + 1 := by
      intro g hg
      have hle := (hs.issued_of_owned g hg).generation_le
      omega
    have hkept : ∀ g ∈ l.owned, (l.step (.register id)).Issued g :=
      fun g hg => issued_step (hs.issued_of_owned g hg) _
    simp only [step, hreg] at hkept
    constructor
    case owned_of_claims =>
      intro g hg
      simp only [Claims, Table.get?_insert] at hg
      split at hg
      · rename_i hid
        cases g
        simp_all
      · exact List.mem_cons_of_mem _ (hs.owned_of_claims g hg)
    case nodup => exact List.nodup_cons.2 ⟨fun hmem => hnew _ hmem rfl, hs.nodup⟩
    case issued_of_owned =>
      intro g hg
      rcases List.mem_cons.1 hg with rfl | hg
      · refine ⟨Nat.le_refl _, fun g' hg' hgen => ?_⟩
        rcases List.mem_cons.1 hg' with rfl | hg'
        · rfl
        · exact absurd hgen (hnew g' hg')
      · exact hkept g hg
    case inbox_of_owned =>
      intro g hg
      simp only [Table.get?_insert]
      split
      · exact ⟨[], rfl⟩
      · rename_i hne
        rcases List.mem_cons.1 hg with rfl | hg
        · exact absurd rfl hne
        · exact hs.inbox_of_owned g hg
    case blank_of_gt =>
      intro g hg
      exact hs.blank_of_gt g (Nat.lt_of_succ_lt hg)

/-! ### Delivering a chunk -/

/-- The events that a chunk adds to the queue of a registration. -/
def added (l : Ledger) (c : Chunk) (g : Registration) : List StreamEvent :=
  if l.registry.streams.get? c.streamId = some g.generation then
    (Registry.eventOf (l.registry.reassembler.accept c).1).toList
  else []

/-- What a delivery makes of the registry, and of the queue of every registration. -/
theorem deliver_cases {l : Ledger} (hs : l.Sound) (c : Chunk) :
    (l.registry.streams.get? c.streamId = none ∧ l.step (.deliver c) = l) ∨
      ∃ k queue, l.registry.streams.get? c.streamId = some k ∧
        l.registry.inboxes.get? k = some queue ∧ ⟨c.streamId, k⟩ ∈ l.owned ∧
        (l.step (.deliver c)).registry =
          { generations := l.registry.generations
            streams :=
              if c.isClose then l.registry.streams.erase c.streamId else l.registry.streams
            reassembler := (l.registry.reassembler.accept c).2
            inboxes := match Registry.eventOf (l.registry.reassembler.accept c).1 with
              | none => l.registry.inboxes
              | some e => l.registry.inboxes.insert k (queue ++ [e]) } := by
  cases hclaim : l.registry.streams.get? c.streamId with
  | none =>
    refine .inl ⟨rfl, ?_⟩
    simp [step, Registry.deliver_of_unclaimed hclaim]
  | some k =>
    have howned : ⟨c.streamId, k⟩ ∈ l.owned := hs.owned_of_claims ⟨c.streamId, k⟩ hclaim
    obtain ⟨queue, hqueue⟩ := hs.inbox_of_owned _ howned
    exact .inr ⟨k, queue, rfl, hqueue, howned, Registry.deliver_of_claimed hclaim hqueue⟩

theorem inbox_deliver {l : Ledger} (hs : l.Sound) (c : Chunk) (g : Registration) :
    (l.step (.deliver c)).registry.inbox g = l.registry.inbox g ++ l.added c g := by
  rcases deliver_cases hs c with ⟨hclaim, heq⟩ | ⟨k, queue, hclaim, hqueue, -, heq⟩
  · simp [heq, added, hclaim]
  · simp only [Registry.inbox, heq, added, hclaim, Option.some.injEq]
    cases Registry.eventOf (l.registry.reassembler.accept c).1 with
    | none => simp
    | some e =>
      simp only [Table.get?_insert]
      by_cases hk : k = g.generation
      · subst hk
        simp [hqueue]
      · have hk' : ¬ g.generation = k := fun h => hk h.symm
        simp [hk, hk']

/-- The record of a registration grows by what was added to its queue. -/
theorem queued_deliver {l : Ledger} (hs : l.Sound) (c : Chunk) (g : Registration) :
    (l.step (.deliver c)).queued g = l.queued g ++ l.added c g := by
  have hinbox := inbox_deliver hs c g
  simp only [step, record] at hinbox ⊢
  rw [hinbox]
  simp

theorem claims_deliver {l : Ledger} (hs : l.Sound) (c : Chunk) (g : Registration) :
    (l.step (.deliver c)).Claims g ↔
      l.Claims g ∧ ¬ (c.streamId = g.id ∧ c.isClose = true) := by
  rcases deliver_cases hs c with ⟨hclaim, heq⟩ | ⟨k, queue, hclaim, hqueue, -, heq⟩
  · rw [heq]
    exact ⟨fun h => ⟨h, fun hcloses => h.id_ne hclaim hcloses.1.symm⟩, And.left⟩
  · simp only [Claims, heq]
    by_cases hclose : c.isClose = true
    · by_cases hid : c.streamId = g.id
      · simp [hclose, Table.get?_erase, hid]
      · simp [hclose, Table.get?_erase, hid, Ne.symm hid]
    · simp [hclose]

theorem sound_deliver {l : Ledger} (hs : l.Sound) (c : Chunk) : (l.step (.deliver c)).Sound := by
  have hclaims := claims_deliver hs c
  have hqueued := queued_deliver hs c
  rcases deliver_cases hs c with ⟨-, heq⟩ | ⟨k, queue, hclaim, hqueue, howned, heq⟩
  · rw [heq]
    exact hs
  · constructor
    case owned_of_claims =>
      intro g hg
      exact hs.owned_of_claims g ((hclaims g).1 hg).1
    case nodup => exact hs.nodup
    case issued_of_owned =>
      intro g hg
      exact issued_step (hs.issued_of_owned g hg) _
    case inbox_of_owned =>
      intro g hg
      rw [heq]
      simp only
      split
      · exact hs.inbox_of_owned g hg
      · rw [Table.get?_insert]
        split
        · exact ⟨_, rfl⟩
        · exact hs.inbox_of_owned g hg
    case blank_of_gt =>
      intro g hg
      rw [heq] at hg
      have hk := (hs.issued_of_owned _ howned).generation_le
      have hne : ¬ k = g.generation := by
        simp only at hg hk
        omega
      obtain ⟨hqueued', hgiven⟩ := hs.blank_of_gt g hg
      refine ⟨?_, hgiven⟩
      simp [hqueued, added, hclaim, hne, hqueued']

/-! ### Giving a registration up -/

theorem sound_drop {l : Ledger} (hs : l.Sound) (g : Registration) : (l.step (.drop g)).Sound := by
  simp only [step]
  split
  · rename_i hg
    have hmem : ∀ g', g' ∈ l.owned.erase g ↔ g' ≠ g ∧ g' ∈ l.owned :=
      fun g' => hs.nodup.mem_erase_iff
    constructor
    case owned_of_claims =>
      intro g' hg'
      simp only [Claims, Registry.release] at hg'
      split at hg'
      · rename_i hclaim
        rw [Table.get?_erase] at hg'
        split at hg'
        · cases hg'
        · rename_i hid
          exact (hmem g').2 ⟨fun h => hid (by rw [h]), hs.owned_of_claims g' hg'⟩
      · rename_i hclaim
        exact (hmem g').2 ⟨fun h => hclaim (h ▸ hg'), hs.owned_of_claims g' hg'⟩
    case nodup => exact hs.nodup.erase g
    case issued_of_owned =>
      intro a ha
      have hkept := issued_step (hs.issued_of_owned a ((hmem a).1 ha).2) (.drop g)
      simpa only [step, hg, if_true] using hkept
    case inbox_of_owned =>
      intro a ha
      obtain ⟨hne, ha⟩ := (hmem a).1 ha
      have hgen : ¬ a.generation = g.generation :=
        fun h => hne ((hs.issued_of_owned g hg).eq_of_generation a ha h)
      simp only [Registry.release, Table.get?_erase, hgen, if_false]
      exact hs.inbox_of_owned a ha
    case blank_of_gt => exact hs.blank_of_gt
  · exact hs

/-! ### Receiving -/

theorem sound_receive {l : Ledger} (hs : l.Sound) (g : Registration) :
    (l.step (.receive g)).Sound := by
  simp only [step]
  split
  · rename_i hg
    have hblank : ∀ g', l.registry.generations < g'.generation → g' ≠ g := by
      intro g' hlt heq
      have hle := (hs.issued_of_owned g hg).generation_le
      subst heq
      omega
    rw [Registry.receive_eq]
    split
    · rename_i e queue hinbox
      constructor
      case owned_of_claims => exact hs.owned_of_claims
      case nodup => exact hs.nodup
      case issued_of_owned =>
        intro a ha
        obtain ⟨hle, huniq⟩ := hs.issued_of_owned a ha
        exact ⟨hle, huniq⟩
      case inbox_of_owned =>
        intro a ha
        simp only [Table.get?_insert]
        split
        · exact ⟨_, rfl⟩
        · exact hs.inbox_of_owned a ha
      case blank_of_gt =>
        intro g' hlt
        simp only [hblank g' hlt, if_false]
        exact hs.blank_of_gt g' hlt
    · constructor
      case owned_of_claims => exact hs.owned_of_claims
      case nodup => exact hs.nodup
      case issued_of_owned =>
        intro a ha
        obtain ⟨hle, huniq⟩ := hs.issued_of_owned a ha
        exact ⟨hle, huniq⟩
      case inbox_of_owned => exact hs.inbox_of_owned
      case blank_of_gt =>
        intro g' hlt
        simp only [hblank g' hlt, if_false]
        exact hs.blank_of_gt g' hlt
  · exact hs

/-! ### Any operations -/

theorem sound_step {l : Ledger} (hs : l.Sound) (op : RegistryOp) : (l.step op).Sound := by
  cases op with
  | register id => exact sound_register hs id
  | deliver c => exact sound_deliver hs c
  | drop g => exact sound_drop hs g
  | receive g => exact sound_receive hs g

/-- Every ledger that was reached from one that is sound is sound. -/
theorem sound_run {l : Ledger} (hs : l.Sound) (ops : List RegistryOp) : (l.run ops).Sound := by
  induction ops generalizing l with
  | nil => exact hs
  | cons op ops ih => exact ih (sound_step hs op)

end Ledger

end Meshway
