import Meshway.Proofs.Stream.Ledger
set_option autoImplicit false

/-!
# One private reassembler for each registration (SPEC §4.3, §5)

A registry has one reassembler and one table of claims for all streams, and
identities are used again while old registrations are still around.  Seen from a
registration none of that matters: what is queued for it is what a reassembler
of its own would announce, given the chunks of its stream that are delivered
while it claims the stream.

`Follows` relates a ledger to the chunks that a registration was brought so far;
`Served` says what its owner can have seen of the queue.  Both are kept by every
operation of anybody.
-/

namespace Meshway

/-! ## The view of a registration -/

namespace RegistryOp

/-- The chunk that an operation brings to the stream of a registration, if any. -/
def chunkFor (g : Registration) : RegistryOp → List Chunk
  | .deliver c => if c.streamId = g.id then [c] else []
  | _ => []

/-- Whether an operation ends the claim of a registration: it is given up, or its stream closed. -/
def ends (g : Registration) : RegistryOp → Bool
  | .deliver c => decide (c.streamId = g.id) && c.isClose
  | .drop g' => decide (g' = g)
  | _ => false

/-- The chunks of its stream that a registration is brought, up to and with the operation that ends
its claim. -/
def chunksFor (g : Registration) : List RegistryOp → List Chunk
  | [] => []
  | op :: ops => op.chunkFor g ++ if op.ends g then [] else chunksFor g ops

end RegistryOp

/-- The events that announce what chunks of one stream lead to. -/
def Reassembler.announced (held : Bytes) (cs : List Chunk) : List StreamEvent :=
  (Chunk.joinAll held cs).1.filterMap Registry.eventOf

theorem Reassembler.announced_cons (held : Bytes) (c : Chunk) (cs : List Chunk) :
    announced held (c :: cs) =
      (Registry.eventOf (c.join held).1).toList ++ announced (c.join held).2 cs := by
  simp only [announced, Chunk.joinAll_cons, List.filterMap_cons]
  cases Registry.eventOf (c.join held).1 <;> rfl

/-- Only a chunk that ends its stream is announced as its end. -/
theorem Reassembler.announced_of_not_close (held : Bytes) {c : Chunk} (h : c.isClose = false) :
    Registry.eventOf (c.join held).1 ≠ some .closed := by
  unfold Chunk.join
  by_cases hlast : c.isLast = true <;> simp [h, hlast, Registry.eventOf]

/-- The event that was received, if one was. -/
def Received.event? : Received → Option StreamEvent
  | .event e => some e
  | _ => none

theorem Registry.held_ite_forget_of_ne (r : Reassembler) {id id' : StreamId} (b : Bool)
    (h : ¬ id = id') : (if b then r else r.forget id').held id = r.held id := by
  cases b <;> simp [Reassembler.held_forget, h]

namespace Ledger

open RegistryOp

/-! ## What an operation changes for a registration that claims its stream -/

/-- A claim lasts until an operation that ends it. -/
theorem claims_step {l : Ledger} (hs : l.Sound) {g : Registration} (hg : l.Claims g)
    (op : RegistryOp) : (l.step op).Claims g ↔ op.ends g = false := by
  have howned := hs.owned_of_claims g hg
  cases op with
  | register id =>
    simp only [step, ends, iff_true]
    split
    · exact hg
    · rename_i g' r hreg
      obtain ⟨hfree, rfl, rfl⟩ := Registry.register?_eq_some hreg
      have hid : ¬ g.id = id := hg.id_ne hfree
      simpa [Claims, Table.get?_insert, hid] using hg
  | deliver c =>
    rw [claims_deliver hs]
    simp [hg, ends]
  | drop g' =>
    simp only [step, ends, decide_eq_false_iff_not]
    split
    · rename_i hmem
      simp only [Claims, Registry.release]
      split
      · rename_i hclaim
        rw [Table.get?_erase]
        by_cases hid : g.id = g'.id
        · have hgen : g'.generation = g.generation := by
            rw [Claims, hid, hclaim] at hg
            exact Option.some.inj hg
          have heq : g' = g := (hs.issued_of_owned g howned).eq_of_generation g' hmem hgen
          simp [hid, heq]
        · have hne : ¬ g' = g := fun h => hid (by rw [h])
          rw [if_neg hid]
          exact ⟨fun _ => hne, fun _ => hg⟩
      · rename_i hclaim
        refine ⟨fun _ heq => hclaim (heq ▸ hg), fun _ => hg⟩
    · rename_i hmem
      exact ⟨fun _ heq => hmem (heq ▸ howned), fun _ => hg⟩
  | receive g' =>
    simp only [step, ends, iff_true]
    split
    · rw [Registry.receive_eq]
      split <;> exact hg
    · exact hg

/-- Who has lost the claim on a stream does not get it back. -/
theorem not_claims_step {l : Ledger} (hs : l.Sound) {g : Registration} (hissued : l.Issued g)
    (hg : ¬ l.Claims g) (op : RegistryOp) : ¬ (l.step op).Claims g := by
  cases op with
  | register id =>
    simp only [step]
    split
    · exact hg
    · rename_i g' r hreg
      obtain ⟨-, rfl, rfl⟩ := Registry.register?_eq_some hreg
      simp only [Claims, Table.get?_insert]
      split
      · have hle := hissued.generation_le
        simp only [Option.some.injEq]
        omega
      · exact hg
  | deliver c =>
    rw [claims_deliver hs]
    exact fun h => hg h.1
  | drop g' =>
    simp only [step]
    split
    · simp only [Claims, Registry.release]
      split
      · rw [Table.get?_erase]
        split
        · simp
        · exact hg
      · exact hg
    · exact hg
  | receive g' =>
    simp only [step]
    split
    · rw [Registry.receive_eq]
      split <;> exact hg
    · exact hg

/-- A claim lasts through operations that do not end it, and no longer. -/
theorem claims_run {l : Ledger} (hs : l.Sound) {g : Registration} (hissued : l.Issued g)
    (ops : List RegistryOp) :
    (l.run ops).Claims g ↔ l.Claims g ∧ ∀ op ∈ ops, op.ends g = false := by
  induction ops generalizing l with
  | nil => simp
  | cons op ops ih =>
    rw [run_cons, ih (sound_step hs op) (issued_step hissued op), List.forall_mem_cons]
    constructor
    · rintro ⟨hstep, hops⟩
      by_cases hg : l.Claims g
      · exact ⟨hg, (claims_step hs hg op).1 hstep, hops⟩
      · exact absurd hstep (not_claims_step hs hissued hg op)
    · rintro ⟨hg, hends, hops⟩
      exact ⟨(claims_step hs hg op).2 hends, hops⟩

/-- What is kept for a claimed stream changes by the chunks that the registration is brought. -/
theorem held_step {l : Ledger} (hs : l.Sound) {g : Registration} (hg : l.Claims g)
    {op : RegistryOp} (hends : op.ends g = false) :
    (l.step op).registry.reassembler.held g.id =
      (Chunk.joinAll (l.registry.reassembler.held g.id) (op.chunkFor g)).2 := by
  cases op with
  | register id =>
    simp only [step, chunkFor, Chunk.joinAll_nil]
    split
    · rfl
    · rename_i g' r hreg
      obtain ⟨hfree, rfl, rfl⟩ := Registry.register?_eq_some hreg
      have hid : ¬ g.id = id := hg.id_ne hfree
      simp [Reassembler.held_forget, hid]
  | deliver c =>
    rcases deliver_cases hs c with ⟨hclaim, heq⟩ | ⟨k, queue, -, -, -, heq⟩
    · have hid : ¬ c.streamId = g.id := (hg.id_ne hclaim).symm
      simp [heq, chunkFor, hid]
    · rw [heq]
      simp only [Reassembler.held_accept, chunkFor]
      by_cases hid : c.streamId = g.id
      · simp [hid]
      · simp [hid, Ne.symm hid]
  | drop g' =>
    simp only [step, chunkFor, Chunk.joinAll_nil]
    split
    · rename_i hmem
      have hne : ¬ g' = g := by simpa [ends] using hends
      -- an older registration of the same stream lets go of nothing: the stream stays claimed, so
      -- what has begun to arrive is not forgotten
      have hstays := (claims_step hs hg (.drop g')).2 hends
      simp only [step, hmem, if_true, Claims] at hstays
      simp only [Registry.release] at hstays ⊢
      by_cases hid : g.id = g'.id
      · have hcontains := congrArg Option.isSome hstays
        rw [hid] at hcontains
        simp only [Option.isSome_some] at hcontains
        simp only [Table.contains, hcontains, if_true]
      · exact Registry.held_ite_forget_of_ne _ _ hid
    · rfl
  | receive g' =>
    simp only [step, chunkFor, Chunk.joinAll_nil]
    split
    · rw [Registry.receive_eq]
      split <;> rfl
    · rfl

/-- Events are queued for a registration only while it claims its stream, and announce what the
chunks that it is brought lead to. -/
theorem queued_step {l : Ledger} (hs : l.Sound) {g : Registration} (hissued : l.Issued g)
    (op : RegistryOp) :
    (l.step op).queued g = l.queued g ++
      if l.Claims g then
        Reassembler.announced (l.registry.reassembler.held g.id) (op.chunkFor g)
      else [] := by
  cases op with
  | register id =>
    simp only [step, chunkFor]
    split <;> simp [Reassembler.announced]
  | deliver c =>
    rw [queued_deliver hs, added]
    by_cases hclaim : l.registry.streams.get? c.streamId = some g.generation
    · have howned : ⟨c.streamId, g.generation⟩ ∈ l.owned :=
        hs.owned_of_claims ⟨c.streamId, g.generation⟩ hclaim
      have hid : c.streamId = g.id := by rw [← hissued.eq_of_generation _ howned rfl]
      have hg : l.Claims g := by
        rw [Claims, ← hid]
        exact hclaim
      rw [if_pos hclaim, if_pos hg]
      simp only [chunkFor, hid, if_true, Reassembler.announced, Reassembler.accept_fst,
        Chunk.joinAll_cons, Chunk.joinAll_nil, List.filterMap_cons]
      cases Registry.eventOf (c.join (l.registry.reassembler.held g.id)).1 <;> rfl
    · simp only [hclaim, if_false, chunkFor]
      split
      · rename_i hg
        have hid : ¬ c.streamId = g.id := by
          intro h
          rw [Claims, ← h] at hg
          exact hclaim hg
        simp [hid, Reassembler.announced]
      · rfl
  | drop g' =>
    simp only [step, chunkFor]
    split <;> simp [Reassembler.announced]
  | receive g' =>
    simp only [step, chunkFor]
    split <;> simp [Reassembler.announced]

/-! ## What a registration is brought -/

/-- What was queued for a registration, and what is kept for its stream while it claims it, are what
a reassembler of its own has announced and keeps after the given chunks. -/
structure Follows (l : Ledger) (g : Registration) (cs : List Chunk) : Prop where
  issued : l.Issued g
  queued_eq : l.queued g = Reassembler.announced [] cs
  held_eq : l.Claims g → l.registry.reassembler.held g.id = (Chunk.joinAll [] cs).2

/-- A new registration has been brought nothing. -/
theorem follows_register {l : Ledger} (hs : l.Sound) {id : StreamId} {g : Registration}
    {r : Registry} (hreg : l.registry.register? id = some (g, r)) :
    (l.step (.register id)).Follows g [] ∧ (l.step (.register id)).Claims g := by
  have hsound := sound_step hs (.register id)
  have howned : g ∈ (l.step (.register id)).owned := by simp [step, hreg]
  have hqueued : (l.step (.register id)).queued g = l.queued g := by simp [step, hreg]
  have hissued := hsound.issued_of_owned g howned
  obtain ⟨-, rfl, rfl⟩ := Registry.register?_eq_some hreg
  have hblank := (hs.blank_of_gt ⟨id, l.registry.generations + 1⟩ (Nat.lt_succ_self _)).1
  refine ⟨⟨hissued, by rw [hqueued, hblank]; rfl, fun _ => ?_⟩, ?_⟩
  · simp [step, hreg, Reassembler.held_forget]
  · simp [step, hreg, Claims, Table.get?_insert]

/-- An operation brings a registration its chunk, if the registration claims the stream. -/
theorem follows_step {l : Ledger} (hs : l.Sound) {g : Registration} {cs : List Chunk}
    (h : l.Follows g cs) (op : RegistryOp) :
    (l.step op).Follows g (cs ++ if l.Claims g then op.chunkFor g else []) := by
  refine ⟨issued_step h.issued op, ?_, ?_⟩
  · rw [queued_step hs h.issued op, h.queued_eq]
    split
    · rename_i hg
      rw [h.held_eq hg]
      simp [Reassembler.announced, Chunk.joinAll_append]
    · simp
  · intro hclaims
    by_cases hg : l.Claims g
    · have hends := (claims_step hs hg op).1 hclaims
      rw [held_step hs hg hends, h.held_eq hg, if_pos hg, Chunk.joinAll_append]
    · exact absurd hclaims (not_claims_step hs h.issued hg op)

/-- Operations bring a registration the chunks up to the end of its claim. -/
theorem follows_run {l : Ledger} (hs : l.Sound) {g : Registration} {cs : List Chunk}
    (h : l.Follows g cs) (ops : List RegistryOp) :
    (l.run ops).Follows g (cs ++ if l.Claims g then chunksFor g ops else []) := by
  induction ops generalizing l cs with
  | nil => simpa [chunksFor] using h
  | cons op ops ih =>
    have hnext := ih (sound_step hs op) (follows_step hs h op)
    by_cases hg : l.Claims g
    · have hclaims := claims_step hs hg op
      by_cases hends : op.ends g = true
      · have hlost : ¬ (l.step op).Claims g := by simp [hclaims, hends]
        simpa [hg, hlost, chunksFor, hends] using hnext
      · have hkept : (l.step op).Claims g := by simpa [hclaims] using hends
        simpa [hg, hkept, chunksFor, hends] using hnext
    · have hlost := not_claims_step hs h.issued hg op
      simpa [hg, hlost] using hnext

/-- From its beginning, a registration is brought the chunks up to the end of its claim. -/
theorem follows_of_register {l : Ledger} (hs : l.Sound) {id : StreamId} {g : Registration}
    {r : Registry} (hreg : l.registry.register? id = some (g, r)) (ops : List RegistryOp) :
    (l.run (.register id :: ops)).Follows g (chunksFor g ops) := by
  obtain ⟨hfollows, hclaims⟩ := follows_register hs hreg
  simpa [hclaims] using follows_run (sound_step hs _) hfollows ops

/-- From its beginning, a registration claims its stream until something ends its claim. -/
theorem claims_of_register {l : Ledger} (hs : l.Sound) {id : StreamId} {g : Registration}
    {r : Registry} (hreg : l.registry.register? id = some (g, r)) (ops : List RegistryOp) :
    (l.run (.register id :: ops)).Claims g ↔ ∀ op ∈ ops, op.ends g = false := by
  obtain ⟨hfollows, hclaims⟩ := follows_register hs hreg
  rw [run_cons, claims_run (sound_step hs _) hfollows.issued]
  exact ⟨And.right, fun hops => ⟨hclaims, hops⟩⟩

/-- Whatever is announced of the chunks of a registration, nothing comes after the end of the
stream: a chunk that ends it is the last that the registration is brought. -/
theorem eq_nil_of_announced_closed (g : Registration) (ops : List RegistryOp) :
    ∀ (held : Bytes) (before after : List StreamEvent),
      Reassembler.announced held (chunksFor g ops) = before ++ .closed :: after → after = [] := by
  induction ops with
  | nil =>
    intro held before after h
    simp [chunksFor, Reassembler.announced] at h
  | cons op ops ih =>
    intro held before after h
    have hother : op.chunkFor g = [] → after = [] := by
      intro hnone
      by_cases hends : op.ends g = true
      · simp [chunksFor, hnone, hends, Reassembler.announced] at h
      · exact ih held before after (by simpa [chunksFor, hnone, hends] using h)
    cases op with
    | deliver c =>
      by_cases hid : c.streamId = g.id
      · by_cases hclose : c.isClose = true
        · simp only [chunksFor, chunkFor, ends, hid, hclose, decide_true, Bool.and_true, if_true,
            List.append_nil, Reassembler.announced_cons, Chunk.join_of_close hclose,
            Registry.eventOf] at h
          cases before with
          | nil => exact (List.cons.inj h).2.symm
          | cons e before => simp [Reassembler.announced] at h
        · have hdata := Reassembler.announced_of_not_close held (Bool.eq_false_iff.2 hclose)
          simp only [chunksFor, chunkFor, ends, hid, hclose, decide_true, Bool.true_and, if_true,
            List.singleton_append, Reassembler.announced_cons] at h
          cases hevent : Registry.eventOf (c.join held).1 with
          | none => exact ih _ before after (by simpa [hevent] using h)
          | some e =>
            rw [hevent] at h hdata
            cases before with
            | nil => exact absurd (congrArg some (List.cons.inj h).1) hdata
            | cons e' before => exact ih _ before after (List.cons.inj h).2
      · exact hother (by simp [chunkFor, hid])
    | register id => exact hother rfl
    | drop g' => exact hother rfl
    | receive g' => exact hother rfl

/-! ## What an owner is given -/

/-- What the owner of a registration was given is a beginning of what was queued, and the queue is
the rest of it.  The end of all events is reported only after the end of the stream was given. -/
structure Served (l : Ledger) (g : Registration) : Prop where
  closed_of_owned : g ∈ l.owned → ¬ l.Claims g → .closed ∈ l.queued g
  given_append : g ∈ l.owned → (l.given g).filterMap Received.event? ++ l.registry.inbox g =
    l.queued g
  given_prefix : (l.given g).filterMap Received.event? <+: l.queued g
  closed_of_ended : ∀ before after, l.given g = before ++ .ended :: after →
    .event .closed ∈ before

/-- Nobody comes to own a registration that was made before. -/
theorem owned_of_step {l : Ledger} {g : Registration} (hissued : l.Issued g) {op : RegistryOp}
    (h : g ∈ (l.step op).owned) : g ∈ l.owned := by
  cases op with
  | register id =>
    simp only [step] at h
    split at h
    · exact h
    · rename_i g' r hreg
      obtain ⟨-, rfl, rfl⟩ := Registry.register?_eq_some hreg
      rcases List.mem_cons.1 h with rfl | h
      · exact absurd hissued.generation_le (Nat.not_succ_le_self _)
      · exact h
  | deliver c => exact h
  | drop g' =>
    simp only [step] at h
    split at h
    · exact List.mem_of_mem_erase h
    · exact h
  | receive g' =>
    simp only [step] at h
    split at h <;> exact h

/-- Who owns a registration and does not give it up goes on owning it. -/
theorem owned_run {l : Ledger} {g : Registration} (h : g ∈ l.owned) {ops : List RegistryOp}
    (hkept : RegistryOp.drop g ∉ ops) : g ∈ (l.run ops).owned := by
  induction ops generalizing l with
  | nil => exact h
  | cons op ops ih =>
    obtain ⟨hop, hops⟩ := not_or.1 (mt List.mem_cons.2 hkept)
    refine ih ?_ hops
    cases op with
    | register id =>
      simp only [step]
      split
      · exact h
      · exact List.mem_cons_of_mem _ h
    | deliver c => exact h
    | drop g' =>
      have hne : g ≠ g' := fun heq => hop (by rw [heq])
      simp only [step]
      split
      · exact (List.mem_erase_of_ne hne).2 h
      · exact h
    | receive g' =>
      simp only [step]
      split <;> exact h

/-- What is added to the record of a registration is added to its queue, and what leaves its queue
is given to its owner. -/
theorem given_append_step {l : Ledger} (hs : l.Sound) {g : Registration} (hissued : l.Issued g)
    (h : (l.given g).filterMap Received.event? ++ l.registry.inbox g = l.queued g)
    {op : RegistryOp} (howned : g ∈ (l.step op).owned) :
    ((l.step op).given g).filterMap Received.event? ++ (l.step op).registry.inbox g =
      (l.step op).queued g := by
  have howned' := owned_of_step hissued howned
  cases op with
  | register id =>
    simp only [step]
    split
    · exact h
    · rename_i g' r hreg
      obtain ⟨-, rfl, rfl⟩ := Registry.register?_eq_some hreg
      have hgen : ¬ g.generation = l.registry.generations + 1 := by
        have := hissued.generation_le
        omega
      simpa [Registry.inbox, Table.get?_insert, hgen] using h
  | deliver c =>
    rw [inbox_deliver hs, queued_deliver hs, ← h, List.append_assoc]
    rfl
  | drop g' =>
    simp only [step] at howned ⊢
    split
    · rename_i hmem
      rw [if_pos hmem] at howned
      have hne : ¬ g.generation = g'.generation := fun hgen =>
        (hs.nodup.mem_erase_iff.1 howned).1 ((hs.issued_of_owned g' hmem).eq_of_generation g
          howned' hgen)
      simpa [Registry.inbox, Registry.release, Table.get?_erase, hne] using h
    · exact h
  | receive g' =>
    simp only [step]
    split
    · rename_i hmem
      rw [Registry.receive_eq]
      by_cases heq : g = g'
      · subst heq
        cases hinbox : l.registry.inbox g with
        | nil =>
          rw [hinbox] at h
          simp only [if_true, hinbox, List.filterMap_append]
          split <;> simpa [List.filterMap_cons, Received.event?] using h
        | cons e queue =>
          rw [hinbox] at h
          simpa [Received.event?, Registry.inbox, Table.get?_insert] using h
      · have hgen : ¬ g.generation = g'.generation := fun hgen =>
          heq ((hs.issued_of_owned g' hmem).eq_of_generation g howned' hgen)
        simp only [heq, if_false]
        split
        · simpa [Registry.inbox, Table.get?_insert, hgen] using h
        · exact h
    · exact h

/-- An owner is given something only when it asks. -/
theorem given_step (l : Ledger) (g : Registration) (op : RegistryOp) :
    (l.step op).given g = l.given g ∨
      (op = .receive g ∧ g ∈ l.owned ∧
        (l.step op).given g = l.given g ++ [(l.registry.receive g).1]) := by
  cases op with
  | register id =>
    simp only [step]
    split <;> exact .inl rfl
  | deliver c => exact .inl rfl
  | drop g' =>
    simp only [step]
    split <;> exact .inl rfl
  | receive g' =>
    simp only [step]
    split
    · rename_i hmem
      by_cases heq : g = g'
      · subst heq
        exact .inr ⟨rfl, hmem, by simp⟩
      · exact .inl (by simp [heq])
    · exact .inl rfl

/-- An owner is told that all has ended only when the stream was lost and all events were given. -/
theorem receive_eq_ended {l : Ledger} {g : Registration}
    (h : (l.registry.receive g).1 = .ended) : l.registry.inbox g = [] ∧ ¬ l.Claims g := by
  rw [Registry.receive_eq] at h
  split at h
  · cases h
  · rename_i hinbox
    refine ⟨hinbox, fun hclaims => ?_⟩
    have hclaim : l.registry.streams.get? g.id = some g.generation := hclaims
    simp [hclaim] at h

/-- Receiving takes one event off the queue at a time. -/
theorem inbox_receive {l : Ledger} {g : Registration} (h : g ∈ l.owned) :
    (l.step (.receive g)).registry.inbox g = (l.registry.inbox g).tail := by
  simp only [step, h, if_true]
  rw [Registry.receive_eq]
  split
  · rename_i e queue hinbox
    rw [hinbox]
    simp [Registry.inbox, Table.get?_insert]
  · rename_i hinbox
    rw [hinbox]
    rfl

theorem inbox_receives {l : Ledger} {g : Registration} (h : g ∈ l.owned) (k : Nat) :
    (l.run (List.replicate k (.receive g))).registry.inbox g = (l.registry.inbox g).drop k := by
  induction k generalizing l with
  | zero => rfl
  | succ k ih =>
    have howned : g ∈ (l.step (.receive g)).owned := by simp [step, h]
    rw [List.replicate_succ, run_cons, ih howned, inbox_receive h, List.drop_tail]

theorem served_step {l : Ledger} (hs : l.Sound) {g : Registration} (hissued : l.Issued g)
    (h : l.Served g) (op : RegistryOp) : (l.step op).Served g := by
  have hqueued := queued_step hs hissued op
  have hgrows : l.queued g <+: (l.step op).queued g := by
    rw [hqueued]
    exact List.prefix_append _ _
  constructor
  case closed_of_owned =>
    intro howned hlost
    by_cases hg : l.Claims g
    · -- the claim ends here; an owner that is still there was told so by the chunk that ended it
      have hends : op.ends g = true := by simpa [claims_step hs hg] using hlost
      cases op with
      | deliver c =>
        simp only [ends, Bool.and_eq_true, decide_eq_true_eq] at hends
        obtain ⟨hid, hclose⟩ := hends
        rw [hqueued, if_pos hg]
        simp [chunkFor, hid, Reassembler.announced_cons, Chunk.join_of_close hclose,
          Registry.eventOf]
      | drop g' =>
        have heq : g' = g := by simpa [ends] using hends
        subst heq
        have hmem := hs.owned_of_claims g' hg
        simp only [step, hmem, if_true] at howned
        exact absurd rfl (hs.nodup.mem_erase_iff.1 howned).1
      | register id => cases hends
      | receive g' => cases hends
    · exact hgrows.subset (h.closed_of_owned (owned_of_step hissued howned) hg)
  case given_append =>
    intro howned
    exact given_append_step hs hissued (h.given_append (owned_of_step hissued howned)) howned
  case given_prefix =>
    rcases given_step l g op with hsame | ⟨rfl, hmem, -⟩
    · rw [hsame]
      exact h.given_prefix.trans hgrows
    · have howned : g ∈ (l.step (.receive g)).owned := by simp [step, hmem]
      have happend := given_append_step hs hissued (h.given_append hmem) howned
      rw [← happend]
      exact List.prefix_append _ _
  case closed_of_ended =>
    intro before after heq
    rcases given_step l g op with hsame | ⟨rfl, hmem, hgiven⟩
    · exact h.closed_of_ended before after (hsame ▸ heq)
    · -- the end of all events is either the answer just given or one given before
      rw [hgiven] at heq
      rcases List.eq_nil_or_concat after with rfl | ⟨after', x, rfl⟩
      · obtain ⟨hbefore, hended⟩ := List.append_inj' heq rfl
        obtain ⟨hinbox, hlost⟩ := receive_eq_ended (List.cons.inj hended).1
        have hclosed := h.closed_of_owned hmem hlost
        rw [← h.given_append hmem, hinbox, List.append_nil] at hclosed
        obtain ⟨outcome, hin, hevent⟩ := List.mem_filterMap.1 hclosed
        cases outcome <;> simp only [Received.event?, Option.some.injEq, reduceCtorEq] at hevent
        rw [← hbefore, ← hevent]
        exact hin
      · rw [List.concat_eq_append, ← List.cons_append, ← List.append_assoc] at heq
        exact h.closed_of_ended before after' (List.append_inj' heq rfl).1

/-- A registration that was just made was given nothing. -/
theorem given_register {l : Ledger} (hs : l.Sound) {id : StreamId} {g : Registration} {r : Registry}
    (hreg : l.registry.register? id = some (g, r)) : (l.step (.register id)).given g = [] := by
  obtain ⟨-, rfl, rfl⟩ := Registry.register?_eq_some hreg
  simpa [step, hreg] using
    (hs.blank_of_gt ⟨id, l.registry.generations + 1⟩ (Nat.lt_succ_self _)).2

theorem served_register {l : Ledger} (hs : l.Sound) {id : StreamId} {g : Registration}
    {r : Registry} (hreg : l.registry.register? id = some (g, r)) :
    (l.step (.register id)).Served g := by
  obtain ⟨hfollows, hclaims⟩ := follows_register hs hreg
  have hqueued : (l.step (.register id)).queued g = [] := hfollows.queued_eq
  have hgiven := given_register hs hreg
  have hinbox : (l.step (.register id)).registry.inbox g = [] := by
    obtain ⟨-, rfl, rfl⟩ := Registry.register?_eq_some hreg
    simp [step, hreg, Registry.inbox, Table.get?_insert]
  constructor
  case closed_of_owned => exact fun _ hlost => absurd hclaims hlost
  case given_append =>
    intro _
    rw [hqueued, hgiven, hinbox]
    rfl
  case given_prefix =>
    rw [hgiven]
    exact List.nil_prefix
  case closed_of_ended =>
    intro before after heq
    rw [hgiven] at heq
    cases before <;> cases heq

/-- Whatever anybody does, an owner is served. -/
theorem served_run {l : Ledger} (hs : l.Sound) {g : Registration} (hissued : l.Issued g)
    (h : l.Served g) (ops : List RegistryOp) : (l.run ops).Served g := by
  induction ops generalizing l with
  | nil => exact h
  | cons op ops ih =>
    exact ih (sound_step hs op) (issued_step hissued op) (served_step hs hissued h op)

theorem queued_receives (l : Ledger) (g : Registration) (k : Nat) :
    (l.run (List.replicate k (.receive g))).queued = l.queued := by
  induction k generalizing l with
  | zero => rfl
  | succ k ih =>
    have hstep : (l.step (.receive g)).queued = l.queued := by
      simp only [step]
      split <;> rfl
    rw [List.replicate_succ, run_cons, ih, hstep]

/-- An owner that keeps asking is given all that was queued, and then is told whether more may
come. -/
theorem given_receives {l : Ledger} (hs : l.Sound) {g : Registration} (h : l.Served g)
    (howned : g ∈ l.owned) {k : Nat} (hk : (l.registry.inbox g).length ≤ k) :
    ((l.run (List.replicate k (.receive g))).given g).filterMap Received.event? = l.queued g ∧
      ((l.run (List.replicate k (.receive g))).registry.receive g).1 =
        if l.Claims g then .pending else .ended := by
  have hissued := hs.issued_of_owned g howned
  have hmem : ∀ op ∈ List.replicate k (RegistryOp.receive g), op = .receive g :=
    fun op hop => List.eq_of_mem_replicate hop
  have hinbox : (l.run (List.replicate k (.receive g))).registry.inbox g = [] := by
    rw [inbox_receives howned]
    exact List.drop_of_length_le hk
  have hkept : g ∈ (l.run (List.replicate k (.receive g))).owned := by
    refine owned_run howned fun hdrop => ?_
    cases hmem _ hdrop
  have hclaims : (l.run (List.replicate k (.receive g))).Claims g ↔ l.Claims g := by
    rw [claims_run hs hissued]
    refine ⟨And.left, fun hg => ⟨hg, fun op hop => ?_⟩⟩
    rw [hmem op hop]
    rfl
  constructor
  · have hall := (served_run hs hissued h (List.replicate k (.receive g))).given_append hkept
    rwa [hinbox, List.append_nil, queued_receives] at hall
  · rw [Registry.receive_eq, hinbox]
    exact ite_congr (propext hclaims) (fun _ => rfl) (fun _ => rfl)

/-- From its beginning, the owner of a registration is served. -/
theorem served_of_register {l : Ledger} (hs : l.Sound) {id : StreamId} {g : Registration}
    {r : Registry} (hreg : l.registry.register? id = some (g, r)) (ops : List RegistryOp) :
    (l.run (.register id :: ops)).Served g := by
  obtain ⟨hfollows, -⟩ := follows_register hs hreg
  exact served_run (sound_step hs _) hfollows.issued (served_register hs hreg) ops

/-- Who makes a registration owns it until it is given up. -/
theorem owned_of_register {l : Ledger} {id : StreamId} {g : Registration} {r : Registry}
    (hreg : l.registry.register? id = some (g, r)) {ops : List RegistryOp}
    (hkept : RegistryOp.drop g ∉ ops) : g ∈ (l.run (.register id :: ops)).owned := by
  have howned : g ∈ (l.step (.register id)).owned := by simp [step, hreg]
  exact owned_run howned hkept

/-! ## The refinement -/

theorem streamId_of_mem_chunksFor {g : Registration} {ops : List RegistryOp} {c : Chunk}
    (h : c ∈ chunksFor g ops) : c.streamId = g.id := by
  induction ops with
  | nil => cases h
  | cons op ops ih =>
    rcases List.mem_append.1 h with h | h
    · cases op with
      | deliver c' =>
        simp only [chunkFor] at h
        split at h
        · rename_i hid
          rw [List.mem_singleton.1 h]
          exact hid
        · cases h
      | register id => cases h
      | drop g' => cases h
      | receive g' => cases h
    · split at h
      · cases h
      · exact ih h

/-- What a reassembler announces of the chunks that a registration is brought. -/
theorem announced_chunksFor (g : Registration) (ops : List RegistryOp) :
    (Reassembler.empty.outcomesOf g.id (chunksFor g ops)).filterMap Registry.eventOf =
      Reassembler.announced [] (chunksFor g ops) := by
  have hfilter : (chunksFor g ops).filter (fun c => c.streamId = g.id) = chunksFor g ops :=
    List.filter_eq_self.2 fun c hc => decide_eq_true (streamId_of_mem_chunksFor hc)
  rw [Reassembler.outcomesOf_eq, hfilter, Reassembler.held_empty, Reassembler.announced]

/-- Giving up another registration leaves a claim and what has begun to arrive for it alone. -/
theorem claims_held_drop_of_ne {l : Ledger} (hs : l.Sound) {g g' : Registration}
    (hg : l.Claims g) (hne : g' ≠ g) :
    (l.step (.drop g')).Claims g ∧
      (l.step (.drop g')).registry.reassembler.held g.id = l.registry.reassembler.held g.id := by
  have hends : (RegistryOp.drop g').ends g = false := by simpa [ends] using hne
  exact ⟨(claims_step hs hg _).2 hends, held_step hs hg hends⟩

/-- In a registry that anybody uses in any way, a registration is served as by a reassembler of its
own, which is given the chunks of the stream from the registration on, until the registration is
given up or the stream is closed.  Its owner is given the events in order; nothing is queued after
the end of the stream, and the end of all events is reported only after the end of the stream was
given.  Giving up another registration, even one of the same stream, changes nothing for it. -/
theorem registration_refines_private_reassembler (earlier later : List RegistryOp) (id : StreamId)
    (g : Registration) (r : Registry)
    (hreg : (new.run earlier).registry.register? id = some (g, r)) :
    let l := new.run (earlier ++ .register id :: later)
    l.queued g =
        (Reassembler.empty.outcomesOf id (chunksFor g later)).filterMap Registry.eventOf ∧
      (l.given g).filterMap Received.event? <+: l.queued g ∧
      (g ∈ l.owned → (l.given g).filterMap Received.event? ++ l.registry.inbox g = l.queued g) ∧
      (∀ before after, l.queued g = before ++ .closed :: after → after = []) ∧
      (∀ before after, l.given g = before ++ .ended :: after → .event .closed ∈ before) ∧
      ∀ g', l.Claims g → g' ≠ g → (l.step (.drop g')).Claims g ∧
        (l.step (.drop g')).registry.reassembler.held id = l.registry.reassembler.held id := by
  intro l
  have hs := sound_run sound_new earlier
  have hid : g.id = id := by
    obtain ⟨-, rfl, -⟩ := Registry.register?_eq_some hreg
    rfl
  have hl : l = (new.run earlier).run (.register id :: later) := run_append _ _ _
  have hfollows : l.Follows g (chunksFor g later) := hl ▸ follows_of_register hs hreg later
  have hserved : l.Served g := hl ▸ served_of_register hs hreg later
  have hsound : l.Sound := sound_run sound_new _
  rw [← hid]
  refine ⟨?_, hserved.given_prefix, hserved.given_append, ?_, hserved.closed_of_ended, ?_⟩
  · rw [hfollows.queued_eq, announced_chunksFor]
  · intro before after h
    rw [hfollows.queued_eq] at h
    exact eq_nil_of_announced_closed g later [] before after h
  · exact fun g' hg hne => claims_held_drop_of_ne hsound hg hne

/-- A stream is closed by the peer and claimed again while the first registration is still there,
which is given up in the middle of a message for the second. -/
theorem registration_refines_with_stale_one :
    let stale : List RegistryOp := [.register default, .deliver ⟨default, none, 0, 2, [1]⟩,
      .deliver (.close default)]
    let later : List RegistryOp := [.deliver ⟨default, none, 0, 2, [2]⟩, .drop ⟨default, 1⟩,
      .deliver ⟨default, none, 1, 2, [3]⟩, .receive ⟨default, 2⟩, .deliver (.close default)]
    let l := new.run (stale ++ .register default :: later)
    l.queued ⟨default, 2⟩ = [.data [2, 3], .closed] ∧
      l.registry.inbox ⟨default, 2⟩ = [.closed] := by
  intro stale later l
  obtain ⟨hqueued, -, happend, -, -, -⟩ :=
    registration_refines_private_reassembler stale later default ⟨default, 2⟩ _ rfl
  have hqueued' : l.queued ⟨default, 2⟩ = [.data [2, 3], .closed] := hqueued.trans rfl
  refine ⟨hqueued', ?_⟩
  have hgiven : (l.given ⟨default, 2⟩).filterMap Received.event? = [.data [2, 3]] := rfl
  have howned : ⟨default, 2⟩ ∈ l.owned := by decide
  have hall := happend howned
  rw [hgiven, hqueued'] at hall
  exact (List.cons.inj hall).2

end Ledger

end Meshway
