import Meshway.Proofs.Bridge.Release
set_option autoImplicit false

/-!
# Openings that fail (SPEC §4.4, §10.3 items 11 and 12)

A bridge may fail to open before it claims its stream, and after: then the claim
is given up, and giving it up drops what has begun to arrive for the stream.
Main statement: whatever fails, the bridge and the claims on the node are as
they were, and so is every message that has begun to arrive, unless it was for
the very stream and nobody claimed that.  A bridge opens once at most.
-/

namespace Meshway

open Tunnel

namespace Registry

/-! ## A claim given up at once -/

/-- What a registry has in common with an earlier one, when a stream was claimed and given up in
between, if it was free. -/
structure Restored (id : StreamId) (r r' : Registry) : Prop where
  /-- the same streams are claimed, by the same registrations -/
  streams : r'.streams = r.streams
  /-- every registration that was made has the same events to receive -/
  inboxes : ∀ k ≤ r.generations, r'.inboxes.get? k = r.inboxes.get? k
  /-- messages that have begun to arrive are kept, but for the stream where nobody claimed it -/
  partials : ∀ id', id' ≠ id ∨ r.isRegistered id' →
    r'.reassembler.partials.get? id' = r.reassembler.partials.get? id'

variable {r r' : Registry} {id : StreamId} {g : Registration}

theorem Restored.refl (id : StreamId) (r : Registry) : Restored id r r :=
  ⟨rfl, fun _ _ => rfl, fun _ _ => rfl⟩

/-- A claim that is given up at once leaves no more than its number behind, and drops what had begun
to arrive for the stream. -/
theorem release_register? (h : r.register? id = some (g, r')) :
    r'.release g =
      { r with
        generations := r.generations + 1
        reassembler := r.reassembler.forget id
        inboxes := r.inboxes.erase (r.generations + 1) } := by
  have hunclaimed : r.streams.contains id = false := not_isRegistered_of_register? h
  obtain ⟨hfree, rfl, rfl⟩ := register?_eq_some h
  have hstreams : (r.streams.insert id (r.generations + 1)).erase id = r.streams := by
    rw [Table.erase_insert_self, Table.erase_eq_self hfree]
  have hclaimed : (r.streams.insert id (r.generations + 1)).get? id =
      some (r.generations + 1) := by
    rw [Table.get?_insert, if_pos rfl]
  simp only [release, hclaimed, if_true, hstreams, hunclaimed, Bool.false_eq_true, if_false,
    Reassembler.forget, Table.erase_erase, Table.erase_insert_self]

theorem restored_release_register? (h : r.register? id = some (g, r')) :
    Restored id r (r'.release g) := by
  rw [release_register? h]
  refine ⟨rfl, fun k hk => ?_, fun id' hid => ?_⟩
  · simp only [Table.get?_erase]
    exact if_neg fun heq => Nat.not_succ_le_self _ (heq ▸ hk)
  · have hne : id' ≠ id := by
      rcases hid with hne | hclaimed
      · exact hne
      · rintro rfl
        cases hclaimed.symm.trans (not_isRegistered_of_register? h)
    simp only [Reassembler.forget, Table.get?_erase]
    exact if_neg hne

theorem Restored.isRegistered (h : Restored id r r') (id' : StreamId) :
    r'.isRegistered id' = r.isRegistered id' := by
  rw [Registry.isRegistered, h.streams, Registry.isRegistered]

end Registry

/-! ## Failures -/

namespace Bridge

variable {α : Type} {n : Node} {listen : PortAllocator → Except IoFault α × PortAllocator}
  {b b' : Bridge} {h h' : BridgeHost} {host : String} {port : UInt16}

theorem open?_of_fails {e : BridgeFault} (hfails : Fails n listen b h host port e) :
    (open? n listen b h host port).1 = .error e := by
  cases hfails with
  | alreadyOpen hstate => rw [open?, if_pos hstate]
  | segmentation hidle hplan =>
    simp only [open?, hidle, ne_eq, not_true_eq_false, if_false, hplan]
  | inUse hidle hplan hclaimed =>
    rw [open?_of_claimed hidle hplan ((h.registry.register?_eq_none_iff_isRegistered _).2 hclaimed)]
  | socket hidle hplan hfree hlisten =>
    simp only [open?, hidle, ne_eq, not_true_eq_false, if_false, hplan, Registry.register?, hfree,
      Bool.false_eq_true]
    split
    · rename_i hgot
      rw [hgot] at hlisten
      exact congrArg _ (congrArg _ (Except.error.inj hlisten))
    · rename_i hgot
      rw [hgot] at hlisten
      cases hlisten

theorem open?_eq_error_iff (n : Node) (listen : PortAllocator → Except IoFault α × PortAllocator)
    (b : Bridge) (h : BridgeHost) (host : String) (port : UInt16) (e : BridgeFault) :
    (open? n listen b h host port).1 = .error e ↔ Fails n listen b h host port e := by
  refine ⟨fun heq => ?_, open?_of_fails⟩
  have hopen : open? n listen b h host port = (.error e, (open? n listen b h host port).2) :=
    Prod.ext heq rfl
  exact (open?_error_cases hopen).2.1

/-- A bridge that fails to open leaves the claims as they are. -/
theorem restored_of_open?_error {e : BridgeFault}
    (hopen : open? n listen b h host port = (.error e, b', h')) :
    Registry.Restored (StreamId.derive n.gid host port) h.registry h'.registry := by
  obtain ⟨-, -, rfl | ⟨fault, g, registry, -, hreg, rfl⟩⟩ := open?_error_cases hopen
  · exact .refl _ _
  · exact Registry.restored_release_register? hreg

end Bridge

/-! ## Openings of one bridge -/

namespace HostAtWork

/-- Whether a turn opens the bridge with this number. -/
def opens (n : Node) (s : HostAtWork) (k : Nat) : Turn → Bool
  | .opening j listen host port =>
    j = k && (s.bridges k).ahead.isEmpty &&
      (Bridge.open? n listen (s.bridges k).bridge s.shared host port).1.isOk
  | .event _ _ | .effect _ | .registry _ => false

/-- How many of these turns open the bridge. -/
def openings (n : Node) (k : Nat) : HostAtWork → List Turn → Nat
  | _, [] => 0
  | s, turn :: turns => (if s.opens n k turn then 1 else 0) + openings n k (s.step n turn) turns

variable {n : Node} {s : HostAtWork} {k : Nat}

theorem opens_eq_true {turn : Turn} (h : s.opens n k turn = true) :
    ∃ listen host port a t b shared, turn = .opening k listen host port ∧
      (s.bridges k).ahead = [] ∧
      Bridge.open? n listen (s.bridges k).bridge s.shared host port = (.ok (a, t), b, shared) := by
  cases turn with
  | opening j listen host port =>
    simp only [opens, Bool.and_eq_true, decide_eq_true_eq, List.isEmpty_iff] at h
    obtain ⟨⟨rfl, hahead⟩, hok⟩ := h
    rcases hopen : Bridge.open? n listen (s.bridges j).bridge s.shared host port with
      ⟨e | ⟨a, t⟩, b, shared⟩
    · rw [hopen] at hok
      cases hok
    · exact ⟨listen, host, port, a, t, b, shared, rfl, hahead, hopen⟩
  | event j e => cases h
  | effect j => cases h
  | registry op => cases h

/-- A bridge that opens gets a task. -/
theorem sound_of_opens {turn : Turn} (h : s.opens n k turn = true) :
    (s.step n turn).Has k Sound := by
  obtain ⟨listen, host, port, a, t, b, shared, rfl, hahead, hopen⟩ := opens_eq_true h
  rw [step_opening_ok hahead hopen, Has, put_bridges_self]
  exact ⟨t, rfl, sound_opened hopen⟩

/-- A bridge with a task is seen idle only while it is being opened. -/
theorem opens_of_sound (h : s.Has k Sound) (turn : Turn) : s.opens n k turn = false := by
  refine Bool.eq_false_iff.2 fun hopens => ?_
  obtain ⟨listen, host, port, a, t, b, shared, -, hahead, hopen⟩ := opens_eq_true hopens
  obtain ⟨t', -, hsound⟩ := h
  cases hahead.symm.trans (hsound.opened (Bridge.open?_registers hopen).1)

theorem openings_of_sound (h : s.Has k Sound) (turns : List Turn) : openings n k s turns = 0 := by
  induction turns generalizing s with
  | nil => rfl
  | cons turn turns ih =>
    rw [openings, opens_of_sound h, ih (has_step (kept_sound n) h turn)]
    rfl

theorem openings_le_one (s : HostAtWork) (turns : List Turn) : openings n k s turns ≤ 1 := by
  induction turns generalizing s with
  | nil => exact Nat.zero_le 1
  | cons turn turns ih =>
    rw [openings]
    cases hopens : s.opens n k turn with
    | true =>
      rw [openings_of_sound (sound_of_opens hopens)]
      exact Nat.le_refl 1
    | false =>
      rw [if_neg Bool.false_ne_true, Nat.zero_add]
      exact ih (s.step n turn)

/-- A bridge fails to open for one of four reasons.  Then it stays as it is, and so do the claims of
others, what they have to receive and the messages that have begun to arrive for them; the stream
that it asked for is free if it was before.  A bridge that opens was idle, and claims a stream that
was free.  Whatever happens on the node, it opens once at most. -/
theorem fails_without_trace_or_opens_once (n : Node) :
    (∀ {α : Type} (listen : PortAllocator → Except IoFault α × PortAllocator) (b : Bridge)
      (h : BridgeHost) (host : String) (port : UInt16),
      let id := StreamId.derive n.gid host port
      (∀ e, (Bridge.open? n listen b h host port).1 = .error e ↔
        Bridge.Fails n listen b h host port e) ∧
      match Bridge.open? n listen b h host port with
      | (.error e, b', h') =>
        b' = b ∧ Registry.Restored id h.registry h'.registry ∧
          h'.registry.isRegistered id = h.registry.isRegistered id ∧
          ((∀ fault, e ≠ .socket fault) → h' = h)
      | (.ok (_, t), b', h') =>
        b.state = .idle ∧ b'.state = .streaming ∧
          h.registry.register? id = some (t.registration, h'.registry)) ∧
    ∀ s turns k, openings n k s turns ≤ 1 := by
  refine ⟨fun listen b h host port => ?_, fun s turns k => openings_le_one s turns⟩
  intro id
  refine ⟨Bridge.open?_eq_error_iff n listen b h host port, ?_⟩
  rcases hopen : Bridge.open? n listen b h host port with ⟨e | ⟨a, t⟩, b', h'⟩
  · have hrestored := Bridge.restored_of_open?_error hopen
    obtain ⟨hbridge, -, hsame | ⟨fault, -, -, heq, -⟩⟩ := Bridge.open?_error_cases hopen
    · exact ⟨hbridge, hrestored, hrestored.isRegistered id, fun _ => hsame⟩
    · exact ⟨hbridge, hrestored, hrestored.isRegistered id, fun hne => absurd heq (hne fault)⟩
  · obtain ⟨hidle, hstreaming, hreg⟩ := Bridge.open?_registers hopen
    rw [(Bridge.open?_eq_ok hopen).1] at hreg
    exact ⟨hidle, hstreaming, hreg⟩

/-- No port is free: the stream is claimed and given up again, so it is free for whoever is next. -/
theorem fails_without_trace_where_no_port_is_free :
    let n : Node := ⟨.default, 7, fun _ => default⟩
    let full : PortAllocator → Except IoFault BoundPort × PortAllocator :=
      fun ports => (.error .addressInUse, ports)
    let vacant := fun ports : PortAllocator => (Except.ok BoundPort.system, ports)
    let id := StreamId.derive n.gid "a" 80
    ∃ b h, Bridge.open? n full .new ⟨.empty, .new 0⟩ "a" 80 =
        (.error (.socket .addressInUse), b, h) ∧
      b = .new ∧ h.registry.isRegistered id = false ∧
      openings n 0 (new (.new 0))
        [.opening 0 full "a" 80, .opening 0 vacant "a" 80, .effect 0,
          .opening 0 vacant "a" 80] ≤ 1 := by
  intro n full vacant id
  obtain ⟨b, h, hopen⟩ : ∃ b h, Bridge.open? n full .new ⟨.empty, .new 0⟩ "a" 80 =
      (.error (.socket .addressInUse), b, h) := ⟨_, _, rfl⟩
  obtain ⟨hfails, honce⟩ := fails_without_trace_or_opens_once n
  obtain ⟨-, hfailed⟩ := hfails full .new ⟨.empty, .new 0⟩ "a" 80
  rw [hopen] at hfailed
  obtain ⟨hbridge, -, hfree, -⟩ := hfailed
  exact ⟨b, h, hopen, hbridge, hfree, honce _ _ _⟩

end HostAtWork

end Meshway
