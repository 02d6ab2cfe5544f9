import Meshway.Proofs.Bridge
import Meshway.Proofs.Bridge.Turns
set_option autoImplicit false

/-!
# When the stream of a closed bridge is free (SPEC §4.4, §5)

The task of a bridge does one thing at a time, and anything else on the node may
happen between two of them: other tasks run, and others see the stage of the
bridge.  Main statement: a task that has carried messages gives up its claim on
the stream before others see the bridge closed.  A task whose local connection
was never accepted does so right after; in between, the bridge is closed and its
stream is not free.
-/

namespace Meshway

open Tunnel

/-! ## Claims that are lost -/

namespace Registry

/-- Whether a registration is the one that claims its stream. -/
def Holds (r : Registry) (g : Registration) : Prop := r.streams.get? g.id = some g.generation

instance (r : Registry) (g : Registration) : Decidable (r.Holds g) :=
  inferInstanceAs (Decidable (_ = _))

/-- How a registry changes: generations go up, and a registration that was made does not come to
claim its stream again. -/
structure Evolves (r r' : Registry) : Prop where
  generations_le : r.generations ≤ r'.generations
  holds : ∀ g, g.generation ≤ r.generations → r'.Holds g → r.Holds g

theorem Evolves.refl (r : Registry) : r.Evolves r := ⟨Nat.le_refl _, fun _ _ h => h⟩

theorem Evolves.trans {r r' r'' : Registry} (h : r.Evolves r') (h' : r'.Evolves r'') :
    r.Evolves r'' where
  generations_le := Nat.le_trans h.generations_le h'.generations_le
  holds g hg hholds := h.holds g hg (h'.holds g (Nat.le_trans hg h.generations_le) hholds)

/-- What leaves the claims as they are, or takes one of them away. -/
theorem evolves_of_streams {r r' : Registry} (hgenerations : r'.generations = r.generations)
    (hstreams : r'.streams = r.streams ∨ ∃ id, r'.streams = r.streams.erase id) :
    r.Evolves r' := by
  refine ⟨Nat.le_of_eq hgenerations.symm, fun g _ hholds => ?_⟩
  rcases hstreams with hsame | ⟨id, herase⟩
  · rwa [Holds, hsame] at hholds
  · rw [Holds, herase, Table.get?_erase] at hholds
    split at hholds
    · cases hholds
    · exact hholds

theorem evolves_register {r r' : Registry} {id : StreamId} {g : Registration}
    (h : r.register? id = some (g, r')) : r.Evolves r' := by
  obtain ⟨-, -, rfl⟩ := register?_eq_some h
  refine ⟨Nat.le_succ _, fun g hg hholds => ?_⟩
  simp only [Holds, Table.get?_insert] at hholds
  split at hholds
  · rw [← Option.some.inj hholds] at hg
    exact absurd hg (Nat.not_succ_le_self _)
  · exact hholds

theorem streams_post? {r r' : Registry} {generation : Nat} {e : StreamEvent}
    (h : r.post? generation e = some r') : r'.streams = r.streams := by
  obtain ⟨queue, -, rfl⟩ := Option.map_eq_some_iff.1 h
  rfl

theorem evolves_deliver (r : Registry) (c : Chunk) : r.Evolves (r.deliver c).2 := by
  refine evolves_of_streams (Ledger.generations_deliver r c) ?_
  unfold deliver
  split
  · exact .inl rfl
  · split
    · exact .inl rfl
    · split
      · rename_i hpost
        exact .inl (streams_post? hpost :)
      · exact .inr ⟨_, rfl⟩
    · refine .inr ⟨c.streamId, ?_⟩
      simp only
      cases hpost : post? _ _ StreamEvent.closed with
      | none => rfl
      | some r' => exact streams_post? hpost

theorem evolves_release (r : Registry) (g : Registration) : r.Evolves (r.release g) := by
  refine evolves_of_streams rfl ?_
  simp only [release]
  split
  · exact .inr ⟨_, rfl⟩
  · exact .inl rfl

theorem evolves_receive (r : Registry) (g : Registration) : r.Evolves (r.receive g).2 := by
  refine evolves_of_streams ?_ (.inl ?_) <;> rw [receive_eq] <;> split <;> rfl

/-- A registration that was given up claims nothing. -/
theorem not_holds_release (r : Registry) (g : Registration) : ¬(r.release g).Holds g := by
  simp only [Holds, release]
  split
  · simp [Table.get?_erase]
  · assumption

theorem register?_eq_none_iff_isRegistered (r : Registry) (id : StreamId) :
    r.register? id = none ↔ r.isRegistered id = true := by
  unfold register?
  split
  · rename_i h
    exact ⟨fun _ => h, fun _ => rfl⟩
  · rename_i h
    exact ⟨fun hnone => (by cases hnone), fun hclaimed => absurd hclaimed h⟩

theorem not_isRegistered_of_register? {r r' : Registry} {id : StreamId} {g : Registration}
    (h : r.register? id = some (g, r')) : r.isRegistered id = false := by
  rw [isRegistered, Table.contains, (register?_eq_some h).1]
  rfl

/-- A stream can be claimed unless somebody claims it. -/
theorem register?_eq_none_iff (r : Registry) (id : StreamId) :
    r.register? id = none ↔ ∃ k, r.Holds ⟨id, k⟩ := by
  rw [register?_eq_none_iff_isRegistered]
  exact Option.isSome_iff_exists

end Registry

theorem RegistryOp.evolves_apply (r : Registry) (op : RegistryOp) : r.Evolves (op.apply r) := by
  cases op with
  | register id =>
    simp only [apply]
    cases hreg : r.register? id with
    | none => exact .refl r
    | some p => exact Registry.evolves_register hreg
  | deliver c => exact Registry.evolves_deliver r c
  | drop g => exact Registry.evolves_release r g
  | receive g => exact Registry.evolves_receive r g

namespace Bridge

variable {α : Type} {n : Node} {listen : PortAllocator → Except IoFault α × PortAllocator}
  {b b' : Bridge} {h h' : BridgeHost} {host : String} {port : UInt16} {a : α} {t : Tunnel}

/-- A bridge that opens has not been opened before.  Its registration is a new one. -/
theorem open?_registers (hopen : open? n listen b h host port = (.ok (a, t), b', h')) :
    b.state = .idle ∧ b'.state = .streaming ∧
      h.registry.register? t.registration.id = some (t.registration, h'.registry) := by
  unfold open? at hopen
  split at hopen
  · cases hopen
  · rename_i hidle
    simp only at hopen
    split at hopen
    · cases hopen
    · split at hopen
      · cases hopen
      · rename_i registration registry hreg
        obtain ⟨-, rfl, -⟩ := Registry.register?_eq_some hreg
        split at hopen
        · cases hopen
        · cases hopen
          exact ⟨Decidable.not_not.1 hidle, rfl, hreg⟩

/-- A stream that somebody claims is not opened again. -/
theorem open?_of_claimed (hidle : b.state = .idle) {p : Segmentation.Plan}
    (hplan : Chunk.plan (StreamId.derive n.gid host port) (some ⟨host, port⟩) 0
      n.config.streamPacketBytes.toNat = .ok p)
    (hclaimed : h.registry.register? (StreamId.derive n.gid host port) = none) :
    open? n listen b h host port = (.error (.inUse (StreamId.derive n.gid host port)), b, h) := by
  simp only [open?, hidle, ne_eq, not_true_eq_false, if_false, hplan, hclaimed]

/-- Why a bridge does not open: it is not idle, a packet has no room for the destination, the stream
is claimed, or the system gives no listener.  What is named here first is found first. -/
inductive Fails (n : Node) (listen : PortAllocator → Except IoFault α × PortAllocator) (b : Bridge)
    (h : BridgeHost) (host : String) (port : UInt16) : BridgeFault → Prop where
  | alreadyOpen (hstate : b.state ≠ .idle) : Fails n listen b h host port .alreadyOpen
  | segmentation {fault : Segmentation.Fault} (hidle : b.state = .idle)
      (hplan : Chunk.plan (StreamId.derive n.gid host port) (some ⟨host, port⟩) 0
        n.config.streamPacketBytes.toNat = .error fault) :
      Fails n listen b h host port (.segmentation fault)
  | inUse {p : Segmentation.Plan} (hidle : b.state = .idle)
      (hplan : Chunk.plan (StreamId.derive n.gid host port) (some ⟨host, port⟩) 0
        n.config.streamPacketBytes.toNat = .ok p)
      (hclaimed : h.registry.isRegistered (StreamId.derive n.gid host port) = true) :
      Fails n listen b h host port (.inUse (StreamId.derive n.gid host port))
  | socket {p : Segmentation.Plan} {fault : IoFault} (hidle : b.state = .idle)
      (hplan : Chunk.plan (StreamId.derive n.gid host port) (some ⟨host, port⟩) 0
        n.config.streamPacketBytes.toNat = .ok p)
      (hfree : h.registry.isRegistered (StreamId.derive n.gid host port) = false)
      (hlisten : (listen h.ports).1 = .error fault) :
      Fails n listen b h host port (.socket fault)

/-- Each way to fail, and what it leaves.  Only a failure of the system's comes after the stream was
claimed. -/
theorem open?_error_cases {e : BridgeFault}
    (hopen : open? n listen b h host port = (.error e, b', h')) :
    b' = b ∧ Fails n listen b h host port e ∧
      (h' = h ∨ ∃ fault g registry, e = .socket fault ∧
        h.registry.register? (StreamId.derive n.gid host port) = some (g, registry) ∧
        h' = ⟨registry.release g, (listen h.ports).2⟩) := by
  unfold open? at hopen
  split at hopen
  · rename_i hstate
    cases hopen
    exact ⟨rfl, .alreadyOpen hstate, .inl rfl⟩
  · rename_i hidle
    have hidle := Decidable.not_not.1 hidle
    simp only at hopen
    split at hopen
    · rename_i hplan
      cases hopen
      exact ⟨rfl, .segmentation hidle hplan, .inl rfl⟩
    · rename_i hplan
      split at hopen
      · rename_i hreg
        cases hopen
        have hclaimed := (h.registry.register?_eq_none_iff_isRegistered _).1 hreg
        exact ⟨rfl, .inUse hidle hplan hclaimed, .inl rfl⟩
      · rename_i g registry hreg
        split at hopen
        · rename_i hlisten
          cases hopen
          have hfree := Registry.not_isRegistered_of_register? hreg
          refine ⟨rfl, .socket hidle hplan hfree ?_, .inr ⟨_, g, registry, rfl, hreg, ?_⟩⟩ <;>
            rw [hlisten]
        · cases hopen

/-- A bridge that does not open stays as it is, and claims nothing. -/
theorem open?_eq_error {e : BridgeFault}
    (hopen : open? n listen b h host port = (.error e, b', h')) :
    b' = b ∧ h.registry.Evolves h'.registry := by
  obtain ⟨hbridge, -, rfl | ⟨fault, g, registry, -, hreg, rfl⟩⟩ := open?_error_cases hopen
  · exact ⟨hbridge, .refl _⟩
  · exact ⟨hbridge, (Registry.evolves_register hreg).trans (Registry.evolves_release _ _)⟩

end Bridge

/-! ## The order of effects -/

namespace Tunnel

/-- Whether a task that does these things gives up its claim before others see it closed. -/
def ReleasesFirst : List Effect → Prop
  | [] => True
  | effect :: effects => effect = .release ∨ effect ≠ .become .closed ∧ ReleasesFirst effects

/-- A task that others do not see closed has nothing to give up. -/
theorem releasesFirst_of_notMem {effects : List Effect} (h : .become .closed ∉ effects) :
    ReleasesFirst effects := by
  induction effects with
  | nil => trivial
  | cons effect effects ih =>
    exact .inr ⟨fun heq => h (heq ▸ List.mem_cons_self),
      ih fun hmem => h (List.mem_cons_of_mem _ hmem)⟩

theorem releasesFirst_endLocally (n : Node) (t : Tunnel) : ReleasesFirst (t.endLocally n) := by
  simp [endLocally, wrapUp, ReleasesFirst]

theorem Effect.evolves_registry (r : Registry) (g : Registration) (effect : Effect) :
    r.Evolves (effect.registry r g) := by
  cases effect with
  | release => exact Registry.evolves_release r g
  | become state => exact .refl r
  | send p => exact .refl r
  | write octets => exact .refl r
  | shutdown => exact .refl r

/-- A task that waits for its local connection may give up.  One that carries messages gives up its
claim before others see it closed, which they do at the end of the task. -/
theorem step_effects (n : Node) (t : Tunnel) (e : Event) :
    (ReleasesFirst (t.step n e).2 ∨ t.stage = .accepting ∧ (t.step n e).2 = giveUp) ∧
      .become .idle ∉ (t.step n e).2 ∧
      ((t.step n e).1.stage ≠ .ended → t.stage ≠ .ended ∧ .become .closed ∉ (t.step n e).2) ∧
      (t.stage ≠ .accepting → (t.step n e).1.stage ≠ .accepting) := by
  have hlocally : .become .idle ∉ t.endLocally n := by simp [endLocally, wrapUp]
  -- what is to be shown of the end of a task that carried messages
  have hdone {effects : List Effect} (hrel : ReleasesFirst effects)
      (hidle : .become .idle ∉ effects) :
      (ReleasesFirst effects ∨ t.stage = .accepting ∧ effects = giveUp) ∧
        .become .idle ∉ effects ∧
        (TunnelStage.ended ≠ .ended → t.stage ≠ .ended ∧ .become .closed ∉ effects) ∧
        (t.stage ≠ .accepting → TunnelStage.ended ≠ .accepting) :=
    ⟨.inl hrel, hidle, fun h => absurd rfl h, fun _ h => by cases h⟩
  unfold step
  dsimp only
  split
  case h_2 hstage => simp [hstage, giveUp]
  case h_3 hstage => simp [hstage, giveUp]
  case h_4 hstage =>
    split
    · exact hdone (releasesFirst_endLocally n t) hlocally
    · split
      · exact hdone (releasesFirst_endLocally n t) hlocally
      · rename_i ps _
        have hsend : ∀ state, Effect.become state ∉ ps.map Effect.send := by simp
        exact ⟨.inl (releasesFirst_of_notMem (hsend _)), hsend _,
          fun hne => ⟨hne, hsend _⟩, fun hne => hne⟩
  case h_5 => exact hdone (releasesFirst_endLocally n t) hlocally
  case h_7 => exact hdone (.inr ⟨by simp, releasesFirst_endLocally n t⟩) (by simpa using hlocally)
  case h_8 => exact hdone (by simp [wrapUp, ReleasesFirst]) (by simp [wrapUp])
  all_goals simp_all [ReleasesFirst]

/-! ## What holds of every task -/

/-- What holds of a task, by the registry, the stage of its bridge that others see, and what it is
to do before it waits again. -/
structure Sound (r : Registry) (state : BridgeState) (t : Tunnel) (effects : List Effect) :
    Prop where
  issued : t.registration.generation ≤ r.generations
  /-- a bridge with a task is seen idle only while it is being opened -/
  opened : state = .idle → effects = [.become .streaming]
  not_idle : .become .idle ∉ effects
  alive : t.stage ≠ .ended → state ≠ .closed ∧ .become .closed ∉ effects
  order : r.Holds t.registration → ReleasesFirst effects ∨ effects = giveUp
  /-- a task that claims the stream of a closed bridge is about to give it up -/
  closed : state = .closed → r.Holds t.registration → effects = [.release]

/-- What holds besides of a task whose local connection was accepted. -/
structure Accepted (r : Registry) (state : BridgeState) (t : Tunnel) (effects : List Effect) :
    Prop extends Sound r state t effects where
  accepted : t.stage ≠ .accepting
  released : r.Holds t.registration → state ≠ .closed ∧ ReleasesFirst effects

variable {n : Node} {r r' : Registry} {state : BridgeState} {t : Tunnel} {effect : Effect}
  {effects : List Effect}

theorem Sound.evolve (h : Sound r state t effects) (hr : r.Evolves r') :
    Sound r' state t effects where
  issued := Nat.le_trans h.issued hr.generations_le
  opened := h.opened
  not_idle := h.not_idle
  alive := h.alive
  order hholds := h.order (hr.holds _ h.issued hholds)
  closed hstate hholds := h.closed hstate (hr.holds _ h.issued hholds)

theorem Accepted.evolve (h : Accepted r state t effects) (hr : r.Evolves r') :
    Accepted r' state t effects where
  toSound := h.toSound.evolve hr
  accepted := h.accepted
  released hholds := h.released (hr.holds _ h.issued hholds)

theorem Sound.event (h : Sound r state t []) (e : Event) :
    Sound r state (t.step n e).1 (t.step n e).2 := by
  obtain ⟨horder, hidle, halive, -⟩ := step_effects n t e
  have hregistration := (step_keeps (n := n) (t := t) e).1
  refine ⟨by rw [hregistration]; exact h.issued, fun hstate => ?_, hidle, fun hstage => ?_,
    fun _ => horder.imp_right And.right, fun hstate hholds => ?_⟩
  · cases h.opened hstate
  · obtain ⟨hstage, hclosed⟩ := halive hstage
    exact ⟨(h.alive hstage).1, hclosed⟩
  · rw [hregistration] at hholds
    cases h.closed hstate hholds

theorem Accepted.event (h : Accepted r state t []) (e : Event) :
    Accepted r state (t.step n e).1 (t.step n e).2 := by
  obtain ⟨horder, -, -, haccepted⟩ := step_effects n t e
  refine ⟨h.toSound.event e, haccepted h.accepted, fun hholds => ?_⟩
  rw [(step_keeps (n := n) (t := t) e).1] at hholds
  rcases horder with horder | ⟨hstage, -⟩
  · exact ⟨(h.released hholds).1, horder⟩
  · exact absurd hstage h.accepted

/-- A task that has a claim left after a thing it does did not give it up. -/
theorem Effect.ne_release {g : Registration} (h : (effect.registry r g).Holds g) :
    effect ≠ .release := by
  rintro rfl
  exact Registry.not_holds_release r g h

theorem Sound.perform (h : Sound r state t (effect :: effects)) :
    Sound (effect.registry r t.registration) (effect.state state) t effects where
  issued := Nat.le_trans h.issued (effect.evolves_registry r _).generations_le
  opened hstate := by
    cases effect with
    | become state => exact absurd (hstate ▸ List.mem_cons_self) h.not_idle
    | send p => cases h.opened hstate
    | write octets => cases h.opened hstate
    | release => cases h.opened hstate
    | shutdown => cases h.opened hstate
  not_idle hmem := h.not_idle (List.mem_cons_of_mem _ hmem)
  alive hstage := by
    obtain ⟨hstate, hclosed⟩ := h.alive hstage
    refine ⟨?_, fun hmem => hclosed (List.mem_cons_of_mem _ hmem)⟩
    cases effect with
    | become state => exact fun heq => hclosed (heq ▸ List.mem_cons_self)
    | send p => exact hstate
    | write octets => exact hstate
    | release => exact hstate
    | shutdown => exact hstate
  order hholds := by
    rcases h.order ((effect.evolves_registry r _).holds _ h.issued hholds) with hfirst | hgiveUp
    · exact .inl (hfirst.resolve_left (Effect.ne_release hholds)).2
    · cases hgiveUp
      exact .inl (.inl rfl)
  closed hstate hholds := by
    have hheld := (effect.evolves_registry r _).holds _ h.issued hholds
    cases effect with
    | become state =>
      cases hstate
      rcases h.order hheld with hfirst | hgiveUp
      · exact absurd rfl (hfirst.resolve_left (Effect.ne_release hholds)).1
      · cases hgiveUp
        rfl
    | send p => cases h.closed hstate hheld
    | write octets => cases h.closed hstate hheld
    | release => exact absurd rfl (Effect.ne_release hholds)
    | shutdown => cases h.closed hstate hheld

theorem Accepted.perform (h : Accepted r state t (effect :: effects)) :
    Accepted (effect.registry r t.registration) (effect.state state) t effects where
  toSound := h.toSound.perform
  accepted := h.accepted
  released hholds := by
    obtain ⟨hstate, hfirst⟩ :=
      h.released ((effect.evolves_registry r _).holds _ h.issued hholds)
    obtain ⟨hne, hfirst⟩ := hfirst.resolve_left (Effect.ne_release hholds)
    refine ⟨?_, hfirst⟩
    cases effect with
    | become state => exact fun heq => hne (heq ▸ rfl)
    | send p => exact hstate
    | write octets => exact hstate
    | release => exact hstate
    | shutdown => exact hstate

/-- A task that carries messages had its local connection accepted. -/
theorem Sound.accepted_of_carrying (h : Sound r state t effects) (hstage : t.stage = .carrying) :
    Accepted r state t effects where
  toSound := h
  accepted heq := by cases hstage.symm.trans heq
  released _ := by
    obtain ⟨hstate, hclosed⟩ := h.alive (by rw [hstage]; decide)
    exact ⟨hstate, releasesFirst_of_notMem hclosed⟩

/-- What stands of a sound task whatever comes next. -/
structure Kept (n : Node) (P : Registry → BridgeState → Tunnel → List Effect → Prop) : Prop where
  sound {r : Registry} {state : BridgeState} {t : Tunnel} {effects : List Effect} :
    P r state t effects → Sound r state t effects
  evolve {r r' : Registry} {state : BridgeState} {t : Tunnel} {effects : List Effect} :
    P r state t effects → r.Evolves r' → P r' state t effects
  event {r : Registry} {state : BridgeState} {t : Tunnel} :
    P r state t [] → ∀ e, P r state (t.step n e).1 (t.step n e).2
  perform {r : Registry} {state : BridgeState} {t : Tunnel} {effect : Effect}
    {effects : List Effect} : P r state t (effect :: effects) →
      P (effect.registry r t.registration) (effect.state state) t effects

theorem kept_sound (n : Node) : Kept n Sound := ⟨id, Sound.evolve, Sound.event, Sound.perform⟩

theorem kept_accepted (n : Node) : Kept n Accepted :=
  ⟨Accepted.toSound, Accepted.evolve, Accepted.event, Accepted.perform⟩

end Tunnel

/-! ## Nodes -/

namespace HostAtWork

/-- Whether a bridge was opened and something stands of its task. -/
def Has (s : HostAtWork) (k : Nat) (P : Registry → BridgeState → Tunnel → List Effect → Prop) :
    Prop :=
  ∃ t, (s.bridges k).task = some t ∧
    P s.shared.registry (s.bridges k).bridge.state t (s.bridges k).ahead

variable {n : Node} {s : HostAtWork} {k : Nat}
  {P : Registry → BridgeState → Tunnel → List Effect → Prop}

/-! ### Openings -/

section

variable {listen : PortAllocator → Except IoFault BoundPort × PortAllocator} {b : Bridge}
  {h : BridgeHost} {host : String} {port : UInt16}

/-- A bridge is not opened while it is being opened. -/
theorem step_opening_of_busy (hbusy : (s.bridges k).ahead ≠ []) :
    s.step n (.opening k listen host port) = s := by
  simp only [step, if_pos hbusy]

theorem step_opening_error {e : BridgeFault} (hahead : (s.bridges k).ahead = [])
    (hopen : Bridge.open? n listen (s.bridges k).bridge s.shared host port = (.error e, b, h)) :
    s.step n (.opening k listen host port) = { s with shared := h } := by
  obtain ⟨rfl, -⟩ := Bridge.open?_eq_error hopen
  simp only [step, hahead, ne_eq, not_true_eq_false, if_false, hopen]
  rw [← hahead]
  exact put_self rfl

theorem step_opening_ok {a : BoundPort} {t : Tunnel} (hahead : (s.bridges k).ahead = [])
    (hopen : Bridge.open? n listen (s.bridges k).bridge s.shared host port =
      (.ok (a, t), b, h)) :
    s.step n (.opening k listen host port) =
      { s with shared := h }.put k
        ⟨{ b with state := (s.bridges k).bridge.state }, some t, [.become b.state]⟩ := by
  simp only [step, hahead, ne_eq, not_true_eq_false, if_false, hopen]

/-- The task of a bridge that was just opened is sound. -/
theorem sound_opened {a : BoundPort} {t : Tunnel}
    (hopen : Bridge.open? n listen (s.bridges k).bridge s.shared host port =
      (.ok (a, t), b, h)) :
    Sound h.registry (s.bridges k).bridge.state t [.become b.state] := by
  obtain ⟨hidle, hstreaming, hreg⟩ := Bridge.open?_registers hopen
  obtain ⟨-, hregistration, hregistry⟩ := Registry.register?_eq_some hreg
  rw [hidle, hstreaming]
  exact
    { issued := Nat.le_of_eq (by rw [hregistration, hregistry])
      opened := fun _ => rfl
      not_idle := by simp
      alive := fun _ => by simp
      order := fun _ => .inl (by simp [ReleasesFirst])
      closed := fun hclosed => by cases hclosed }

end

/-! ### What tasks keep -/

/-- What others do is no concern of a task. -/
theorem Has.frame {s' : HostAtWork} (hP : Kept n P) (h : s.Has k P)
    (hbridge : s'.bridges k = s.bridges k) (hr : s.shared.registry.Evolves s'.shared.registry) :
    s'.Has k P := by
  obtain ⟨t, htask, hstands⟩ := h
  rw [Has, hbridge]
  exact ⟨t, htask, hP.evolve hstands hr⟩

theorem has_step (hP : Kept n P) (h : s.Has k P) (turn : Turn) : (s.step n turn).Has k P := by
  obtain ⟨t, htask, hstands⟩ := id h
  cases turn with
  | opening j listen host port =>
    by_cases hahead : (s.bridges j).ahead = []
    · rcases hopen : Bridge.open? n listen (s.bridges j).bridge s.shared host port with
        ⟨e | ⟨a, t'⟩, b, shared⟩
      · rw [step_opening_error hahead hopen]
        exact h.frame hP rfl (Bridge.open?_eq_error hopen).2
      · obtain ⟨hidle, -, hreg⟩ := Bridge.open?_registers hopen
        rw [step_opening_ok hahead hopen]
        refine h.frame hP (put_bridges_of_ne fun hj => ?_) (Registry.evolves_register hreg)
        -- a bridge that was opened is idle only while it is being opened
        subst hj
        cases hahead.symm.trans ((hP.sound hstands).opened hidle)
    · rw [step_opening_of_busy hahead]
      exact h
  | event j e =>
    by_cases hj : k = j
    · subst hj
      cases hahead : (s.bridges k).ahead with
      | nil =>
        rw [step_event htask hahead, Has, put_bridges_self]
        rw [hahead] at hstands
        exact ⟨_, rfl, hP.event hstands e⟩
      | cons effect effects =>
        have hstep : s.step n (.event k e) = s := by simp only [step, htask, hahead]
        rw [hstep]
        exact h
    · simp only [step]
      split
      · exact h.frame hP (put_bridges_of_ne hj) (.refl _)
      · exact h
  | effect j =>
    by_cases hj : k = j
    · subst hj
      cases hahead : (s.bridges k).ahead with
      | nil =>
        have hstep : s.step n (.effect k) = s := by simp only [step, htask, hahead]
        rw [hstep]
        exact h
      | cons effect effects =>
        rw [step_effect htask hahead, Has, put_bridges_self]
        rw [hahead] at hstands
        exact ⟨t, rfl, hP.perform hstands⟩
    · simp only [step]
      split
      · exact h.frame hP (put_bridges_of_ne hj) (Effect.evolves_registry _ _ _)
      · exact h
  | registry op => exact h.frame hP rfl (op.evolves_apply _)

theorem has_run (hP : Kept n P) (h : s.Has k P) (turns : List Turn) : (s.run n turns).Has k P := by
  induction turns generalizing s with
  | nil => exact h
  | cons turn turns ih => exact ih (has_step hP h turn)

/-! ### Every task is sound -/

/-- A bridge that has no task is none of those that have one. -/
theorem task_put_of_some {j : Nat} {t : Tunnel} (hnone : (s.bridges k).task = none)
    (hsome : (s.bridges j).task = some t) (b : BridgeAtWork) :
    ((s.put j b).bridges k).task = none := by
  have hne : k ≠ j := by
    rintro rfl
    cases hnone.symm.trans hsome
  rw [put_bridges_of_ne hne]
  exact hnone

/-- A task comes about where a bridge is opened. -/
theorem sound_of_task (hnone : (s.bridges k).task = none) {turn : Turn}
    (hsome : ((s.step n turn).bridges k).task ≠ none) : (s.step n turn).Has k Sound := by
  cases turn with
  | opening j listen host port =>
    by_cases hahead : (s.bridges j).ahead = []
    · rcases hopen : Bridge.open? n listen (s.bridges j).bridge s.shared host port with
        ⟨e | ⟨a, t⟩, b, shared⟩
      · rw [step_opening_error hahead hopen] at hsome
        exact absurd hnone hsome
      · rw [step_opening_ok hahead hopen] at hsome ⊢
        by_cases hj : k = j
        · subst hj
          rw [Has, put_bridges_self]
          exact ⟨t, rfl, sound_opened hopen⟩
        · rw [put_bridges_of_ne hj] at hsome
          exact absurd hnone hsome
    · rw [step_opening_of_busy hahead] at hsome
      exact absurd hnone hsome
  | event j e =>
    refine absurd ?_ hsome
    simp only [step]
    split
    · rename_i htask _
      exact task_put_of_some hnone htask _
    · exact hnone
  | effect j =>
    refine absurd ?_ hsome
    simp only [step]
    split
    · rename_i htask _
      exact task_put_of_some (s := s.withRegistry _) hnone htask _
    · exact hnone
  | registry op => exact absurd hnone hsome

/-- Every task on a node is sound. -/
theorem sound_run (ports : PortAllocator) (turns : List Turn) (k : Nat)
    (htask : (((new ports).run n turns).bridges k).task ≠ none) :
    ((new ports).run n turns).Has k Sound := by
  -- until it is opened, a bridge has no task
  have hrun : ∀ (turns : List Turn) (s : HostAtWork), (s.bridges k).task = none ∨ s.Has k Sound →
      ((s.run n turns).bridges k).task = none ∨ (s.run n turns).Has k Sound := by
    intro turns
    induction turns with
    | nil => exact fun _ h => h
    | cons turn turns ih =>
      intro s h
      refine ih (s.step n turn) ?_
      rcases h with hnone | hsound
      · by_cases hsome : ((s.step n turn).bridges k).task = none
        · exact .inl hsome
        · exact .inr (sound_of_task hnone hsome)
      · exact .inr (has_step (kept_sound n) hsound turn)
  exact (hrun turns (new ports) (.inl rfl)).resolve_left htask

/-- A node on which a bridge was opened, and others see it streaming. -/
theorem run_opened {listen : PortAllocator → Except IoFault BoundPort × PortAllocator}
    {ports : PortAllocator} {b : Bridge} {h : BridgeHost} {host : String} {port : UInt16}
    {a : BoundPort} {t : Tunnel}
    (hopen : Bridge.open? n listen .new ⟨.empty, ports⟩ host port = (.ok (a, t), b, h))
    (turns : List Turn) :
    (new ports).run n (.opening 0 listen host port :: .effect 0 :: turns) =
      ({ new ports with shared := h }.put 0 ⟨b, some t, []⟩).run n turns := by
  have hstep := step_opening_ok (s := new ports) (k := 0) rfl hopen
  rw [run, List.foldl_cons, hstep, List.foldl_cons, step_effect_put]
  rfl

/-- A bridge that others see closed, after whatever happened on a node.  If its task still claims
the stream, then giving that claim up is the one thing left to do, and is done in the next turn of
the task.  If the task has ever carried messages, it claims nothing any more.  And if the task does
not claim the stream, the stream can be claimed unless somebody else claims it. -/
theorem closed_has_released (n : Node) (ports : PortAllocator) (turns : List Turn) (k : Nat)
    (t : Tunnel) (htask : (((new ports).run n turns).bridges k).task = some t)
    (hclosed : (((new ports).run n turns).bridges k).bridge.state = .closed) :
    let s := (new ports).run n turns
    let r := s.shared.registry
    (r.Holds t.registration → (s.bridges k).ahead = [.release] ∧
        ¬(s.step n (.effect k)).shared.registry.Holds t.registration) ∧
      (∀ earlier later t', turns = earlier ++ later →
        (((new ports).run n earlier).bridges k).task = some t' → t'.stage = .carrying →
          ¬r.Holds t.registration) ∧
      (¬r.Holds t.registration → r.register? t.registration.id = none →
        ∃ generation, generation ≠ t.registration.generation ∧
          r.Holds ⟨t.registration.id, generation⟩) := by
  intro s r
  obtain ⟨t', htask', hsound⟩ : s.Has k Sound := sound_run ports turns k (by simp [htask])
  cases htask.symm.trans htask'
  refine ⟨fun hholds => ?_, fun earlier later t' hturns hearlier hcarrying => ?_,
    fun hreleased hnone => ?_⟩
  · have hahead := hsound.closed hclosed hholds
    refine ⟨hahead, ?_⟩
    rw [step_effect htask hahead]
    exact Registry.not_holds_release r t.registration
  · obtain ⟨t'', htask'', hsound'⟩ :=
      sound_run (n := n) ports earlier k (by rw [hearlier]; exact Option.some_ne_none _)
    cases hearlier.symm.trans htask''
    have haccepted : ((new ports).run n earlier).Has k Accepted :=
      ⟨t', hearlier, hsound'.accepted_of_carrying hcarrying⟩
    have hlater := has_run (kept_accepted n) haccepted later
    rw [← run_append, ← hturns] at hlater
    obtain ⟨t'', htask'', haccepted'⟩ := hlater
    cases htask.symm.trans htask''
    exact fun hholds => (haccepted'.released hholds).1 hclosed
  · obtain ⟨generation, hholds⟩ := (r.register?_eq_none_iff _).1 hnone
    refine ⟨generation, fun heq => hreleased ?_, hholds⟩
    subst heq
    exact hholds

/-- A local connection that was accepted and ends: the bridge is closed, and its stream is free. -/
theorem closed_has_released_after_end :
    let n : Node := ⟨.default, 7, fun _ => default⟩
    let listen := fun ports : PortAllocator => (Except.ok BoundPort.system, ports)
    let turns := [.opening 0 listen "a" 80, .effect 0, .event 0 .accepted,
      .event 0 (.localRead []), .effect 0, .effect 0, .effect 0, .effect 0, .effect 0]
    let s := (new (.new 0)).run n turns
    ∃ t, (s.bridges 0).task = some t ∧ (s.bridges 0).bridge.state = .closed ∧
      ¬s.shared.registry.Holds t.registration := by
  intro n listen turns s
  obtain ⟨h, hopen⟩ : ∃ h, Bridge.open? n listen .new ⟨.empty, .new 0⟩ "a" 80 =
      (.ok (.system, ⟨⟨StreamId.derive n.gid "a" 80, 1⟩, some ⟨"a", 80⟩, .accepting⟩),
        ⟨.streaming, some (StreamId.derive n.gid "a" 80)⟩, h) := ⟨_, rfl⟩
  clear_value n listen
  have hrun := run_opened hopen
  have htask : (s.bridges 0).task =
      some ⟨⟨StreamId.derive n.gid "a" 80, 1⟩, some ⟨"a", 80⟩, .ended⟩ := by
    simp only [s, turns, hrun]
    rfl
  have hclosed : (s.bridges 0).bridge.state = .closed := by
    simp only [s, turns, hrun]
    rfl
  obtain ⟨-, hreleased, -⟩ := closed_has_released n (.new 0) turns 0 _ htask hclosed
  -- it carried messages from the third turn on
  have hcarrying : (((new (.new 0)).run n (turns.take 3)).bridges 0).task =
      some ⟨⟨StreamId.derive n.gid "a" 80, 1⟩, some ⟨"a", 80⟩, .carrying⟩ := by
    simp only [turns, List.take, hrun]
    rfl
  exact ⟨_, htask, hclosed, hreleased (turns.take 3) (turns.drop 3) _ rfl hcarrying rfl⟩

/-- Nobody connects in time: the bridge is closed, and its stream is not free until the task has
given up its claim. -/
theorem closed_before_released :
    let n : Node := ⟨.default, 7, fun _ => default⟩
    let listen := fun ports : PortAllocator => (Except.ok BoundPort.system, ports)
    let s := (new (.new 0)).run n
      [.opening 0 listen "a" 80, .effect 0, .event 0 .acceptTimedOut, .effect 0]
    ∃ t, (s.bridges 0).task = some t ∧ (s.bridges 0).bridge.state = .closed ∧
      s.shared.registry.Holds t.registration ∧
      s.shared.registry.register? t.registration.id = none ∧
      (Bridge.open? n listen (s.bridges 1).bridge s.shared "a" 80).1 =
        .error (.inUse t.registration.id) := by
  intro n listen s
  obtain ⟨h, hopen⟩ : ∃ h, Bridge.open? n listen .new ⟨.empty, .new 0⟩ "a" 80 =
      (.ok (.system, ⟨⟨StreamId.derive n.gid "a" 80, 1⟩, some ⟨"a", 80⟩, .accepting⟩),
        ⟨.streaming, some (StreamId.derive n.gid "a" 80)⟩, h) := ⟨_, rfl⟩
  obtain ⟨-, -, -, p, hplan⟩ := Bridge.open?_eq_ok hopen
  obtain ⟨-, -, hreg⟩ := Bridge.open?_registers hopen
  clear_value n listen
  have hshared : s.shared = h := by
    simp only [s, run_opened hopen]
    rfl
  have htask : (s.bridges 0).task =
      some ⟨⟨StreamId.derive n.gid "a" 80, 1⟩, some ⟨"a", 80⟩, .ended⟩ := by
    simp only [s, run_opened hopen]
    rfl
  have hclosed : (s.bridges 0).bridge.state = .closed := by
    simp only [s, run_opened hopen]
    rfl
  have hholds : h.registry.Holds ⟨StreamId.derive n.gid "a" 80, 1⟩ := by
    obtain ⟨-, -, hregistry⟩ := Registry.register?_eq_some hreg
    rw [Registry.Holds, hregistry, Table.get?_insert, if_pos rfl]
    rfl
  have hclaimed : h.registry.register? (StreamId.derive n.gid "a" 80) = none :=
    (Registry.register?_eq_none_iff _ _).2 ⟨1, hholds⟩
  refine ⟨_, htask, hclosed, ?_⟩
  have hnew : (s.bridges 1).bridge = .new := by
    simp only [s, run_opened hopen]
    rfl
  rw [hshared, hnew, Bridge.open?_of_claimed rfl hplan hclaimed]
  exact ⟨hholds, hclaimed, rfl⟩

/-- On a site, tasks do all that they have to do before anything else happens.  There, a bridge that
is closed claims nothing, however it came to be closed. -/
theorem released_of_inUse {node : Node} {network : LocalNetwork} {s : Site}
    (h : Site.InUse node network s) {k : Nat} {t : Tunnel} (htask : (s.localEnd k).task = some t)
    (hclosed : (s.localEnd k).bridge.state = .closed) :
    ¬s.dispatcher.registry.Holds t.registration := by
  obtain ⟨turns, hrun⟩ := h.exists_run
  have hsome : (s.atWork.bridges k).task = some t := htask
  rw [← hrun] at hsome
  obtain ⟨t', htask', hsound⟩ :=
    sound_run (n := node) _ turns k (by rw [hsome]; exact Option.some_ne_none t)
  cases hsome.symm.trans htask'
  rw [hrun] at hsound
  intro hholds
  cases hsound.closed hclosed hholds

end HostAtWork

end Meshway
