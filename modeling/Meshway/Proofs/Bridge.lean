import Meshway.Bridge
import Meshway.Proofs.Stream.Refinement
import Meshway.Proofs.Stream.Transfer
set_option autoImplicit false

/-!
# What a bridge sends and what it writes (SPEC §4.4, §10.3 item 6)

Once its local connection was accepted, the task of a bridge takes local reads
and events of its registration in any order until one of the two sides ends the
session.  Main statement: the packets it sends hold the local reads, cut into
chunks, with the destination on the very first one, and after them the end of
the stream just when the session ended on this side; what it writes is a
beginning of the messages that arrived.
-/

namespace Meshway

namespace Tunnel

/-! ## Runs -/

/-- What events one after the other make of the task, and all that the task does. -/
def run (n : Node) : Tunnel → List Event → Tunnel × List Effect
  | t, [] => (t, [])
  | t, e :: events =>
    let (t, effects) := t.step n e
    let (t, later) := run n t events
    (t, effects ++ later)

/-- The packet that is handed to the radio, if one is. -/
def Effect.sent? : Effect → Option Outbound
  | .send p => some p
  | _ => none

/-- The octets that are written to the local connection. -/
def Effect.written : Effect → Bytes
  | .write octets => octets
  | _ => []

/-- The octets of the message that arrived, if one did. -/
def Event.data : Event → Bytes
  | .message octets => octets
  | .messageFailed octets _ => octets
  | _ => []

/-- The packets that are handed to the radio. -/
def sent (effects : List Effect) : List Outbound := effects.filterMap Effect.sent?

/-- All that is written to the local connection. -/
def written (effects : List Effect) : Bytes := effects.flatMap Effect.written

variable {n : Node} {t : Tunnel}

theorem run_cons (e : Event) (events : List Event) :
    t.run n (e :: events) =
      (((t.step n e).1.run n events).1, (t.step n e).2 ++ ((t.step n e).1.run n events).2) := rfl

theorem sent_append (effects later : List Effect) :
    sent (effects ++ later) = sent effects ++ sent later := List.filterMap_append

theorem written_append (effects later : List Effect) :
    written (effects ++ later) = written effects ++ written later := List.flatMap_append

theorem sent_send (ps : List Outbound) : sent (ps.map .send) = ps := by
  induction ps with
  | nil => rfl
  | cons p ps ih => exact congrArg (p :: ·) ih

theorem written_send (ps : List Outbound) : written (ps.map .send) = [] := by
  induction ps with
  | nil => rfl
  | cons p ps ih => exact ih

/-- A task that is done does nothing. -/
theorem run_ended (h : t.stage = .ended) (events : List Event) : t.run n events = (t, []) := by
  induction events with
  | nil => rfl
  | cons e events ih =>
    have hstep : t.step n e = (t, []) := by
      unfold step
      rw [h]
    rw [run_cons, hstep, ih]
    rfl

/-- A task keeps its registration, and its destination until that was named. -/
theorem step_keeps (e : Event) :
    (t.step n e).1.registration = t.registration ∧
      ((t.step n e).1.destination = t.destination ∨ (t.step n e).1.destination = none) := by
  unfold step
  dsimp only
  split
  case h_4 =>
    split
    · exact ⟨rfl, .inl rfl⟩
    · split
      · exact ⟨rfl, .inl rfl⟩
      · exact ⟨rfl, .inr rfl⟩
  all_goals exact ⟨rfl, .inl rfl⟩

theorem run_keeps (events : List Event) :
    (t.run n events).1.registration = t.registration ∧
      ((t.run n events).1.destination = t.destination ∨
        (t.run n events).1.destination = none) := by
  induction events generalizing t with
  | nil => exact ⟨rfl, .inl rfl⟩
  | cons e events ih =>
    obtain ⟨hregistration, hdestination⟩ := step_keeps (n := n) (t := t) e
    obtain ⟨hregistration', hdestination'⟩ := ih (t := (t.step n e).1)
    rw [run_cons]
    refine ⟨hregistration'.trans hregistration, ?_⟩
    rcases hdestination' with hsame | hnone
    · rw [hsame]
      exact hdestination
    · exact .inr hnone

/-! ## Sessions -/

/-- The side that ends a session. -/
inductive Ended where
  | here
  | there
  deriving DecidableEq, Repr, Inhabited

/-- A session of the stream `id` to a destination that the next message names, if it has not been
named.  The events lead to the given local reads being cut into the given chunks, and to an end by
the given side, unless the session goes on. -/
inductive Session (n : Node) (id : StreamId) :
    Option Destination → List Event → List Bytes → List Chunk → Option Ended → Prop where
  | carrying {destination : Option Destination} : Session n id destination [] [] [] none
  | read {destination : Option Destination} {events : List Event} {reads : List Bytes}
      {chunks cs : List Chunk} {side : Option Ended} {octets : Bytes} (hne : octets ≠ [])
      (hcut : Chunk.segments id destination octets n.config.streamPacketBytes.toNat = .ok cs) :
      Session n id none events reads chunks side →
      Session n id destination (.localRead octets :: events) (octets :: reads) (cs ++ chunks) side
  | message {destination : Option Destination} {events : List Event} {reads : List Bytes}
      {chunks : List Chunk} {side : Option Ended} {octets : Bytes} :
      Session n id destination events reads chunks side →
      Session n id destination (.message octets :: events) reads chunks side
  /-- what happens to the listener no longer matters -/
  | listener {destination : Option Destination} {e : Event} {events : List Event}
      {reads : List Bytes} {chunks : List Chunk} {side : Option Ended}
      (he : e ∈ [Event.accepted, .acceptFailed, .acceptTimedOut]) :
      Session n id destination events reads chunks side →
      Session n id destination (e :: events) reads chunks side
  /-- the local connection has ended -/
  | finished {destination : Option Destination} {events : List Event} :
      Session n id destination (.localRead [] :: events) [] [] (some .here)
  | readFailed {destination : Option Destination} {events : List Event} :
      Session n id destination (.localReadFailed :: events) [] [] (some .here)
  | writeFailed {destination : Option Destination} {events : List Event} {octets part : Bytes} :
      Session n id destination (.messageFailed octets part :: events) [] [] (some .here)
  /-- what was read cannot be cut into chunks -/
  | uncut {destination : Option Destination} {events : List Event} {octets : Bytes}
      {fault : Segmentation.Fault} (hne : octets ≠ [])
      (hfault : Chunk.segments id destination octets n.config.streamPacketBytes.toNat =
        .error fault) :
      Session n id destination (.localRead octets :: events) [] [] (some .here)
  | remoteClosed {destination : Option Destination} {events : List Event} :
      Session n id destination (.remoteClosed :: events) [] [] (some .there)

/-- The chunks that are sent in a session: those of the messages, and the end of the stream if this
side ends it. -/
def outgoing (id : StreamId) (chunks : List Chunk) (side : Option Ended) : List Chunk :=
  chunks ++ if side = some .here then [.close id] else []

theorem outgoing_append (id : StreamId) (cs chunks : List Chunk) (side : Option Ended) :
    outgoing id (cs ++ chunks) side = cs ++ outgoing id chunks side := List.append_assoc _ _ _

/-- The packet of a chunk for the gateway. -/
def packet (n : Node) (c : Chunk) : Outbound := n.packet n.config.gatewayGid (.chunk c)

/-- A session that this side ends right away: nothing but the end of the stream is sent. -/
theorem sent_run_endLocally {e : Event} {before : List Effect} {events : List Event}
    (hstep : t.step n e = ({ t with stage := .ended }, before ++ t.endLocally n))
    (hbefore : sent before = []) :
    sent (t.run n (e :: events)).2 =
      (outgoing t.registration.id [] (some .here)).map (packet n) := by
  rw [run_cons, hstep, run_ended rfl]
  simp only [List.append_nil]
  rw [sent_append, hbefore]
  rfl

/-- The task carries out a session, and sends what is sent in it. -/
theorem session_run (h : t.stage = .carrying) (events : List Event) :
    ∃ reads chunks side,
      Session n t.registration.id t.destination events reads chunks side ∧
        sent (t.run n events).2 = (outgoing t.registration.id chunks side).map (packet n) := by
  induction events generalizing t with
  | nil => exact ⟨[], [], none, .carrying, rfl⟩
  | cons e events ih =>
    have hignored (he : e ∈ [Event.accepted, .acceptFailed, .acceptTimedOut])
        (hstep : t.step n e = (t, [])) : ∃ reads chunks side,
        Session n t.registration.id t.destination (e :: events) reads chunks side ∧
          sent (t.run n (e :: events)).2 =
            (outgoing t.registration.id chunks side).map (packet n) := by
      obtain ⟨reads, chunks, side, hsession, hsent⟩ := ih h
      refine ⟨reads, chunks, side, .listener he hsession, ?_⟩
      rw [run_cons, hstep]
      exact hsent
    cases e with
    | accepted => exact hignored (by decide) (by simp [step, h])
    | acceptFailed => exact hignored (by decide) (by simp [step, h])
    | acceptTimedOut => exact hignored (by decide) (by simp [step, h])
    | localRead octets =>
      by_cases hne : octets = []
      · subst hne
        have hstep : t.step n (.localRead []) =
            ({ t with stage := .ended }, [] ++ t.endLocally n) := by simp [step, h]
        exact ⟨[], [], some .here, .finished, sent_run_endLocally hstep rfl⟩
      · cases hcut : Chunk.segments t.registration.id t.destination octets
            n.config.streamPacketBytes.toNat with
        | error fault =>
          have hstep : t.step n (.localRead octets) =
              ({ t with stage := .ended }, [] ++ t.endLocally n) := by
            simp [step, h, hne, packets, hcut]
          exact ⟨[], [], some .here, .uncut hne hcut, sent_run_endLocally hstep rfl⟩
        | ok cs =>
          have hstep : t.step n (.localRead octets) =
              ({ t with destination := none }, (cs.map (packet n)).map .send) := by
            simp only [step, h, hne, packets, hcut, if_false]
            rfl
          -- the destination has been named, and the rest of the session does without it
          have hnext : ({ t with destination := none } : Tunnel).stage = .carrying := h
          obtain ⟨reads, chunks, side, hsession, hsent⟩ := ih hnext
          refine ⟨octets :: reads, cs ++ chunks, side, .read hne hcut hsession, ?_⟩
          rw [run_cons, hstep, sent_append, sent_send, hsent, outgoing_append, List.map_append]
    | localReadFailed =>
      have hstep : t.step n .localReadFailed =
          ({ t with stage := .ended }, [] ++ t.endLocally n) := by simp [step, h]
      exact ⟨[], [], some .here, .readFailed, sent_run_endLocally hstep rfl⟩
    | message octets =>
      have hstep : t.step n (.message octets) = (t, [.write octets]) := by simp [step, h]
      obtain ⟨reads, chunks, side, hsession, hsent⟩ := ih h
      refine ⟨reads, chunks, side, .message hsession, ?_⟩
      rw [run_cons, hstep]
      exact hsent
    | messageFailed octets part =>
      have hstep : t.step n (.messageFailed octets part) =
          ({ t with stage := .ended }, [.write part] ++ t.endLocally n) := by simp [step, h]
      exact ⟨[], [], some .here, .writeFailed, sent_run_endLocally hstep rfl⟩
    | remoteClosed =>
      -- the one end that is not answered with a chunk
      have hstep : t.step n .remoteClosed =
          ({ t with stage := .ended }, .become .closing :: wrapUp) := by simp [step, h]
      refine ⟨[], [], some .there, .remoteClosed, ?_⟩
      rw [run_cons, hstep, run_ended rfl]
      rfl

namespace Session

variable {id : StreamId} {destination : Option Destination} {events : List Event}
  {reads : List Bytes} {chunks : List Chunk} {side : Option Ended}

/-- The events tell all about a session. -/
theorem unique (h : Session n id destination events reads chunks side) {reads' : List Bytes}
    {chunks' : List Chunk} {side' : Option Ended}
    (h' : Session n id destination events reads' chunks' side') :
    reads = reads' ∧ chunks = chunks' ∧ side = side' := by
  induction h generalizing reads' chunks' side' with
  | read hne hcut _ ih =>
    cases h' with
    | read _ hcut' hrest =>
      cases hcut.symm.trans hcut'
      obtain ⟨rfl, rfl, rfl⟩ := ih hrest
      exact ⟨rfl, rfl, rfl⟩
    | listener he _ => simp at he
    | finished => exact absurd rfl hne
    | uncut _ hfault => cases hcut.symm.trans hfault
  | message _ ih =>
    cases h' with
    | message hrest => exact ih hrest
    | listener he _ => simp at he
  | listener he _ ih =>
    cases h' with
    | listener _ hrest => exact ih hrest
    | read _ _ _ => simp at he
    | message _ => simp at he
    | finished => simp at he
    | readFailed => simp at he
    | writeFailed => simp at he
    | uncut _ _ => simp at he
    | remoteClosed => simp at he
  | uncut hne hfault =>
    cases h' with
    | read _ hcut _ => cases hcut.symm.trans hfault
    | listener he _ => simp at he
    | finished => exact absurd rfl hne
    | uncut _ _ => exact ⟨rfl, rfl, rfl⟩
  | carrying => cases h'; exact ⟨rfl, rfl, rfl⟩
  | finished =>
    cases h' with
    | finished => exact ⟨rfl, rfl, rfl⟩
    | read hne _ _ => exact absurd rfl hne
    | listener he _ => simp at he
    | uncut hne _ => exact absurd rfl hne
  | readFailed =>
    cases h' with
    | readFailed => exact ⟨rfl, rfl, rfl⟩
    | listener he _ => simp at he
  | writeFailed =>
    cases h' with
    | writeFailed => exact ⟨rfl, rfl, rfl⟩
    | listener he _ => simp at he
  | remoteClosed =>
    cases h' with
    | remoteClosed => exact ⟨rfl, rfl, rfl⟩
    | listener he _ => simp at he

/-- Every chunk belongs to a message that is not empty. -/
theorem exists_segments_of_mem (h : Session n id destination events reads chunks side) {c : Chunk}
    (hc : c ∈ chunks) : ∃ destination octets cs, octets ≠ [] ∧
      Chunk.segments id destination octets n.config.streamPacketBytes.toNat = .ok cs ∧ c ∈ cs := by
  induction h with
  | read hne hcut _ ih =>
    rcases List.mem_append.1 hc with hc | hc
    · exact ⟨_, _, _, hne, hcut, hc⟩
    · exact ih hc
  | message _ ih => exact ih hc
  | listener _ _ ih => exact ih hc
  | carrying => cases hc
  | finished => cases hc
  | readFailed => cases hc
  | writeFailed => cases hc
  | uncut _ _ => cases hc
  | remoteClosed => cases hc

/-- The reads come out where the chunks are joined, and nothing is left over. -/
theorem joinAll_chunks (h : Session n id destination events reads chunks side) :
    (Chunk.joinAll [] chunks).1.filter (· ≠ .pending) = reads.map .complete ∧
      (Chunk.joinAll [] chunks).2 = [] := by
  induction h with
  | read hne hcut _ ih =>
    obtain ⟨hreads, hheld⟩ := ih
    have hpending : ∀ k : Nat, (List.replicate k Joined.pending).filter (· ≠ .pending) = [] := by
      intro k
      rw [List.filter_eq_nil_iff]
      intro j hj
      simp [List.eq_of_mem_replicate hj]
    rw [Chunk.joinAll_append, Chunk.joinAll_segments hcut hne]
    refine ⟨?_, hheld⟩
    simp only [List.filter_append]
    rw [hreads, hpending]
    rfl
  | message _ ih => exact ih
  | listener _ _ ih => exact ih
  | carrying => exact ⟨rfl, rfl⟩
  | finished => exact ⟨rfl, rfl⟩
  | readFailed => exact ⟨rfl, rfl⟩
  | writeFailed => exact ⟨rfl, rfl⟩
  | uncut _ _ => exact ⟨rfl, rfl⟩
  | remoteClosed => exact ⟨rfl, rfl⟩

/-- Only the first chunk of all names the destination. -/
theorem destinations_chunks (h : Session n id destination events reads chunks side) :
    (reads = [] → chunks = []) ∧ (reads ≠ [] → chunks.map (·.destination) =
      destination :: List.replicate (chunks.length - 1) none) := by
  induction h with
  | @read destination events reads chunks cs side octets hne hcut _ ih =>
    obtain ⟨hnone, hsome⟩ := ih
    refine ⟨fun hnil => absurd hnil (List.cons_ne_nil _ _), fun _ => ?_⟩
    have hfirst := Chunk.destinations_segments hcut
    have hlen : cs.length = cs.length - 1 + 1 := by
      have := congrArg List.length hfirst
      simpa using this
    have hrest : chunks.map (·.destination) = List.replicate chunks.length none := by
      by_cases hreads : reads = []
      · rw [hnone hreads]
        rfl
      · have hsome := hsome hreads
        have hlen' : chunks.length = chunks.length - 1 + 1 := by
          have := congrArg List.length hsome
          simpa using this
        rw [hsome, ← List.replicate_succ, ← hlen']
    rw [List.map_append, hfirst, hrest, List.cons_append, List.replicate_append_replicate,
      List.length_append]
    congr 2
    omega
  | message _ ih => exact ih
  | listener _ _ ih => exact ih
  | carrying => exact ⟨fun _ => rfl, fun hne => absurd rfl hne⟩
  | finished => exact ⟨fun _ => rfl, fun hne => absurd rfl hne⟩
  | readFailed => exact ⟨fun _ => rfl, fun hne => absurd rfl hne⟩
  | writeFailed => exact ⟨fun _ => rfl, fun hne => absurd rfl hne⟩
  | uncut _ _ => exact ⟨fun _ => rfl, fun hne => absurd rfl hne⟩
  | remoteClosed => exact ⟨fun _ => rfl, fun hne => absurd rfl hne⟩

/-- The end of the stream, if it is sent, changes nothing for the chunks before it. -/
theorem joinAll_outgoing (h : Session n id destination events reads chunks side) :
    (Chunk.joinAll [] (outgoing id chunks side)).1.filter (· ≠ .pending) =
      reads.map .complete ++ if side = some .here then [.closed] else [] := by
  obtain ⟨hreads, hheld⟩ := h.joinAll_chunks
  have hclose : (Chunk.joinAll [] [Chunk.close id]).1 = [.closed] := rfl
  rw [outgoing, Chunk.joinAll_append, List.filter_append, hreads, hheld]
  congr 1
  split
  · rw [hclose]
    rfl
  · rfl

theorem destinations_outgoing (h : Session n id destination events reads chunks side) :
    (reads = [] → ∀ c ∈ outgoing id chunks side, c.destination = none) ∧
      (reads ≠ [] → (outgoing id chunks side).map (·.destination) =
        destination :: List.replicate ((outgoing id chunks side).length - 1) none) := by
  obtain ⟨hnone, hsome⟩ := h.destinations_chunks
  have hclose : ∀ c ∈ (if side = some Ended.here then [Chunk.close id] else []),
      c.destination = none := by
    intro c hc
    split at hc
    · rw [List.mem_singleton.1 hc]
      rfl
    · cases hc
  constructor
  · intro hreads
    rw [outgoing, hnone hreads]
    exact hclose
  · intro hreads
    have hlen := congrArg List.length (hsome hreads)
    have hrest := List.eq_replicate_iff.2 ⟨rfl, List.forall_mem_map.2 hclose⟩
    rw [List.length_map] at hrest
    simp only [List.length_map, List.length_cons, List.length_replicate] at hlen
    rw [outgoing, List.map_append, hsome hreads, hrest, List.cons_append,
      List.replicate_append_replicate, List.length_append]
    congr 2
    omega

end Session

/-- An event either leaves the task carrying messages, and then the message that arrived is written,
or ends it, and then at most a beginning of the message. -/
theorem step_written (h : t.stage = .carrying) {e : Event}
    (hpart : ∀ octets part, e = .messageFailed octets part → part <+: octets) :
    (t.step n e).1.stage = .carrying ∧ written (t.step n e).2 = e.data ∨
      (t.step n e).1.stage = .ended ∧ written (t.step n e).2 <+: e.data := by
  cases e with
  | accepted => exact .inl (by simp [step, h, written, Event.data])
  | acceptFailed => exact .inl (by simp [step, h, written, Event.data])
  | acceptTimedOut => exact .inl (by simp [step, h, written, Event.data])
  | localRead octets =>
    by_cases hne : octets = []
    · exact .inr (by simp [step, h, hne, written, Effect.written, endLocally, wrapUp])
    · cases hpackets : t.packets n octets with
      | error fault =>
        exact .inr (by simp [step, h, hne, hpackets, written, Effect.written, endLocally, wrapUp])
      | ok ps =>
        have hsend := written_send ps
        exact .inl (by simpa [step, h, hne, hpackets, Event.data] using hsend)
  | localReadFailed => exact .inr (by simp [step, h, written, Effect.written, endLocally, wrapUp])
  | message octets =>
    exact .inl (by simp [step, h, written, Effect.written, Event.data])
  | messageFailed octets part =>
    have hprefix := hpart octets part rfl
    exact .inr (by
      simpa [step, h, written, Effect.written, endLocally, wrapUp, Event.data] using hprefix)
  | remoteClosed => exact .inr (by simp [step, h, written, Effect.written, wrapUp])

/-- What is written is a beginning of the messages that arrived, as long as what is written of a
single message is a beginning of it. -/
theorem written_run_prefix (h : t.stage = .carrying) {events : List Event}
    (hpart : ∀ octets part, Event.messageFailed octets part ∈ events → part <+: octets) :
    written (t.run n events).2 <+: events.flatMap Event.data := by
  induction events generalizing t with
  | nil => exact List.nil_prefix
  | cons e events ih =>
    have hrest : ∀ octets part, Event.messageFailed octets part ∈ events → part <+: octets :=
      fun octets part hmem => hpart octets part (List.mem_cons_of_mem _ hmem)
    have hfirst : ∀ octets part, e = .messageFailed octets part → part <+: octets :=
      fun octets part he => hpart octets part (he ▸ List.mem_cons_self)
    rw [run_cons, written_append, List.flatMap_cons]
    -- once the task has ended, nothing more is written, whatever else arrives
    rcases step_written (n := n) h hfirst with ⟨hstage, hwritten⟩ | ⟨hstage, hwritten⟩
    · rw [hwritten]
      exact (List.prefix_append_right_inj _).2 (ih hstage hrest)
    · rw [run_ended hstage, show written [] = [] from rfl, List.append_nil]
      exact hwritten.trans (List.prefix_append _ _)

end Tunnel

namespace Bridge

open Tunnel

variable {α : Type} {n : Node} {listen : PortAllocator → Except IoFault α × PortAllocator}
  {b b' : Bridge} {h h' : BridgeHost} {host : String} {port : UInt16} {a : α} {t : Tunnel}

/-- The task of a bridge that opens, for which a packet has room for the destination and more. -/
theorem open?_eq_ok (hopen : open? n listen b h host port = (.ok (a, t), b', h')) :
    t.registration.id = StreamId.derive n.gid host port ∧ t.destination = some ⟨host, port⟩ ∧
      t.stage = .accepting ∧
      ∃ p, Chunk.plan (StreamId.derive n.gid host port) (some ⟨host, port⟩) 0
        n.config.streamPacketBytes.toNat = .ok p := by
  unfold open? at hopen
  split at hopen
  · cases hopen
  · simp only at hopen
    split at hopen
    · cases hopen
    · rename_i p hplan
      split at hopen
      · cases hopen
      · rename_i registration registry hreg
        obtain ⟨-, rfl, -⟩ := Registry.register?_eq_some hreg
        split at hopen
        · cases hopen
        · cases hopen
          exact ⟨rfl, rfl, rfl, p, hplan⟩

/-- Every chunk of a session can be read from its packet, which is no larger than the bridge is set
up for. -/
theorem fits_of_mem_outgoing {id : StreamId} {d : Destination} {p : Segmentation.Plan}
    (hplan : Chunk.plan id (some d) 0 n.config.streamPacketBytes.toNat = .ok p)
    {events : List Event} {reads : List Bytes} {chunks : List Chunk} {side : Option Ended}
    (hsession : Session n id (some d) events reads chunks side) {c : Chunk}
    (hc : c ∈ outgoing id chunks side) :
    c.streamId = id ∧ Payload.decode (Payload.encode (.chunk c)) = .ok (.chunk c) ∧
      (Payload.encode (.chunk c)).length ≤ n.config.streamPacketBytes.toNat := by
  rcases List.mem_append.1 hc with hc | hc
  · obtain ⟨destination, octets, cs, -, hcut, hmem⟩ := hsession.exists_segments_of_mem hc
    exact ⟨Chunk.streamId_of_mem_segments hcut hmem, Chunk.decode_encode_of_mem_segments hcut hmem,
      Chunk.length_encode_of_mem_segments hcut hmem⟩
  · split at hc
    · obtain ⟨-, -, hroom⟩ := Chunk.plan_eq_ok hplan
      rw [List.mem_singleton.1 hc]
      exact ⟨rfl, Chunk.decode_encode_close id, Chunk.length_encode_close_le hroom⟩
    · cases hc

/-- A bridge was opened and its local connection accepted; local reads and events of the
registration are taken in any order.  Then there is a session: some reads are cut into chunks, and a
side may end it.  All packets go to the gateway, no larger than the bridge is set up for, and hold
chunks of its stream.  Joined afresh they give the reads, in order; only the very first of them
names the destination.  One more chunk, the last, ends the stream if this side ended the session,
and no chunk does otherwise.  What is written is a beginning of the messages that arrived. -/
theorem sends_reads_and_writes_messages
    (hopen : open? n listen b h host port = (.ok (a, t), b', h')) (events : List Event)
    (hpart : ∀ octets part, Event.messageFailed octets part ∈ events → part <+: octets) :
    let id := StreamId.derive n.gid host port
    let effects := (t.run n (.accepted :: events)).2
    ∃ (reads : List Bytes) (chunks : List Chunk) (side : Option Ended),
      let all := chunks ++ if side = some .here then [.close id] else []
      Session n id (some ⟨host, port⟩) events reads chunks side ∧
        sent effects = all.map (fun c => n.packet n.config.gatewayGid (.chunk c)) ∧
        (∀ c ∈ all, c.streamId = id ∧
          Payload.decode (Payload.encode (.chunk c)) = .ok (.chunk c) ∧
          (Payload.encode (.chunk c)).length ≤ n.config.streamPacketBytes.toNat) ∧
        (Reassembler.empty.outcomesOf id all).filter (· ≠ .pending) =
          reads.map .complete ++ (if side = some .here then [.closed] else []) ∧
        (∀ c ∈ chunks, c.isClose = false) ∧
        (reads = [] → ∀ c ∈ all, c.destination = none) ∧
        (reads ≠ [] → all.map (·.destination) =
          some ⟨host, port⟩ :: List.replicate (all.length - 1) none) ∧
        written effects <+: events.flatMap Event.data := by
  intro id effects
  obtain ⟨hid, hdestination, hstage, p, hplan⟩ := open?_eq_ok hopen
  have hstep : t.step n .accepted = ({ t with stage := .carrying }, []) := by simp [step, hstage]
  have heffects : effects = (({ t with stage := .carrying } : Tunnel).run n events).2 := by
    simp only [effects, run_cons, hstep]
    rfl
  obtain ⟨reads, chunks, side, hsession, hsent⟩ :=
    session_run (n := n) (t := { t with stage := .carrying }) rfl events
  have hwritten := written_run_prefix (n := n) (t := { t with stage := .carrying }) rfl hpart
  rw [← heffects] at hsent hwritten
  simp only [hid, hdestination] at hsession hsent
  have hfits := fun c hc => fits_of_mem_outgoing (c := c) hplan hsession hc
  obtain ⟨hnone, hsome⟩ := hsession.destinations_outgoing
  refine ⟨reads, chunks, side, hsession, hsent, hfits, ?_, ?_, hnone, hsome, hwritten⟩
  · have hfilter : (outgoing id chunks side).filter (fun c => c.streamId = id) =
        outgoing id chunks side :=
      List.filter_eq_self.2 fun c hc => decide_eq_true (hfits c hc).1
    have hjoined := hsession.joinAll_outgoing
    rw [← hfilter, ← Reassembler.held_empty id, ← Reassembler.outcomesOf_eq] at hjoined
    exact hjoined
  · intro c hc
    obtain ⟨destination, octets, cs, hne, hcut, hmem⟩ := hsession.exists_segments_of_mem hc
    exact Chunk.not_isClose_of_mem_segments hcut hne hmem

/-- A session with one read, whose chunks take two packets, and one message, of which only a part is
written.  The end of the stream follows, and nothing that comes later matters. -/
theorem sends_read_and_writes_part :
    ∃ (n : Node) (t : Tunnel) (b' : Bridge) (h' : BridgeHost) (chunks : List Chunk),
      let events := [Event.localRead (List.replicate 20 7), .messageFailed [1, 2, 3] [1, 2],
        .localRead [8]]
      let effects := (t.run n (.accepted :: events)).2
      open? n (fun ports => (.ok (), ports)) .new ⟨.empty, .new 0⟩ "a" 80 = (.ok ((), t), b', h') ∧
        chunks.length = 3 ∧
        sent effects = chunks.map (fun c => n.packet n.config.gatewayGid (.chunk c)) ∧
        (Reassembler.empty.outcomesOf (StreamId.derive n.gid "a" 80) chunks).filter (· ≠ .pending) =
          [.complete (List.replicate 20 7), .closed] ∧
        written effects <+: events.flatMap Event.data := by
  let n : Node := ⟨{ MeshConfig.default with streamPacketBytes := 40 }, 7, fun _ => default⟩
  let t : Tunnel := ⟨⟨StreamId.derive 7 "a" 80, 1⟩, some ⟨"a", 80⟩, .accepting⟩
  have hopen : open? n (fun ports => (.ok (), ports)) .new ⟨.empty, .new 0⟩ "a" 80 =
      (.ok ((), t), ⟨.streaming, some t.registration.id⟩, _) := rfl
  have hsegments : ∃ cs, Chunk.segments (StreamId.derive 7 "a" 80) (some ⟨"a", 80⟩)
      (List.replicate 20 7) (40 : UInt64).toNat = .ok cs ∧ cs.length = 2 := ⟨_, rfl, rfl⟩
  obtain ⟨cs, hcs, hlen⟩ : ∃ cs, Chunk.segments (StreamId.derive n.gid "a" 80) (some ⟨"a", 80⟩)
      (List.replicate 20 7) n.config.streamPacketBytes.toNat = .ok cs ∧ cs.length = 2 := hsegments
  clear_value n t
  have hpart : ∀ octets part, Event.messageFailed octets part ∈
      [Event.localRead (List.replicate 20 7), .messageFailed [1, 2, 3] [1, 2], .localRead [8]] →
        part <+: octets := by
    intro octets part hmem
    simp only [List.mem_cons, reduceCtorEq, Event.messageFailed.injEq, List.not_mem_nil, false_or,
      or_false] at hmem
    obtain ⟨rfl, rfl⟩ := hmem
    exact ⟨[3], rfl⟩
  obtain ⟨reads, chunks, side, hsession, hsent, -, hjoined, -, -, -, hwritten⟩ :=
    sends_reads_and_writes_messages hopen _ hpart
  cases hsession with
  | read hne hcut hrest =>
    cases hrest with
    | writeFailed =>
      refine ⟨n, t, _, _, _, hopen, ?_, hsent, hjoined, hwritten⟩
      cases hcut.symm.trans hcs
      simp [hlen]
    | listener he _ => simp at he
  | listener he _ => simp at he
  | uncut hne hfault => cases hfault.symm.trans hcs

end Bridge

end Meshway
