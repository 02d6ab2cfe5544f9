import Meshway.Proofs.Bridge
set_option autoImplicit false

/-!
# How much a bridge can carry (SPEC §4.4, §10.3 items 6 and 7)

A bridge opens when a packet has room for the destination and more.  A local
read is cut into at most 255 chunks, and that many may be too few for it where
the room is small.  Main statement: nothing but that ever keeps a read from
being sent, it ends the stream, and from 41 octets in a packet on, no read is
too long.
-/

namespace Meshway

open Meshway.Cbor Meshway.Segmentation

/-! ## How long a message may be -/

namespace Segmentation

/-- The room for the first part of a message, which may name a destination. -/
def Plan.roomBeside (p : Plan) : Option Destination → Nat
  | none => p.rest
  | some _ => p.first

end Segmentation

namespace Chunk

variable {id : StreamId} {d : Destination} {max : Nat} {p : Plan}

/-- Where there is a plan for an empty message with a destination, the plan for any message with or
without it differs in the number of parts only. -/
theorem plan_eq_of_plan (h : plan id (some d) 0 max = .ok p) {destination : Option Destination}
    (hd : destination = some d ∨ destination = none) (size : Nat) :
    plan id destination size max =
      Segmentation.plan size (p.roomBeside destination) p.rest := by
  unfold plan at h ⊢
  split at h
  · cases h
  · rename_i rest hrest
    dsimp only at h
    split at h
    · cases h
    · rename_i first hfirst
      obtain ⟨hfirst', hrest', -⟩ := count_of_plan h
      rcases hd with rfl | rfl
      · simp only [hfirst, Plan.roomBeside, hfirst', hrest']
      · simp only [Plan.roomBeside, hrest']

/-- The room of a chunk without a destination in a packet. -/
theorem rest_add (h : plan id (some d) 0 max = .ok p) : p.rest + 22 + headLength max = max := by
  obtain ⟨-, -, hrest⟩ := plan_eq_ok h
  have hzero : headLength 0 = 1 := rfl
  rw [overhead, shapeLength_none] at hrest
  omega

/-- From 41 octets in a packet on, a chunk without a destination has room for 17. -/
theorem le_rest_iff (h : plan id (some d) 0 max = .ok p) : 17 ≤ p.rest ↔ 41 ≤ max := by
  have hsum := rest_add h
  unfold headLength at hsum
  split at hsum
  · omega
  · split at hsum
    · omega
    · split at hsum
      · omega
      · split at hsum <;> omega

end Chunk

/-! ## What a task sends -/

namespace Tunnel

variable {n : Node} {t : Tunnel}

/-- Whether a local read is sent: the task hands its packets to the radio and goes on. -/
def Sends (n : Node) (t : Tunnel) (octets : Bytes) : Prop :=
  ∃ ps, t.packets n octets = .ok ps ∧
    t.step n (.localRead octets) = ({ t with destination := none }, ps.map .send)

variable {d : Destination} {p : Plan} {octets : Bytes}

/-- A read that is no longer than all the chunks that can be numbered is sent. -/
theorem sends_iff
    (hplan : Chunk.plan t.registration.id (some d) 0 n.config.streamPacketBytes.toNat = .ok p)
    (hd : t.destination = some d ∨ t.destination = none) (hstage : t.stage = .carrying)
    (hne : octets ≠ []) :
    t.Sends n octets ↔ octets.length ≤ p.roomBeside t.destination + 254 * p.rest := by
  have hpos := (Chunk.plan_eq_ok hplan).1.rest_pos
  rw [← exists_plan_iff hpos, ← Chunk.plan_eq_of_plan hplan hd]
  constructor
  · rintro ⟨ps, hps, -⟩
    unfold packets at hps
    split at hps
    · cases hps
    · rename_i chunks hchunks
      obtain ⟨q, hq, -⟩ := Chunk.segments_eq_ok hchunks
      exact ⟨q, hq⟩
  · rintro ⟨q, hq⟩
    obtain ⟨ps, hps⟩ : ∃ ps, t.packets n octets = .ok ps := by
      rw [packets, Chunk.segments, hq]
      exact ⟨_, rfl⟩
    refine ⟨ps, hps, ?_⟩
    simp [step, hstage, hne, hps]

/-- A read is not sent only if its chunks are too many. -/
theorem tooMany_of_packets
    (hplan : Chunk.plan t.registration.id (some d) 0 n.config.streamPacketBytes.toNat = .ok p)
    (hd : t.destination = some d ∨ t.destination = none) {fault : Segmentation.Fault}
    (h : t.packets n octets = .error fault) : ∃ count, fault = .tooManySegments count := by
  unfold packets Chunk.segments at h
  rw [Chunk.plan_eq_of_plan hplan hd] at h
  split at h
  · rename_i e hcut
    cases h
    split at hcut
    · rename_i e hfault
      cases hcut
      exact tooMany_of_plan hfault
    · cases hcut
  · cases h

/-- A task that cannot cut what it read ends, and tells the gateway so. -/
theorem step_of_packets_error (hstage : t.stage = .carrying) (hne : octets ≠ [])
    {fault : Segmentation.Fault} (h : t.packets n octets = .error fault) :
    t.step n (.localRead octets) = ({ t with stage := .ended }, t.endLocally n) := by
  simp [step, hstage, hne, h]

/-- So it does with a read that is longer than all the chunks that can be numbered. -/
theorem step_of_too_long
    (hplan : Chunk.plan t.registration.id (some d) 0 n.config.streamPacketBytes.toNat = .ok p)
    (hd : t.destination = some d ∨ t.destination = none) (hstage : t.stage = .carrying)
    (hlong : p.roomBeside t.destination + 254 * p.rest < octets.length) :
    t.step n (.localRead octets) = ({ t with stage := .ended }, t.endLocally n) := by
  have hne : octets ≠ [] := List.ne_nil_of_length_pos (Nat.zero_lt_of_lt hlong)
  cases hps : t.packets n octets with
  | error fault => exact step_of_packets_error hstage hne hps
  | ok ps =>
    have hsends : t.Sends n octets := ⟨ps, hps, by simp [step, hstage, hne, hps]⟩
    exact absurd ((sends_iff hplan hd hstage hne).1 hsends) (Nat.not_le.2 hlong)

theorem ends_of_plan_error (hstage : t.stage = .carrying) (hne : octets ≠ [])
    {fault : Segmentation.Fault} (h : Chunk.plan t.registration.id t.destination octets.length
      n.config.streamPacketBytes.toNat = .error fault) :
    t.packets n octets = .error fault ∧ (t.step n (.localRead octets)).1.stage = .ended := by
  have hps : t.packets n octets = .error fault := by
    rw [packets, Chunk.segments, h]
  exact ⟨hps, by rw [step_of_packets_error hstage hne hps]⟩

end Tunnel

namespace Bridge

open Tunnel

variable {α : Type} {n : Node} {listen : PortAllocator → Except IoFault α × PortAllocator}
  {b b' : Bridge} {h h' : BridgeHost} {host : String} {port : UInt16} {a : α} {t : Tunnel}

/-- A bridge was opened, and its task carries messages after anything that happened.  A local read,
the first or a later one, is sent just when it is no longer than 255 chunks hold, the first of them
with the destination if that was not named yet; otherwise the chunks are too many, and nothing else
is ever wrong: nothing of the read is sent, and the task ends and tells the gateway so.  From 41
octets in a packet on, and only then, every local read is sent. -/
theorem sends_local_reads
    (hopen : open? n listen b h host port = (.ok (a, t), b', h')) :
    let max := n.config.streamPacketBytes.toNat
    ∃ p, Chunk.plan (StreamId.derive n.gid host port) (some ⟨host, port⟩) 0 max = .ok p ∧
      (∀ events octets, octets ≠ [] → (t.run n events).1.stage = .carrying →
        ((t.run n events).1.Sends n octets ↔
          octets.length ≤ p.roomBeside (t.run n events).1.destination + 254 * p.rest) ∧
        (p.roomBeside (t.run n events).1.destination + 254 * p.rest < octets.length →
          (t.run n events).1.step n (.localRead octets) =
            ({ (t.run n events).1 with stage := .ended }, (t.run n events).1.endLocally n)) ∧
        ∀ fault, (t.run n events).1.packets n octets = .error fault →
          ∃ count, fault = .tooManySegments count) ∧
      ((∀ events octets, octets ≠ [] → octets.length ≤ readSize →
        (t.run n events).1.stage = .carrying → (t.run n events).1.Sends n octets) ↔ 41 ≤ max) := by
  intro max
  obtain ⟨hid, hdestination, hstage, p, hplan⟩ := open?_eq_ok hopen
  have htask : ∀ events, Chunk.plan (t.run n events).1.registration.id (some ⟨host, port⟩) 0 max =
        .ok p ∧
      ((t.run n events).1.destination = some ⟨host, port⟩ ∨
        (t.run n events).1.destination = none) := by
    intro events
    obtain ⟨hregistration, hdestination'⟩ := run_keeps (n := n) (t := t) events
    rw [hregistration, hid, ← hdestination]
    exact ⟨hdestination ▸ hplan, hdestination'⟩
  have hsends : ∀ events octets, octets ≠ [] → (t.run n events).1.stage = .carrying →
      ((t.run n events).1.Sends n octets ↔
        octets.length ≤ p.roomBeside (t.run n events).1.destination + 254 * p.rest) :=
    fun events octets hne hcarrying =>
      sends_iff (htask events).1 (htask events).2 hcarrying hne
  have hroom : 17 ≤ p.rest ↔ 41 ≤ max := Chunk.le_rest_iff hplan
  refine ⟨p, hplan, fun events octets hne hcarrying => ⟨hsends events octets hne hcarrying,
    step_of_too_long (htask events).1 (htask events).2 hcarrying,
    fun fault => tooMany_of_packets (htask events).1 (htask events).2⟩, ?_⟩
  rw [← hroom]
  constructor
  · -- the largest read, right after the local connection was accepted
    intro hall
    have haccepted : (t.run n [.accepted]).1 = { t with stage := .carrying } := by
      rw [run_cons]
      simp [step, hstage, run]
    have hsize : (List.replicate readSize (0 : UInt8)).length = readSize := List.length_replicate
    have hne : List.replicate readSize (0 : UInt8) ≠ [] :=
      List.ne_nil_of_length_pos (by rw [hsize]; decide)
    have hcarrying : (t.run n [.accepted]).1.stage = .carrying := by rw [haccepted]
    have hfits := (hsends [.accepted] _ hne hcarrying).1
      (hall [.accepted] _ hne (Nat.le_of_eq hsize) hcarrying)
    have hfirst := Chunk.first_le_rest hplan
    rw [haccepted, hsize, hdestination] at hfits
    simp only [Plan.roomBeside, readSize] at hfits
    omega
  · intro hrest events octets hne hsize hcarrying
    refine (hsends events octets hne hcarrying).2 ?_
    unfold readSize at hsize
    omega

/-- Packets of 41 octets, and the largest local read. -/
theorem sends_largest_read :
    let n : Node := ⟨{ MeshConfig.default with streamPacketBytes := 41 }, 7, fun _ => default⟩
    ∃ (t : Tunnel) (b' : Bridge) (h' : BridgeHost),
      open? n (fun ports => (.ok (), ports)) .new ⟨.empty, .new 0⟩ "a" 80 = (.ok ((), t), b', h') ∧
        (t.run n [.accepted]).1.Sends n (List.replicate 4096 7) := by
  intro n
  let t : Tunnel := ⟨⟨StreamId.derive 7 "a" 80, 1⟩, some ⟨"a", 80⟩, .accepting⟩
  have hopen : open? n (fun ports => (.ok (), ports)) .new ⟨.empty, .new 0⟩ "a" 80 =
      (.ok ((), t), ⟨.streaming, some t.registration.id⟩, _) := rfl
  obtain ⟨p, -, -, hall⟩ := sends_local_reads hopen
  have hsize : (List.replicate 4096 (7 : UInt8)).length = 4096 := List.length_replicate
  exact ⟨t, _, _, hopen, hall.2 (by decide) [.accepted] _
    (List.ne_nil_of_length_pos (by rw [hsize]; decide)) (Nat.le_of_eq hsize) rfl⟩

/-- In packets of 40 octets neither a first nor a later message can be that long, and the task ends
instead. -/
theorem ends_at_largest_read :
    let n : Node := ⟨{ MeshConfig.default with streamPacketBytes := 40 }, 7, fun _ => default⟩
    let octets := List.replicate 4096 7
    ∃ (t : Tunnel) (b' : Bridge) (h' : BridgeHost),
      let first := (t.run n [.accepted]).1
      let later := (t.run n [.accepted, .localRead [7]]).1
      open? n (fun ports => (.ok (), ports)) .new ⟨.empty, .new 0⟩ "a" 80 = (.ok ((), t), b', h') ∧
        first.stage = .carrying ∧ first.packets n octets = .error (.tooManySegments 257) ∧
        (first.step n (.localRead octets)).1.stage = .ended ∧
        later.stage = .carrying ∧ later.packets n octets = .error (.tooManySegments 256) ∧
        (later.step n (.localRead octets)).1.stage = .ended := by
  intro n octets
  let t : Tunnel := ⟨⟨StreamId.derive 7 "a" 80, 1⟩, some ⟨"a", 80⟩, .accepting⟩
  have hopen : open? n (fun ports => (.ok (), ports)) .new ⟨.empty, .new 0⟩ "a" 80 =
      (.ok ((), t), ⟨.streaming, some t.registration.id⟩, _) := rfl
  have hsize : octets.length = 4096 := List.length_replicate
  have hne : octets ≠ [] := List.ne_nil_of_length_pos (by rw [hsize]; decide)
  have hplan : Chunk.plan (StreamId.derive 7 "a" 80) (some ⟨"a", 80⟩) 0 40 = .ok ⟨12, 16, 1⟩ := rfl
  let first : Tunnel := { t with stage := .carrying }
  let later : Tunnel := { first with destination := none }
  have hfirst := ends_of_plan_error (n := n) (t := first) rfl hne
    (by rw [hsize]; exact (Chunk.plan_eq_of_plan hplan (.inl rfl) 4096).trans rfl)
  have hlater := ends_of_plan_error (n := n) (t := later) rfl hne
    (by rw [hsize]; exact (Chunk.plan_eq_of_plan hplan (.inr rfl) 4096).trans rfl)
  obtain ⟨ps, -, hsent⟩ : first.Sends n [7] :=
    (sends_iff hplan (.inl rfl) rfl (by decide)).2 (by decide)
  have haccepted : t.step n .accepted = (first, []) := rfl
  have hrun : (t.run n [.accepted]).1 = first := by
    rw [run_cons, haccepted, run]
  have hrun' : (t.run n [.accepted, .localRead [7]]).1 = later := by
    rw [run_cons, haccepted, run_cons, hsent, run]
  refine ⟨t, _, _, hopen, ?_⟩
  rw [hrun, hrun']
  exact ⟨rfl, hfirst.1, hfirst.2, rfl, hlater.1, hlater.2⟩

end Bridge

end Meshway
