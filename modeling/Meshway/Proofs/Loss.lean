import Meshway.Proofs.Reassembly
import Meshway.Proofs.Transaction.Transfer
set_option autoImplicit false

/-!
# Lost parts (SPEC §4.3, §9)

The radio may lose any part, and no part says which one came before it.  Main
statement, for all losses: a message of a stream completes when its last chunk
arrives, with what arrived of it, and its first chunk drops what is left of the
message before; a transaction completes when its first and its last segment
arrive, with what arrived of it.  So as long as nothing is lost before a last
part that arrives, all that completes is what arrived whole.  A part that is
lost in the middle goes unnoticed.
-/

namespace Meshway

open Meshway.Segmentation

/-! ## Parts that arrive -/

namespace Part

variable {α : Type} [Part α]

/-- Whether the first part arrives. -/
def Begun (arrived : List α) : Prop := ∃ c ∈ arrived, index c = 0

/-- Whether the last of the parts that are sent arrives. -/
def Ended (sent arrived : List α) : Prop := ∃ c ∈ arrived, (index c).toNat + 1 = sent.length

instance (arrived : List α) : Decidable (Begun arrived) :=
  inferInstanceAs (Decidable (∃ c ∈ _, _))

instance (sent arrived : List α) : Decidable (Ended sent arrived) :=
  inferInstanceAs (Decidable (∃ c ∈ _, _))

/-- The octets that arrive. -/
def octets (arrived : List α) : Bytes := (arrived.map payload).flatten

/-- What is sent are the parts of a payload, and what arrives are those at some places. -/
structure Places (bs : Bytes) (sent arrived : List α) (p : Plan) (part : Nat → α) (is : List Nat) :
    Prop where
  covers : p.Covers bs.length
  sublist : is.Sublist (List.range p.count.toNat)
  index_part : ∀ i, index (part i) = UInt8.ofNat i
  payload_part : ∀ i, payload (part i) = p.slice bs i
  sent_eq : sent = (List.range p.count.toNat).map part
  arrived_eq : arrived = is.map part

namespace Places

variable {bs : Bytes} {sent arrived : List α} {p : Plan} {part : Nat → α} {is : List Nat}

theorem ascending (h : Places bs sent arrived p part is) : is.Pairwise (· < ·) :=
  List.pairwise_lt_range.sublist h.sublist

theorem lt_count (h : Places bs sent arrived p part is) : ∀ i ∈ is, i < p.count.toNat :=
  fun _ hi => List.mem_range.1 (h.sublist.subset hi)

theorem length_sent (h : Places bs sent arrived p part is) : sent.length = p.count.toNat := by
  rw [h.sent_eq, List.length_map, List.length_range]

/-- The number of a part that arrives is its place. -/
theorem exists_index_iff (h : Places bs sent arrived p part is) {k : Nat} :
    (∃ c ∈ arrived, (index c).toNat = k) ↔ k ∈ is := by
  have hnumber : ∀ i ∈ is, (index (part i)).toNat = i := by
    intro i hi
    rw [h.index_part]
    exact UInt8.toNat_ofNat_of_lt' (Nat.lt_trans (h.lt_count i hi) p.count.toNat_lt)
  rw [h.arrived_eq]
  constructor
  · rintro ⟨c, hc, hindex⟩
    obtain ⟨i, hi, rfl⟩ := List.mem_map.1 hc
    exact hindex ▸ (hnumber i hi).symm ▸ hi
  · intro hk
    exact ⟨_, List.mem_map_of_mem hk, hnumber k hk⟩

theorem begun_iff (h : Places bs sent arrived p part is) : Begun arrived ↔ 0 ∈ is := by
  rw [← h.exists_index_iff]
  simp only [Begun, ← UInt8.toNat_inj]
  rfl

theorem ended_iff (h : Places bs sent arrived p part is) :
    Ended sent arrived ↔ p.count.toNat - 1 ∈ is := by
  have hpos := h.covers.count_pos
  rw [← h.exists_index_iff, Ended, h.length_sent]
  refine exists_congr fun c => and_congr_right fun _ => ?_
  omega

theorem octets_eq (h : Places bs sent arrived p part is) :
    octets arrived = (is.map (p.slice bs)).flatten := by
  rw [octets, h.arrived_eq, List.map_map]
  exact congrArg List.flatten (List.map_congr_left fun i _ => h.payload_part i)

/-- When everything arrives, the first part arrives, and the last, and all octets. -/
theorem whole (h : Places bs sent arrived p part is) (hwhole : arrived = sent) :
    Begun arrived ∧ Ended sent arrived ∧ octets arrived = bs := by
  have hpos := h.covers.count_pos
  have hlen : is.length = (List.range p.count.toNat).length := by
    have harrived := congrArg List.length h.arrived_eq
    rw [hwhole, h.length_sent, List.length_map] at harrived
    rw [List.length_range, ← harrived]
  have his : is = List.range p.count.toNat := h.sublist.eq_of_length hlen
  rw [h.begun_iff, h.ended_iff, h.octets_eq, his]
  exact ⟨List.mem_range.2 hpos, List.mem_range.2 (by omega), h.covers.flatten_eq⟩

end Places

end Part

/-! ## Messages of a stream -/

/-- The message that a chunk completes, if it completes one. -/
def Joined.message? : Joined → Option Bytes
  | .complete message => some message
  | _ => none

/-- A message of a stream that is not empty, cut into chunks. -/
structure Shipment (id : StreamId) where
  destination : Option Destination
  payload : Bytes
  max : Nat
  chunks : List Chunk
  payload_ne : payload ≠ []
  segments_eq : Chunk.segments id destination payload max = .ok chunks

/-- A message of a stream, and those of its chunks that arrive. -/
structure Arrival (id : StreamId) extends Shipment id where
  arrived : List Chunk
  arrived_sublist : arrived.Sublist chunks

namespace Arrival

variable {id : StreamId}

/-- What completes when messages are sent one after the other, behind octets that are carried over:
a message completes if its last chunk arrives, and it drops what is carried over if its first chunk
does. -/
def received (carried : Bytes) : List (Arrival id) → List Bytes
  | [] => []
  | d :: ds =>
    let message := (if Part.Begun d.arrived then [] else carried) ++ Part.octets d.arrived
    if Part.Ended d.chunks d.arrived then message :: received [] ds else received message ds

theorem exists_places (d : Arrival id) : ∃ p is, Part.Places d.payload d.chunks d.arrived p
    (fun i => Chunk.ofPart id d.destination p.count (i, p.slice d.payload i)) is := by
  obtain ⟨p, hplan, hchunks⟩ := Chunk.segments_eq_ok d.segments_eq
  obtain ⟨hcovers, -, -⟩ := Chunk.plan_eq_ok hplan
  have hsublist := d.arrived_sublist
  rw [hchunks] at hsublist
  obtain ⟨is, his, harrived⟩ := List.sublist_map_iff.1 hsublist
  exact ⟨p, is, hcovers, his, fun _ => rfl, fun _ => rfl, hchunks, harrived⟩

/-- What arrives of a message completes it if its last chunk does. -/
theorem joinAll_arrived (d : Arrival id) (held : Bytes) :
    Chunk.joinAll held d.arrived =
      let message := (if Part.Begun d.arrived then [] else held) ++ Part.octets d.arrived
      if Part.Ended d.chunks d.arrived then
        (List.replicate (d.arrived.length - 1) .pending ++ [.complete message], [])
      else (List.replicate d.arrived.length .pending, message) := by
  obtain ⟨p, is, h⟩ := d.exists_places
  simp only [h.begun_iff, h.ended_iff, h.octets_eq]
  rw [h.arrived_eq, List.length_map]
  exact Chunk.joinAll_parts id d.destination p.count
    (fun i hi => h.covers.slice_ne_nil d.payload_ne hi) h.ascending h.lt_count held

/-- What completes when messages are sent one after the other. -/
theorem completed_joinAll (ds : List (Arrival id)) (held : Bytes) :
    (Chunk.joinAll held (ds.map (·.arrived)).flatten).1.filterMap Joined.message? =
      received held ds := by
  induction ds generalizing held with
  | nil => rfl
  | cons d ds ih =>
    rw [List.map_cons, List.flatten_cons, Chunk.joinAll_append, List.filterMap_append, ih,
      joinAll_arrived, received]
    by_cases hended : Part.Ended d.chunks d.arrived
    · simp [hended, Joined.message?, List.filterMap_replicate]
    · simp [hended, Joined.message?, List.filterMap_replicate]

/-- The last chunk of a message that arrives whole arrives. -/
theorem ended_of_whole {d : Arrival id} (h : d.arrived = d.chunks) :
    Part.Ended d.chunks d.arrived := by
  obtain ⟨p, is, hplaces⟩ := d.exists_places
  exact (hplaces.whole h).2.1

/-- As many messages complete as have their last chunk arrive. -/
theorem length_received (carried : Bytes) (ds : List (Arrival id)) :
    (received carried ds).length = (ds.filter fun d => Part.Ended d.chunks d.arrived).length := by
  induction ds generalizing carried with
  | nil => rfl
  | cons d ds ih =>
    by_cases hended : Part.Ended d.chunks d.arrived
    · simp [received, hended, ih]
    · simp [received, hended, ih]

/-- The messages that arrive whole are all that completes if and only if every message whose last
chunk arrives does so whole. -/
theorem received_eq_whole_iff {carried : Bytes} {ds : List (Arrival id)} :
    received carried ds = (ds.filter fun d => d.arrived = d.chunks).map (·.payload) ↔
      ∀ d ∈ ds, Part.Ended d.chunks d.arrived → d.arrived = d.chunks := by
  constructor
  · intro h d hd hended
    have hlen := congrArg List.length h
    have hfilter : (ds.filter fun d => Part.Ended d.chunks d.arrived).filter
        (fun d => d.arrived = d.chunks) = ds.filter fun d => d.arrived = d.chunks := by
      rw [List.filter_filter]
      refine List.filter_congr fun d _ => ?_
      by_cases hwhole : d.arrived = d.chunks
      · rw [decide_eq_true hwhole, decide_eq_true (ended_of_whole hwhole)]
        rfl
      · simp [hwhole]
    rw [length_received, List.length_map, ← hfilter] at hlen
    have hall := List.length_filter_eq_length_iff.1 hlen.symm d
      (List.mem_filter.2 ⟨hd, decide_eq_true hended⟩)
    exact of_decide_eq_true hall
  · intro h
    induction ds generalizing carried with
    | nil => rfl
    | cons d ds ih =>
      obtain ⟨hd, hds⟩ := List.forall_mem_cons.1 h
      by_cases hwhole : d.arrived = d.chunks
      · obtain ⟨p, is, hplaces⟩ := d.exists_places
        obtain ⟨hbegun, hended, hoctets⟩ := hplaces.whole hwhole
        rw [received, if_pos hbegun, if_pos hended, hoctets, ih hds]
        simp [hwhole]
      · have hended : ¬ Part.Ended d.chunks d.arrived := fun hended => hwhole (hd hended)
        simp [received, hwhole, hended, ih hds]

/-- Whatever is lost of the chunks of messages, some of each arrive, or none. -/
theorem exists_of_sublist (ss : List (Shipment id)) {arrived : List Chunk}
    (h : arrived.Sublist (ss.map (·.chunks)).flatten) :
    ∃ ds : List (Arrival id), ds.map (·.toShipment) = ss ∧
      (ds.map (·.arrived)).flatten = arrived := by
  induction ss generalizing arrived with
  | nil => exact ⟨[], rfl, (List.sublist_nil.1 h).symm⟩
  | cons s ss ih =>
    obtain ⟨first, others, rfl, hfirst, hothers⟩ := List.sublist_append_iff.1 h
    obtain ⟨ds, rfl, rfl⟩ := ih hothers
    exact ⟨⟨s, first, hfirst⟩ :: ds, rfl, rfl⟩

end Arrival

/-! ## Transactions -/

/-- The transaction that a segment completes, if it completes one. -/
def TxJoined.transaction? : TxJoined → Option (TxId × Network × Bytes)
  | .complete txId network raw => some (txId, network, raw)
  | _ => none

/-- A transaction, cut into segments. -/
structure TxShipment where
  txId : TxId
  network : Network
  raw : Bytes
  max : Nat
  segments : List TxSegment
  segments_eq : TxSegment.segments txId network raw max = .ok segments

namespace TxShipment

/-- What completes of a transaction: if its first and its last segment arrive, what arrives. -/
def received (s : TxShipment) (arrived : List TxSegment) : List (TxId × Network × Bytes) :=
  if Part.Begun arrived ∧ Part.Ended s.segments arrived then
    [(s.txId, s.network, Part.octets arrived)]
  else []

/-- Among the segments of transactions with different short identities, those of a short identity
are the segments of one transaction. -/
theorem filter_flatten {ss : List TxShipment}
    (hdistinct : ss.Pairwise fun s t => s.txId.short ≠ t.txId.short) {s : TxShipment}
    (hs : s ∈ ss) :
    (ss.map (·.segments)).flatten.filter (fun g => g.shortId = s.txId.short) = s.segments := by
  have hshort : ∀ t : TxShipment, ∀ g ∈ t.segments, g.shortId = t.txId.short :=
    fun t _ => TxSegment.shortId_of_mem_segments t.segments_eq
  induction ss with
  | nil => cases hs
  | cons t ss ih =>
    obtain ⟨ht, hdistinct⟩ := List.pairwise_cons.1 hdistinct
    rw [List.map_cons, List.flatten_cons, List.filter_append]
    rcases List.mem_cons.1 hs with rfl | hs
    · have hself : s.segments.filter (fun g => g.shortId = s.txId.short) = s.segments :=
        List.filter_eq_self.2 fun g hg => decide_eq_true (hshort s g hg)
      have hothers : (ss.map (·.segments)).flatten.filter (fun g => g.shortId = s.txId.short) =
          [] := by
        refine List.filter_eq_nil_iff.2 fun g hg => ?_
        obtain ⟨gs, hgs, hg⟩ := List.mem_flatten.1 hg
        obtain ⟨t, hmem, rfl⟩ := List.mem_map.1 hgs
        rw [hshort t g hg]
        simpa using (ht t hmem).symm
      rw [hself, hothers, List.append_nil]
    · have hother : t.segments.filter (fun g => g.shortId = s.txId.short) = [] := by
        refine List.filter_eq_nil_iff.2 fun g hg => ?_
        rw [hshort t g hg]
        simpa using ht s hs
      rw [hother, ih hdistinct hs, List.nil_append]

variable {s : TxShipment} {arrived : List TxSegment}

theorem exists_places (h : arrived.Sublist s.segments) :
    ∃ p is, Part.Places s.raw s.segments arrived p
      (fun i => TxSegment.ofPart s.txId s.network p.count (i, p.slice s.raw i)) is := by
  obtain ⟨p, hplan, hsegments⟩ := TxSegment.segments_eq_ok s.segments_eq
  obtain ⟨-, hcovers, -⟩ := TxSegment.plan_eq_ok hplan
  rw [hsegments] at h
  obtain ⟨is, his, harrived⟩ := List.sublist_map_iff.1 h
  exact ⟨p, is, hcovers, his, fun _ => rfl, fun _ => rfl, hsegments, harrived⟩

/-- What completes of a transaction of which nothing waits. -/
theorem completed_joinAll (h : arrived.Sublist s.segments) :
    (TxSegment.joinAll none arrived).1.filterMap TxJoined.transaction? = s.received arrived := by
  obtain ⟨p, is, hplaces⟩ := exists_places h
  have hascending := hplaces.ascending
  have hlt := hplaces.lt_count
  simp only [received, hplaces.begun_iff, hplaces.ended_iff, hplaces.octets_eq]
  rw [hplaces.arrived_eq]
  cases is with
  | nil => rfl
  | cons i is =>
    obtain ⟨habove, -⟩ := List.pairwise_cons.1 hascending
    by_cases hi : i = 0
    · subst hi
      rw [TxSegment.joinAll_parts s.txId s.network p.count (p.slice s.raw) hascending hlt]
      by_cases hlast : p.count.toNat - 1 ∈ 0 :: is
      · rw [if_pos hlast, if_pos ⟨List.mem_cons_self .., hlast⟩]
        simp [TxJoined.transaction?, List.filterMap_replicate]
      · rw [if_neg hlast, if_neg fun h => hlast h.2]
        simp [TxJoined.transaction?, List.filterMap_replicate]
    · have hpos : ∀ j ∈ i :: is, 0 < j := by
        refine List.forall_mem_cons.2 ⟨by omega, fun j hj => ?_⟩
        have := habove j hj
        omega
      have hfirst : ¬ 0 ∈ i :: is := fun h => absurd (hpos 0 h) (Nat.lt_irrefl 0)
      rw [TxSegment.joinAll_parts_none s.txId s.network p.count (p.slice s.raw) hpos,
        if_neg fun h => hfirst h.1]
      simp [TxJoined.transaction?, List.filterMap_replicate]

/-- A transaction completes just when it arrives whole, and unchanged, if and only if it arrives
whole whenever its first and its last segment do. -/
theorem received_eq_whole_iff (h : arrived.Sublist s.segments) :
    (s.received arrived = if arrived = s.segments then [(s.txId, s.network, s.raw)] else []) ↔
      (Part.Begun arrived → Part.Ended s.segments arrived → arrived = s.segments) := by
  obtain ⟨p, is, hplaces⟩ := exists_places h
  unfold received
  by_cases hwhole : arrived = s.segments
  · obtain ⟨hbegun, hended, hoctets⟩ := hplaces.whole hwhole
    rw [if_pos ⟨hbegun, hended⟩, if_pos hwhole, hoctets]
    exact iff_of_true rfl fun _ _ => hwhole
  · rw [if_neg hwhole]
    by_cases hboth : Part.Begun arrived ∧ Part.Ended s.segments arrived
    · rw [if_pos hboth]
      exact iff_of_false (List.cons_ne_nil _ _) fun h => hwhole (h hboth.1 hboth.2)
    · rw [if_neg hboth]
      exact iff_of_true rfl fun hbegun hended => absurd ⟨hbegun, hended⟩ hboth

end TxShipment

/-! ## All losses -/

/-- Whatever is lost of the chunks of messages that are sent one after the other, something or
nothing of each arrives; then messages complete as `Arrival.received` says, whatever arrives for
other streams in between.  The messages that arrive whole are all that completes, unchanged, if and
only if every message whose last chunk arrives does so whole.  So it is with each of several
transactions with different short identities of which nothing waits, where it is the first and the
last segment that have to arrive. -/
theorem completed_messages_of_lost_parts {id : StreamId} (ss : List (Shipment id))
    (arrived : List Chunk) (harrived : arrived.Sublist (ss.map (·.chunks)).flatten)
    (ts : List TxShipment)
    (hdistinct : ts.Pairwise fun s t => s.txId.short ≠ t.txId.short) (segments : List TxSegment)
    (hsegments : segments.Sublist (ts.map (·.segments)).flatten) :
    (∃ ds : List (Arrival id), ds.map (·.toShipment) = ss ∧
      (ds.map (·.arrived)).flatten = arrived) ∧
    (∀ ds : List (Arrival id), ds.map (·.toShipment) = ss →
      (ds.map (·.arrived)).flatten = arrived →
      ∀ (r : Reassembler) (arrivals : List Chunk),
        arrivals.filter (fun c => c.streamId = id) = arrived →
          let completed := (Reassembler.outcomesOf id r arrivals).filterMap Joined.message?
          completed = Arrival.received (r.held id) ds ∧
            (completed = (ds.filter fun d => d.arrived = d.chunks).map (·.payload) ↔
              ∀ d ∈ ds, Part.Ended d.chunks d.arrived → d.arrived = d.chunks)) ∧
    ∀ t ∈ ts, ∀ r : TxReassembler, r.waiting.get? t.txId.short = none →
      let own := segments.filter fun g => g.shortId = t.txId.short
      let completed :=
        (TxReassembler.outcomesOf t.txId.short r segments).filterMap TxJoined.transaction?
      completed = t.received own ∧
        ((completed = if own = t.segments then [(t.txId, t.network, t.raw)] else []) ↔
          (Part.Begun own → Part.Ended t.segments own → own = t.segments)) := by
  refine ⟨Arrival.exists_of_sublist ss harrived, ?_, ?_⟩
  · intro ds _ hds r arrivals harrivals completed
    have hcompleted : completed = Arrival.received (r.held id) ds := by
      simp only [completed, Reassembler.outcomesOf_eq, harrivals, ← hds, Arrival.completed_joinAll]
    refine ⟨hcompleted, ?_⟩
    rw [hcompleted]
    exact Arrival.received_eq_whole_iff
  · intro t ht r hnone own completed
    have hown : own.Sublist t.segments :=
      TxShipment.filter_flatten hdistinct ht ▸ hsegments.filter fun g => g.shortId = t.txId.short
    have hcompleted : completed = t.received own := by
      simp only [completed, TxReassembler.outcomesOf_eq, hnone]
      exact TxShipment.completed_joinAll hown
    refine ⟨hcompleted, ?_⟩
    rw [hcompleted]
    exact TxShipment.received_eq_whole_iff hown

/-- A message of three chunks of which the last is lost never completes, and the next message does,
unchanged; a transaction of two segments completes when both arrive. -/
theorem completed_messages_of_lost_tail :
    let c (i : UInt8) (part : Bytes) : Chunk := ⟨default, none, i, 3, part⟩
    let next : Chunk := ⟨default, none, 0, 1, [10]⟩
    let g₀ : TxSegment := ⟨default, 0, some ⟨default, 2, .testnet⟩, [1, 2, 3, 4]⟩
    let g₁ : TxSegment := ⟨default, 1, none, [5, 6]⟩
    Chunk.segments default none [1, 2, 3, 4, 5, 6, 7, 8, 9] 27 =
        .ok [c 0 [1, 2, 3], c 1 [4, 5, 6], c 2 [7, 8, 9]] ∧
      (Reassembler.outcomesOf default .empty [c 0 [1, 2, 3], c 1 [4, 5, 6], next]).filterMap
        Joined.message? = [[10]] ∧
      TxSegment.segments default .testnet [1, 2, 3, 4, 5, 6] 64 = .ok [g₀, g₁] ∧
      (TxReassembler.outcomesOf default .empty [g₀, g₁]).filterMap TxJoined.transaction? =
        [(default, .testnet, [1, 2, 3, 4, 5, 6])] := by
  intro c next g₀ g₁
  have hlong : Chunk.segments default none [1, 2, 3, 4, 5, 6, 7, 8, 9] 27 =
      .ok [c 0 [1, 2, 3], c 1 [4, 5, 6], c 2 [7, 8, 9]] := rfl
  have hshort : Chunk.segments default none [10] 27 = .ok [next] := rfl
  have hsegments : TxSegment.segments default .testnet [1, 2, 3, 4, 5, 6] 64 = .ok [g₀, g₁] := rfl
  let long : Shipment default := ⟨none, _, 27, _, by decide, hlong⟩
  let short : Shipment default := ⟨none, _, 27, _, by decide, hshort⟩
  let tx : TxShipment := ⟨default, .testnet, _, 64, _, hsegments⟩
  let cut : Arrival default := ⟨long, [c 0 [1, 2, 3], c 1 [4, 5, 6]],
    .cons_cons _ (.cons_cons _ (.cons _ .slnil))⟩
  let whole : Arrival default := ⟨short, [next], List.Sublist.refl _⟩
  have hlost : [c 0 [1, 2, 3], c 1 [4, 5, 6], next].Sublist
      ([long, short].map (·.chunks)).flatten :=
    .cons_cons _ (.cons_cons _ (.cons _ (.cons_cons _ .slnil)))
  obtain ⟨-, hstream, htx⟩ := completed_messages_of_lost_parts [long, short] _ hlost [tx]
    (List.pairwise_singleton _ _) [g₀, g₁] (List.Sublist.refl _)
  refine ⟨hlong, ?_, hsegments, ?_⟩
  · refine (hstream [cut, whole] rfl rfl .empty _ rfl).2.2 ?_
    refine List.forall_mem_cons.2 ⟨fun hended => ?_, List.forall_mem_cons.2 ⟨fun _ => rfl, ?_⟩⟩
    · simp [Part.Ended, Part.index, cut, long, c] at hended
    · exact fun d hd => absurd hd List.not_mem_nil
  · exact (htx tx (List.mem_singleton.2 rfl) .empty rfl).2.2 fun _ _ => rfl

/-- When a part is lost in the middle, what completes is no message that was sent, and no
transaction. -/
theorem completes_without_middle_part :
    (∃ chunks arrived message,
      Chunk.segments default none [1, 2, 3, 4, 5, 6, 7, 8, 9] 27 = .ok chunks ∧
        arrived.Sublist chunks ∧
        .complete message ∈ Reassembler.outcomesOf default .empty arrived ∧
        message ≠ [1, 2, 3, 4, 5, 6, 7, 8, 9]) ∧
      ∃ segments arrived raw,
        TxSegment.segments default .testnet (List.replicate 50 7) 64 = .ok segments ∧
          arrived.Sublist segments ∧
          .complete default .testnet raw ∈ TxReassembler.outcomesOf default .empty arrived ∧
          raw ≠ List.replicate 50 7 := by
  constructor
  · refine ⟨_, [_, _], [1, 2, 3, 7, 8, 9], rfl, .cons_cons _ (.cons _ (.cons_cons _ .slnil)), ?_,
      by decide⟩
    exact List.mem_cons_of_mem _ (List.mem_singleton.2 rfl)
  · refine ⟨_, [_, _], List.replicate 6 7, rfl, .cons_cons _ (.cons _ (.cons_cons _ .slnil)), ?_,
      by decide⟩
    exact List.mem_cons_of_mem _ (List.mem_singleton.2 rfl)

end Meshway
