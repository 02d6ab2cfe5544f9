import Meshway.Proofs.PacketSize
import Meshway.Proofs.Reassembly
set_option autoImplicit false

/-!
# A message crosses the radio unchanged (SPEC §8)

A message is cut into chunks, each is written into a packet and read from it,
and the receiver joins them.  Main statement: whatever the receiver was in the
middle of, and whatever arrives for other streams in between, the message comes
out at the last chunk and nothing of it is kept.

The size of a packet is a number of sixty-four bits, which is why no string in a
chunk is too long for its head.
-/

namespace Meshway

open Meshway.Cbor Meshway.Segmentation

namespace Chunk

variable {id : StreamId} {destination : Option Destination} {payload : Bytes} {chunks : List Chunk}

/-- The chunks of a message belong to its stream. -/
theorem streamId_of_mem_segments {max : Nat} (h : segments id destination payload max = .ok chunks)
    {c : Chunk} (hc : c ∈ chunks) : c.streamId = id := by
  obtain ⟨p, -, rfl⟩ := segments_eq_ok h
  obtain ⟨i, -, rfl⟩ := List.mem_map.1 hc
  rfl

/-- No chunk of a message that is not empty ends the stream. -/
theorem not_isClose_of_mem_segments {max : Nat}
    (h : segments id destination payload max = .ok chunks) (hne : payload ≠ []) {c : Chunk}
    (hc : c ∈ chunks) : c.isClose = false := by
  obtain ⟨p, hplan, rfl⟩ := segments_eq_ok h
  obtain ⟨hcovers, -, -⟩ := plan_eq_ok hplan
  obtain ⟨i, hi, rfl⟩ := List.mem_map.1 hc
  simpa [isClose, ofPart] using hcovers.slice_ne_nil hne (List.mem_range.1 hi)

/-- The first chunk of a message names the destination, if there is one, and no other does. -/
theorem destinations_segments {max : Nat} (h : segments id destination payload max = .ok chunks) :
    chunks.map (·.destination) = destination :: List.replicate (chunks.length - 1) none := by
  obtain ⟨p, hplan, rfl⟩ := segments_eq_ok h
  obtain ⟨hcovers, -, -⟩ := plan_eq_ok hplan
  obtain ⟨n, hn⟩ : ∃ n, p.count.toNat = n + 1 :=
    ⟨p.count.toNat - 1, by have := hcovers.count_pos; omega⟩
  have htail : ∀ i ∈ List.range' 1 n,
      (ofPart id destination p.count (i, p.slice payload i)).destination = none := by
    intro i hi
    have hne : i ≠ 0 := by
      have := List.mem_range'_1.1 hi
      omega
    simp [ofPart, hne]
  rw [hn, List.range_eq_range', List.range'_succ]
  simp only [List.map_cons, List.map_map, List.length_cons, List.length_map, List.length_range']
  congr 1
  rw [List.eq_replicate_iff]
  refine ⟨by simp, fun b hb => ?_⟩
  obtain ⟨i, hi, rfl⟩ := List.mem_map.1 hb
  exact htail i hi

/-- The chunks of a message have their place among each other. -/
theorem wellFormed_of_mem_segments {max : Nat}
    (h : segments id destination payload max = .ok chunks) {c : Chunk} (hc : c ∈ chunks) :
    c.WellFormed := by
  obtain ⟨p, -, rfl⟩ := segments_eq_ok h
  obtain ⟨i, hi, rfl⟩ := List.mem_map.1 hc
  have hi' : i < p.count.toNat := List.mem_range.1 hi
  have hlt : p.count.toNat < 256 := p.count.toNat_lt
  refine ⟨fun hd => ?_, fun _ => ?_⟩
  · cases i with
    | zero => rfl
    | succ i => exact absurd rfl hd
  · rw [UInt8.lt_iff_toNat_lt]
    simp only [ofPart, UInt8.toNat_ofNat']
    rw [Nat.mod_eq_of_lt (by omega)]
    exact hi'

/-- The strings of the chunks of a message fit their heads, because the packets do. -/
theorem sized_of_mem_segments {max : UInt64}
    (h : segments id destination payload max.toNat = .ok chunks) {c : Chunk} (hc : c ∈ chunks) :
    c.Sized := by
  have hmax : max.toNat < UInt64.size := max.toNat_lt
  have hlen := length_payload_le c
  have hfit := length_encode_of_mem_segments h hc
  obtain ⟨p, hplan, rfl⟩ := segments_eq_ok h
  obtain ⟨hcovers, hfirst, -⟩ := plan_eq_ok hplan
  obtain ⟨i, -, rfl⟩ := List.mem_map.1 hc
  refine ⟨by omega, fun d hd => ?_⟩
  have hdest : destination = some d := by
    cases i with
    | zero => exact hd
    | succ i => cases hd
  subst hdest
  have hhost := size_host_lt hcovers.first_pos hfirst
  omega

/-- Every chunk of a message is read back from its packet. -/
theorem decode_encode_of_mem_segments {max : UInt64}
    (h : segments id destination payload max.toNat = .ok chunks) {c : Chunk} (hc : c ∈ chunks) :
    Payload.decode (Payload.encode (.chunk c)) = .ok (.chunk c) :=
  Payload.decode_encode_chunk (wellFormed_of_mem_segments h hc) (sized_of_mem_segments h hc)

/-- So is the chunk that ends a stream. -/
theorem decode_encode_close (id : StreamId) :
    Payload.decode (Payload.encode (.chunk (close id))) = .ok (.chunk (close id)) := by
  have hformed : (close id).WellFormed := ⟨fun hd => absurd rfl hd, fun hne => absurd rfl hne⟩
  have hempty : ([] : Bytes).length < UInt64.size := by decide
  have hsized : (close id).Sized := ⟨hempty, fun d hd => by cases hd⟩
  exact Payload.decode_encode_chunk hformed hsized

/-- What is read from the packets of a message is its chunks. -/
theorem map_decode_encode_segments {max : UInt64}
    (h : segments id destination payload max.toNat = .ok chunks) :
    chunks.map (fun c => Payload.decode (Payload.encode (.chunk c))) =
      chunks.map (fun c => .ok (.chunk c)) :=
  List.map_congr_left fun _ hc => decode_encode_of_mem_segments h hc

end Chunk

namespace Reassembler

/-- A message that is cut into chunks, sent in packets and read from them comes out at the last of
its chunks, whatever the receiver has kept before and whatever arrives for other streams in between.
An empty message is one chunk, and ends the stream.  In either case nothing is kept of it. -/
theorem outcomesOf_received_segments (id : StreamId) (destination : Option Destination)
    (payload : Bytes) (max : UInt64) (chunks : List Chunk)
    (h : Chunk.segments id destination payload max.toNat = .ok chunks) :
    ∃ received : List Chunk,
      chunks.map (fun c => Payload.decode (Payload.encode (.chunk c))) =
        received.map (fun c => .ok (.chunk c)) ∧
      ∀ (r : Reassembler) (arrivals : List Chunk),
        arrivals.filter (fun c => c.streamId = id) = received →
          (payload ≠ [] → outcomesOf id r arrivals =
            List.replicate (chunks.length - 1) .pending ++ [.complete payload]) ∧
          (payload = [] → chunks.length = 1 ∧ outcomesOf id r arrivals = [.closed]) ∧
          (r.acceptAll arrivals).buffered id = 0 := by
  refine ⟨chunks, Chunk.map_decode_encode_segments h, ?_⟩
  intro r arrivals harrivals
  rw [outcomesOf_eq, buffered, held_acceptAll, harrivals]
  by_cases hne : payload = []
  · subst hne
    have hchunks := Chunk.segments_nil h
    have hclose : (Chunk.mk id destination 0 1 []).isClose = true := rfl
    simp [hchunks, Chunk.join_of_close hclose]
  · rw [Chunk.joinAll_segments h hne]
    exact ⟨fun _ => rfl, fun hnil => absurd hnil hne, rfl⟩

/-- Three chunks in packets of forty octets, after a beginning that was never completed, with a
chunk of another stream among them. -/
theorem outcomesOf_received_three_chunks :
    ∃ c₀ c₁ c₂ : Chunk,
      Chunk.segments default (some ⟨"a", 80⟩) (List.replicate 30 7) (40 : UInt64).toNat =
        .ok [c₀, c₁, c₂] ∧
      outcomesOf default (empty.accept ⟨default, none, 0, 2, [9]⟩).2
        [c₀, ⟨⟨List.replicate 8 1, rfl⟩, none, 0, 2, [8]⟩, c₁, c₂] =
        [.pending, .pending, .complete (List.replicate 30 7)] := by
  have h : Chunk.segments default (some ⟨"a", 80⟩) (List.replicate 30 7) (40 : UInt64).toNat =
      .ok [⟨default, some ⟨"a", 80⟩, 0, 3, List.replicate 12 7⟩,
        ⟨default, none, 1, 3, List.replicate 16 7⟩, ⟨default, none, 2, 3, [7, 7]⟩] := rfl
  refine ⟨_, _, _, h, ?_⟩
  obtain ⟨received, hdecoded, hjoined⟩ := outcomesOf_received_segments _ _ _ _ _ h
  have hreceived : received = _ :=
    (List.map_inj_right fun _ _ he => by cases he; rfl).1
      (hdecoded.symm.trans (Chunk.map_decode_encode_segments h))
  subst hreceived
  exact (hjoined _ _ rfl).1 (by decide)

end Reassembler

end Meshway
