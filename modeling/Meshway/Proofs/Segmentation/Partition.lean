import Meshway.Proofs.PacketSize
set_option autoImplicit false

/-!
# A payload is cut exactly, and into as few parts as can be (SPEC §4.2, §8)

How many parts a payload is cut into is worked out beforehand, from two
capacities, and the parts are cut off one after the other, each as large as its
capacity.  Main statement: the parts are as many as was worked out, they are the
payload, all but the last are full, and no other way to cut the payload within
the same capacities needs fewer.  Cutting fails only if there is no room in a
packet, or if no way to cut the payload has few enough parts.
-/

namespace Meshway

namespace Segmentation

/-! ## Taking parts one after the other -/

namespace Cutter

theorem next?_eq_none_iff {c : Cutter} : c.next? = none ↔ c.left = 0 := by
  unfold next? left
  split <;> simp <;> omega

theorem left_of_next? {c c' : Cutter} {part : Nat × Bytes} (h : c.next? = some (part, c')) :
    c.left = c'.left + 1 := by
  unfold next? at h
  split at h
  · cases h
  · cases h
    simp only [left]
    omega

/-- Each part that is taken is one fewer to come. -/
theorem left_take (n : Nat) (c : Cutter) : (take n c).2.left = c.left - n := by
  induction n generalizing c with
  | zero => rfl
  | succ n ih =>
    rw [take]
    cases hnext : c.next? with
    | none =>
      have hleft := next?_eq_none_iff.1 hnext
      simp [hleft]
    | some next =>
      obtain ⟨part, c'⟩ := next
      have hleft := left_of_next? hnext
      simp only [ih]
      omega

/-- However many parts are asked for, the first of all the parts are taken. -/
theorem fst_take (n : Nat) (c : Cutter) : (take n c).1 = c.toList.take n := by
  unfold toList
  induction n generalizing c with
  | zero => rfl
  | succ n ih =>
    cases hnext : c.next? with
    | none =>
      have hleft := next?_eq_none_iff.1 hnext
      simp [take, hnext, hleft]
    | some next =>
      obtain ⟨part, c'⟩ := next
      simp [take, hnext, left_of_next? hnext, ih]

end Cutter

/-! ## Ways to cut a payload -/

/-- A way to cut a payload: parts that are the payload when joined, the first of them within one
capacity and the others within another. -/
structure Split (first rest : Nat) (payload : Bytes) (parts : List Bytes) : Prop where
  flatten_eq : parts.flatten = payload
  head_le : ∀ part ∈ parts.head?, part.length ≤ first
  tail_le : ∀ part ∈ parts.tail, part.length ≤ rest

theorem length_flatten_le {size : Nat} {parts : List Bytes}
    (h : ∀ part ∈ parts, part.length ≤ size) : parts.flatten.length ≤ parts.length * size := by
  induction parts with
  | nil => simp
  | cons part parts ih =>
    obtain ⟨hpart, hparts⟩ := List.forall_mem_cons.1 h
    have hrest := ih hparts
    rw [List.flatten_cons, List.length_append, List.length_cons, Nat.succ_mul]
    omega

/-- No way to cut a payload has fewer parts than are worked out for it. -/
theorem Split.segmentCount_le {first rest : Nat} {payload : Bytes} {parts : List Bytes}
    (h : Split first rest payload parts) (hrest : 0 < rest) (hne : parts ≠ []) :
    segmentCount payload.length first rest ≤ parts.length := by
  cases parts with
  | nil => exact absurd rfl hne
  | cons part parts =>
    have hpart := h.head_le part rfl
    have hparts := length_flatten_le h.tail_le
    rw [List.length_cons, segmentCount_le_iff hrest, ← h.flatten_eq, List.flatten_cons,
      List.length_append]
    rw [List.tail_cons] at hparts
    omega

namespace Plan.Covers

variable {p : Plan} {payload : Bytes}

/-- Every part but the last ends within the payload. -/
theorem offset_lt {size k : Nat} (h : p.Covers size) (hk : k + 1 < p.count.toNat) :
    p.offset (k + 1) < size := by
  rw [h.count_eq] at hk
  exact offset_lt_of_lt_segmentCount h.rest_pos hk

/-- Every part but the last is full. -/
theorem length_slice (h : p.Covers payload.length) {k : Nat} (hk : k + 1 < p.count.toNat) :
    (p.slice payload k).length = p.room k := by
  have hoffset := h.offset_lt hk
  rw [Plan.offset_succ] at hoffset
  rw [Plan.slice, List.length_take, List.length_drop]
  omega

/-- The parts of a plan are a way to cut the payload. -/
theorem split (h : p.Covers payload.length) :
    Split p.first p.rest payload ((List.range p.count.toNat).map (p.slice payload)) := by
  obtain ⟨n, hn⟩ : ∃ n, p.count.toNat = n + 1 :=
    ⟨p.count.toNat - 1, by have := h.count_pos; omega⟩
  refine ⟨h.flatten_eq, fun part hpart => ?_, fun part hpart => ?_⟩
  · rw [hn, List.range_succ_eq_map, List.map_cons, List.head?_cons] at hpart
    cases hpart
    exact length_slice_le p payload 0
  · rw [hn, List.range_succ_eq_map, List.map_cons, List.tail_cons, List.map_map] at hpart
    obtain ⟨i, -, rfl⟩ := List.mem_map.1 hpart
    exact length_slice_le p payload (i + 1)

end Plan.Covers

/-! ## Why there may be no plan -/

/-- There is no plan for a payload just when every way to cut it has more parts than can be
numbered. -/
theorem tooMany_iff {first rest : Nat} {payload : Bytes} (hfirst : 0 < first) (hrest : 0 < rest) :
    (∃ count, plan payload.length first rest = .error (.tooManySegments count)) ↔
      ∀ parts, Split first rest payload parts → 255 < parts.length := by
  constructor
  · rintro ⟨count, hplan⟩ parts hsplit
    have hmany : ¬ segmentCount payload.length first rest ≤ 255 := by
      intro hle
      simp [plan, maxSegments, hle] at hplan
    by_cases hne : parts = []
    · -- no parts are a way to cut the empty payload only, and that is one part
      obtain rfl : [] = payload := by simpa [hne] using hsplit.flatten_eq
      simp [segmentCount] at hmany
    · have hle := hsplit.segmentCount_le hrest hne
      omega
  · intro hsplits
    cases hplan : plan payload.length first rest with
    | ok p =>
      obtain ⟨hf, hr, hc⟩ := count_of_plan hplan
      have hcovers : p.Covers payload.length := ⟨hf ▸ hfirst, hr ▸ hrest, by rw [hc, hf, hr]⟩
      have hmany := hsplits _ (hf ▸ hr ▸ hcovers.split)
      have hlt : p.count.toNat < 256 := p.count.toNat_lt
      rw [List.length_map, List.length_range] at hmany
      omega
    | error fault =>
      obtain ⟨count, rfl⟩ := tooMany_of_plan hplan
      exact ⟨count, rfl⟩

/-- Why there is no plan, if it is made for two capacities unless the packet is too small. -/
theorem faults_iff {planned : Except Fault Plan} {payload : Bytes} {max o first rest : Nat}
    (hsmall : max ≤ o → ∃ o', planned = .error (.packetTooSmall max o'))
    (hroom : o < max → 0 < first ∧ 0 < rest ∧ planned = plan payload.length first rest) :
    ((∃ count, planned = .error (.tooManySegments count)) ↔
      o < max ∧ ∀ parts, Split first rest payload parts → 255 < parts.length) ∧
    ((∃ m o', planned = .error (.packetTooSmall m o')) ↔ max ≤ o) := by
  by_cases h : max ≤ o
  · obtain ⟨o', rfl⟩ := hsmall h
    simp [h, Nat.not_lt.2 h]
  · obtain ⟨hfirst, hrest, rfl⟩ := hroom (Nat.lt_of_not_le h)
    rw [tooMany_iff hfirst hrest]
    refine ⟨by simp [Nat.lt_of_not_le h], ?_⟩
    constructor
    · rintro ⟨m, o', hplan⟩
      obtain ⟨count, hfault⟩ := tooMany_of_plan hplan
      cases hfault
    · exact fun hle => absurd hle h

/-! ## What is cut -/

variable {α : Type} [Part α]

/-- Items that carry the parts of a payload as a plan has them.  They are a way to cut the payload
that no other undercuts, as many as planned and numbered from zero on; none is empty unless the
payload is, and all but the last are full.  However many are asked for, the first of them are made,
and it is told how many are still to come. -/
structure Exact (p : Plan) (payload : Bytes) (make : Nat × Bytes → α) (items : List α) : Prop where
  split : Split p.first p.rest payload (items.map Part.payload)
  least : ∀ parts, parts ≠ [] → Split p.first p.rest payload parts → items.length ≤ parts.length
  length_eq : items.length = p.count.toNat
  index_eq : items.map (fun c => (Part.index c).toNat) = List.range items.length
  ne_nil : payload ≠ [] → ∀ c ∈ items, Part.payload c ≠ []
  full : ∀ c ∈ items, (Part.index c).toNat + 1 < items.length →
    (Part.payload c).length = p.room (Part.index c).toNat
  taken : ∀ n, ((p.start payload).take n).1.map make = items.take n
  left : ∀ n, ((p.start payload).take n).2.left = (items.drop n).length

/-- What carries the parts of a plan carries them exactly. -/
theorem Plan.Covers.exact {p : Plan} {payload : Bytes} (h : p.Covers payload.length)
    {make : Nat × Bytes → α} (hindex : ∀ part, Part.index (make part) = UInt8.ofNat part.1)
    (hpayload : ∀ part, Part.payload (make part) = part.2) :
    Exact p payload make ((List.range p.count.toNat).map fun i => make (i, p.slice payload i)) := by
  have hnumber : ∀ i, i < p.count.toNat →
      (Part.index (make (i, p.slice payload i))).toNat = i := by
    intro i hi
    rw [hindex]
    exact UInt8.toNat_ofNat_of_lt' (Nat.lt_trans hi p.count.toNat_lt)
  have hparts : ((List.range p.count.toNat).map fun i => make (i, p.slice payload i)).map
      Part.payload = (List.range p.count.toNat).map (p.slice payload) := by
    rw [List.map_map]
    exact List.map_congr_left fun i _ => hpayload _
  have hlength : ((List.range p.count.toNat).map fun i => make (i, p.slice payload i)).length =
      p.count.toNat := by simp
  constructor
  case split => exact hparts ▸ h.split
  case least =>
    intro parts hne hsplit
    rw [hlength, h.count_eq]
    exact hsplit.segmentCount_le h.rest_pos hne
  case length_eq => exact hlength
  case index_eq =>
    rw [hlength, List.map_map]
    exact (List.map_congr_left fun i hi => hnumber i (List.mem_range.1 hi)).trans (List.map_id _)
  case ne_nil =>
    intro hne c hc
    obtain ⟨i, hi, rfl⟩ := List.mem_map.1 hc
    rw [hpayload]
    exact h.slice_ne_nil hne (List.mem_range.1 hi)
  case full =>
    intro c hc hlast
    obtain ⟨i, hi, rfl⟩ := List.mem_map.1 hc
    rw [hlength, hnumber i (List.mem_range.1 hi)] at hlast
    rw [hpayload, hnumber i (List.mem_range.1 hi)]
    exact h.length_slice hlast
  case taken =>
    intro n
    rw [Cutter.fst_take, p.toList_start, List.map_take, List.map_map]
    rfl
  case left =>
    intro n
    rw [Cutter.left_take, List.length_drop, hlength]
    rfl

end Segmentation

open Segmentation

/-! ## Chunks and segments -/

/-- The number of a part is zero in one octet only if it is zero. -/
theorem Segmentation.ofNat_eq_zero_iff {k : Nat} {count : UInt8} (h : k < count.toNat) :
    UInt8.ofNat k = 0 ↔ k = 0 := by
  rw [← UInt8.toNat_inj, UInt8.toNat_ofNat_of_lt' (Nat.lt_trans h count.toNat_lt)]
  rfl

namespace Chunk

variable {id : StreamId} {destination : Option Destination} {max : Nat}

/-- There is no plan for chunks if the first of them leaves no room. -/
theorem plan_of_small (h : max ≤ overhead (shapeLength id destination) max) (size : Nat) :
    ∃ o, plan id destination size max = .error (.packetTooSmall max o) := by
  unfold plan capacity
  by_cases hrest : max ≤ overhead (shapeLength id none) max
  · exact ⟨_, by rw [if_pos hrest]⟩
  · rw [if_neg hrest]
    cases destination with
    | none => exact absurd h hrest
    | some d =>
      refine ⟨overhead (shapeLength id (some d)) max, ?_⟩
      simp only [if_pos h]

/-- Otherwise it is made for the room in the first chunk and in the others. -/
theorem plan_of_room (h : overhead (shapeLength id destination) max < max) (size : Nat) :
    0 < max - overhead (shapeLength id destination) max ∧
      0 < max - overhead (shapeLength id none) max ∧
      plan id destination size max =
        Segmentation.plan size (max - overhead (shapeLength id destination) max)
          (max - overhead (shapeLength id none) max) := by
  have hshape := shapeLength_none_le id destination
  have hrest : ¬ max ≤ overhead (shapeLength id none) max := by
    unfold overhead at h ⊢
    omega
  refine ⟨by omega, by omega, ?_⟩
  unfold plan capacity
  rw [if_neg hrest]
  cases destination with
  | none => rfl
  | some d => simp only [if_neg (Nat.not_le.2 h)]

/-- The chunks of a plan carry the parts of the message, and the first of them the destination. -/
theorem exact_of_plan {message : Bytes} {p : Plan}
    (h : plan id destination message.length max = .ok p) :
    ∃ chunks, segments id destination message max = .ok chunks ∧
      Exact p message (ofPart id destination p.count) chunks ∧
      ∀ c ∈ chunks, c.count = p.count ∧
        c.destination = if c.index = 0 then destination else none := by
  obtain ⟨hcovers, -, -⟩ := plan_eq_ok h
  refine ⟨_, ?_, hcovers.exact (fun _ => rfl) (fun _ => rfl), fun c hc => ?_⟩
  · simp only [segments, h, Plan.toList_start, List.map_map]
    rfl
  · obtain ⟨i, hi, rfl⟩ := List.mem_map.1 hc
    have hindex := ofNat_eq_zero_iff (List.mem_range.1 hi)
    simp [ofPart, hindex]

theorem segments_eq_error_iff {payload : Bytes} {fault : Segmentation.Fault} :
    segments id destination payload max = .error fault ↔
      plan id destination payload.length max = .error fault := by
  unfold segments
  split <;> simp_all

end Chunk

namespace TxSegment

variable {txId : TxId} {network : Network} {max size : Nat}

/-- There is no plan for segments if the first of them leaves no room. -/
theorem plan_of_small (hsize : size ≠ 0)
    (h : max ≤ overhead (shapeLength txId.short (some ⟨txId, 255, network⟩)) max) :
    ∃ o, plan txId network size max = .error (.packetTooSmall max o) := by
  refine ⟨overhead (shapeLength txId.short (some ⟨txId, 255, network⟩)) max, ?_⟩
  unfold plan capacity
  simp only [if_neg hsize, if_pos h]

/-- Otherwise it is made for the room in the first segment and in the others. -/
theorem plan_of_room (hsize : size ≠ 0)
    (h : overhead (shapeLength txId.short (some ⟨txId, 255, network⟩)) max < max) :
    0 < max - overhead (shapeLength txId.short (some ⟨txId, 255, network⟩)) max ∧
      0 < max - overhead (shapeLength txId.short none) max ∧
      plan txId network size max =
        Segmentation.plan size
          (max - overhead (shapeLength txId.short (some ⟨txId, 255, network⟩)) max)
          (max - overhead (shapeLength txId.short none) max) := by
  have hshape := shapeLength_none_le txId.short (some ⟨txId, 255, network⟩)
  have hrest : ¬ max ≤ overhead (shapeLength txId.short none) max := by
    unfold overhead at h ⊢
    omega
  refine ⟨by omega, by omega, ?_⟩
  unfold plan capacity
  simp only [if_neg hsize, if_neg (Nat.not_le.2 h), if_neg hrest]

/-- The segments of a plan carry the parts of the transaction, and the first of them what only it
says. -/
theorem exact_of_plan {raw : Bytes} {p : Plan} (h : plan txId network raw.length max = .ok p) :
    ∃ segments, TxSegment.segments txId network raw max = .ok segments ∧
      Exact p raw (ofPart txId network p.count) segments ∧
      ∀ s ∈ segments,
        s.opening = if s.index = 0 then some ⟨txId, p.count, network⟩ else none := by
  obtain ⟨-, hcovers, -⟩ := plan_eq_ok h
  refine ⟨_, ?_, hcovers.exact (fun _ => rfl) (fun _ => rfl), fun s hs => ?_⟩
  · simp only [TxSegment.segments, h, Plan.toList_start, List.map_map]
    rfl
  · obtain ⟨i, hi, rfl⟩ := List.mem_map.1 hs
    have hindex := ofNat_eq_zero_iff (List.mem_range.1 hi)
    simp [ofPart, hindex]

theorem segments_eq_error_iff {raw : Bytes} {fault : Segmentation.Fault} :
    TxSegment.segments txId network raw max = .error fault ↔
      plan txId network raw.length max = .error fault := by
  unfold TxSegment.segments
  split <;> simp_all

end TxSegment

namespace Segmentation

/-- The chunks of a message and the segments of a transaction carry its parts exactly, and number
and name them as the receiver needs it; the first of them has no more room than the others.  Cutting
fails because of the packet just when the first of them leaves no room in it, and because of the
payload just when every way to cut it within the same room has more parts than can be numbered. -/
theorem segments_exact (max : Nat) :
    (∀ (id : StreamId) (destination : Option Destination) (message : Bytes),
      let around := overhead (Chunk.shapeLength id destination) max
      let first := max - around
      let rest := max - overhead (Chunk.shapeLength id none) max
      (∀ p, Chunk.plan id destination message.length max = .ok p →
        p.first = first ∧ p.rest = rest ∧ first ≤ rest ∧
        ∃ chunks, Chunk.segments id destination message max = .ok chunks ∧
          Exact p message (Chunk.ofPart id destination p.count) chunks ∧
          ∀ c ∈ chunks, c.count = p.count ∧
            c.destination = if c.index = 0 then destination else none) ∧
      ((∃ count, Chunk.segments id destination message max = .error (.tooManySegments count)) ↔
        around < max ∧ ∀ parts, Split first rest message parts → 255 < parts.length) ∧
      ((∃ m o, Chunk.segments id destination message max = .error (.packetTooSmall m o)) ↔
        max ≤ around)) ∧
    (∀ (txId : TxId) (network : Network) (raw : Bytes),
      let around := overhead (TxSegment.shapeLength txId.short (some ⟨txId, 255, network⟩)) max
      let first := max - around
      let rest := max - overhead (TxSegment.shapeLength txId.short none) max
      (∀ p, TxSegment.plan txId network raw.length max = .ok p →
        p.first = first ∧ p.rest = rest ∧ first ≤ rest ∧
        ∃ segments, TxSegment.segments txId network raw max = .ok segments ∧
          Exact p raw (TxSegment.ofPart txId network p.count) segments ∧
          ∀ s ∈ segments,
            s.opening = if s.index = 0 then some ⟨txId, p.count, network⟩ else none) ∧
      ((∃ count, TxSegment.segments txId network raw max = .error (.tooManySegments count)) ↔
        around < max ∧ ∀ parts, Split first rest raw parts → 255 < parts.length) ∧
      (raw ≠ [] →
        ((∃ m o, TxSegment.segments txId network raw max = .error (.packetTooSmall m o)) ↔
          max ≤ around))) := by
  constructor
  · intro id destination message around first rest
    simp only [Chunk.segments_eq_error_iff]
    refine ⟨fun p hplan => ?_, faults_iff (Chunk.plan_of_small · _) (Chunk.plan_of_room · _)⟩
    obtain ⟨-, hfirst, hrest⟩ := Chunk.plan_eq_ok hplan
    have hle := Chunk.first_le_rest hplan
    exact ⟨by omega, by omega, by omega, Chunk.exact_of_plan hplan⟩
  · intro txId network raw around first rest
    simp only [TxSegment.segments_eq_error_iff]
    refine ⟨fun p hplan => ?_, ?_⟩
    · obtain ⟨-, -, hfirst, hrest⟩ := TxSegment.plan_eq_ok hplan
      have hle := TxSegment.first_le_rest hplan
      exact ⟨by omega, by omega, by omega, TxSegment.exact_of_plan hplan⟩
    · by_cases hraw : raw = []
      · -- there is nothing to cut, which no parts do
        subst hraw
        have hempty : Split first rest [] [] := ⟨rfl, by simp, by simp⟩
        refine ⟨⟨fun ⟨count, hcount⟩ => ?_, fun ⟨_, hsplits⟩ => ?_⟩, fun hne => absurd rfl hne⟩
        · simp [TxSegment.plan] at hcount
        · exact absurd (hsplits [] hempty) (by decide)
      · have hsize : raw.length ≠ 0 := fun h => hraw (List.length_eq_zero_iff.1 h)
        obtain ⟨hmany, hsmall⟩ :=
          faults_iff (TxSegment.plan_of_small hsize) (TxSegment.plan_of_room hsize)
        exact ⟨hmany, fun _ => hsmall⟩

/-- A message that fills two chunks, another that is one octet too long for 255 of them, and a
transaction that fills two segments; a packet of sixty octets has no room for a transaction. -/
theorem segments_exact_of_full_parts :
    let d : Option Destination := some ⟨"a", 80⟩
    let many : Bytes := List.replicate 4077 7
    ∃ (chunks : List Chunk) (segments : List TxSegment),
      Chunk.plan default d 28 40 = .ok ⟨12, 16, 2⟩ ∧
      Chunk.segments default d (List.replicate 28 7) 40 = .ok chunks ∧
      Exact ⟨12, 16, 2⟩ (List.replicate 28 7) (Chunk.ofPart default d 2) chunks ∧
      Chunk.segments default d many 40 = .error (.tooManySegments 256) ∧
      (∀ parts, Split 12 16 many parts → 255 < parts.length) ∧
      TxSegment.plan default .testnet 48 64 = .ok ⟨4, 44, 2⟩ ∧
      TxSegment.segments default .testnet (List.replicate 48 1) 64 = .ok segments ∧
      Exact ⟨4, 44, 2⟩ (List.replicate 48 1) (TxSegment.ofPart default .testnet 2) segments ∧
      ∃ m o, TxSegment.segments default .testnet [1] 60 = .error (.packetTooSmall m o) := by
  intro d many
  have hplan : Chunk.plan default d (List.replicate 28 (7 : UInt8)).length 40 = .ok ⟨12, 16, 2⟩ :=
    rfl
  have htxPlan : TxSegment.plan default .testnet (List.replicate 48 (1 : UInt8)).length 64 =
      .ok ⟨4, 44, 2⟩ := rfl
  have hmany : Chunk.segments default d many 40 = .error (.tooManySegments 256) := by
    have hfault : Chunk.plan default d 4077 40 = .error (.tooManySegments 256) := rfl
    rw [Chunk.segments_eq_error_iff, List.length_replicate, hfault]
  obtain ⟨-, -, -, chunks, hchunks, hexact, -⟩ := ((segments_exact 40).1 default d _).1 _ hplan
  obtain ⟨-, -, -, segments, hsegments, htxExact, -⟩ :=
    ((segments_exact 64).2 default .testnet _).1 _ htxPlan
  have hsplits := (((segments_exact 40).1 default d many).2.1.1 ⟨_, hmany⟩).2
  exact ⟨chunks, segments, hplan, hchunks, hexact, hmany, hsplits, htxPlan, hsegments, htxExact,
    (((segments_exact 60).2 default .testnet [1]).2.2 (by decide)).2 (Nat.le_refl 60)⟩

end Segmentation

end Meshway
