import Meshway.Proofs.Segmentation.Partition
import Meshway.Proofs.Words
set_option autoImplicit false

/-!
# Cutting in words of 64 bits (SPEC §4.2, §10.3 item 7)

Sizes are worked out in words of 64 bits and parts are counted in octets, and a
packet may be said to be as large as a word can tell.  Here a payload is cut in
arithmetic that stops where a result would not be exact.  Main statement: it
never stops, for payloads of up to 2^62 octets and hosts shorter than 2^32, and
what comes out is what comes out over the natural numbers.

Only the first part can have a room near the largest word, and it begins at
offset zero.  Where there are more parts, the first was too small for the
payload, and the room of the others exceeds it only by what the first says
besides.
-/

namespace Meshway

open Meshway.Cbor

namespace Words

/-! ## Sizes -/

/-- A computation that may stop, or find that the payload cannot be cut. -/
abbrev Cutting (α : Type) : Type := ExceptT Segmentation.Fault (Except Trap) α

/-- The number of octets of a head that carries `n`. -/
def headLength (n : UInt64) : UInt64 :=
  if n < 24 then 1
  else if n < 0x100 then 2
  else if n < 0x10000 then 3
  else if n < 0x100000000 then 5
  else 9

/-- What the fields around a part take up. -/
def overhead (shape max : UInt64) : Checked UInt64 := do
  add (← sub shape (headLength 0)) (headLength max)

/-- The room that a shape leaves in a packet. -/
def capacity (max overhead : UInt64) : Cutting UInt64 := do
  if max ≤ overhead then throw (.packetTooSmall max.toNat overhead.toNat)
  else sub max overhead

/-- The room that a shape of `shape` octets leaves in a packet. -/
def room (shape : Nat) (max : UInt64) : Cutting UInt64 := do
  let shape ← word shape
  let around ← overhead shape max
  capacity max around

/-- The number of parts of a payload of `size` octets. -/
def segmentCount (size first rest : UInt64) : Checked UInt64 := do
  if size ≤ first then return 1
  else
    let left ← sub size first
    let above ← sub (← add left rest) 1
    add 1 (← div above rest)

/-- How a payload is cut. -/
structure Plan where
  first : UInt64
  rest : UInt64
  count : UInt8
  deriving DecidableEq, Repr

/-- The plan for a payload of `size` octets. -/
def plan (size : Nat) (first rest : UInt64) : Cutting Plan := do
  let size ← word size
  let count ← segmentCount size first rest
  if count ≤ 255 then return ⟨first, rest, count.toUInt8⟩
  else throw (.tooManySegments count.toNat)

/-- The plan for a message of `size` octets in packets of `max` octets. -/
def chunkPlan (id : StreamId) (destination : Option Destination) (size : Nat) (max : UInt64) :
    Cutting Plan := do
  let rest ← room (Chunk.shapeLength id none) max
  match destination with
  | none => plan size rest rest
  | some d =>
    let first ← room (Chunk.shapeLength id (some d)) max
    plan size first rest

/-- The plan for a transaction of `size` octets in packets of `max` octets. -/
def txPlan (txId : TxId) (network : Network) (size : Nat) (max : UInt64) : Cutting Plan := do
  if size = 0 then throw .emptyPayload
  else
    let first ← room (TxSegment.shapeLength txId.short (some ⟨txId, 255, network⟩)) max
    let rest ← room (TxSegment.shapeLength txId.short none) max
    plan size first rest

/-! ## Cutting -/

/-- A payload that is being cut: the number of the next part and where it begins. -/
structure Cutter where
  plan : Plan
  payload : Bytes
  next : UInt8
  offset : UInt64

/-- A payload of which nothing has been cut off. -/
def Plan.start (p : Plan) (payload : Bytes) : Cutter := ⟨p, payload, 0, 0⟩

namespace Cutter

/-- How many parts are still to come. -/
def left (c : Cutter) : Checked UInt8 := subOctet c.plan.count c.next

/-- The room for the next part. -/
def nextSize (c : Cutter) : UInt64 := if c.next = 0 then c.plan.first else c.plan.rest

/-- The next part with its number, and what remains to be cut. -/
def next? (c : Cutter) : Checked (Option ((UInt8 × Bytes) × Cutter)) := do
  if c.plan.count ≤ c.next then return none
  else
    let reach ← add c.offset c.nextSize
    let stop := min reach (← word c.payload.length)
    let part ← slice c.payload c.offset stop
    let next ← addOctet c.next 1
    return some ((c.next, part), { c with next, offset := stop })

/-- At most `n` parts, and what remains to be cut. -/
def take : Nat → Cutter → Checked (List (UInt8 × Bytes) × Cutter)
  | 0, c => return ([], c)
  | n + 1, c => do
    match ← c.next? with
    | none => return ([], c)
    | some (part, c) =>
      let (parts, c) ← take n c
      return (part :: parts, c)

/-- All the parts still to come. -/
def toList (c : Cutter) : Checked (List (UInt8 × Bytes)) := do
  let left ← c.left
  let (parts, _) ← take left.toNat c
  return parts

end Cutter

/-- The number and the octets of a part. -/
def part (x : UInt8 × Bytes) : Nat × Bytes := (x.1.toNat, x.2)

/-- What carries the parts of a payload. -/
def cut {α : Type} (planned : Cutting Plan) (payload : Bytes)
    (make : UInt8 → Nat × Bytes → α) : Cutting (List α) := do
  let p ← planned
  let parts ← (p.start payload).toList
  return (parts.map part).map (make p.count)

/-- The chunks of a message in packets of `max` octets. -/
def chunks (id : StreamId) (destination : Option Destination) (payload : Bytes) (max : UInt64) :
    Cutting (List Chunk) :=
  cut (chunkPlan id destination payload.length max) payload (Chunk.ofPart id destination)

/-- The segments of a transaction in packets of `max` octets. -/
def segments (txId : TxId) (network : Network) (raw : Bytes) (max : UInt64) :
    Cutting (List TxSegment) :=
  cut (txPlan txId network raw.length max) raw (TxSegment.ofPart txId network)

/-! ## Agreement with the natural numbers -/

/-- A computation in words does not stop, and has the outcome of one that needs no words, once its
result is read as numbers. -/
inductive Agrees {α β : Type} (value : α → β) :
    Cutting α → Except Segmentation.Fault β → Prop where
  | ok (a : α) : Agrees value (pure a) (.ok (value a))
  | error (e : Segmentation.Fault) : Agrees value (throw e) (.error e)

section Agreement

variable {α β γ δ : Type} {value : α → β} {value' : γ → δ}

/-- A computation goes on with what another has found, unless that has found a fault. -/
theorem Agrees.bind {x : Cutting α} {y : Except Segmentation.Fault β} {f : α → Cutting γ}
    {z : Except Segmentation.Fault δ} (hx : Agrees value x y)
    (hfault : ∀ e, y = .error e → z = .error e)
    (hok : ∀ a, y = .ok (value a) → Agrees value' (f a) z) : Agrees value' (x >>= f) z := by
  cases hx with
  | ok a => exact hok a rfl
  | error e =>
    rw [hfault e rfl]
    exact .error e

/-- A step of arithmetic that does not stop. -/
theorem Agrees.step {x : Checked α} {a : α} {f : α → Cutting γ}
    {y : Except Segmentation.Fault δ} (hx : x = .ok a) (hf : Agrees value' (f a) y) :
    Agrees value' (liftM x >>= f) y := by
  subst hx
  exact hf

end Agreement

theorem toNat_headLength (n : UInt64) : (headLength n).toNat = Cbor.headLength n.toNat := by
  simp [headLength, Cbor.headLength, apply_ite UInt64.toNat, UInt64.lt_iff_toNat_lt]

theorem headLength_le (n : Nat) : Cbor.headLength n ≤ 9 := by
  unfold Cbor.headLength
  repeat' split
  all_goals omega

theorem overhead_of_lt {shape : UInt64} (hpos : Cbor.headLength 0 ≤ shape.toNat)
    (hlt : shape.toNat + 9 < 2 ^ 64) (max : UInt64) :
    ∃ o, overhead shape max = .ok o ∧
      o.toNat = Segmentation.overhead shape.toNat max.toNat := by
  have hhead := headLength_le max.toNat
  obtain ⟨fields, hfields, hsub⟩ := sub_of_le (a := shape) (b := headLength 0) hpos
  obtain ⟨o, ho, hadd⟩ : ∃ o, add fields (headLength max) = .ok o ∧ _ :=
    add_of_lt (by rw [hsub, toNat_headLength max]; omega)
  refine ⟨o, ?_, ?_⟩
  · rw [overhead, hfields]
    exact ho
  · rw [hadd, hsub, toNat_headLength, toNat_headLength]
    rfl

theorem capacity_agrees (max overhead : UInt64) :
    Agrees UInt64.toNat (capacity max overhead)
      (Segmentation.capacity max.toNat overhead.toNat) := by
  unfold capacity Segmentation.capacity
  by_cases h : max ≤ overhead
  · rw [if_pos h, if_pos (UInt64.le_iff_toNat_le.1 h)]
    exact .error _
  · have hlt : overhead.toNat < max.toNat := UInt64.lt_iff_toNat_lt.1 (UInt64.not_le.1 h)
    obtain ⟨w, hw, hsub⟩ := sub_of_le (Nat.le_of_lt hlt)
    rw [if_neg h, if_neg (Nat.not_le.2 hlt), hw, ← hsub]
    exact .ok w

theorem room_agrees {shape : Nat} (hpos : Cbor.headLength 0 ≤ shape) (hlt : shape + 9 < 2 ^ 64)
    (max : UInt64) :
    Agrees UInt64.toNat (room shape max)
      (Segmentation.capacity max.toNat (Segmentation.overhead shape max.toNat)) := by
  obtain ⟨w, hword, rfl⟩ := word_of_lt (n := shape) (by omega)
  obtain ⟨o, ho, hval⟩ := overhead_of_lt hpos hlt max
  rw [← hval]
  exact .step hword (.step ho (capacity_agrees max o))

/-- Parts can be counted if what is left after the first and one more part fit a word. -/
theorem segmentCount_of_lt {size first rest : UInt64} (hrest : 0 < rest.toNat)
    (hfits : first.toNat < size.toNat → size.toNat + rest.toNat < 2 ^ 64) :
    ∃ n, segmentCount size first rest = .ok n ∧
      n.toNat = Segmentation.segmentCount size.toNat first.toNat rest.toNat := by
  unfold segmentCount Segmentation.segmentCount
  by_cases h : size ≤ first
  · rw [if_pos h, if_pos (UInt64.le_iff_toNat_le.1 h)]
    exact ⟨1, rfl, rfl⟩
  · have hlt : first.toNat < size.toNat := UInt64.lt_iff_toNat_lt.1 (UInt64.not_le.1 h)
    -- each intermediate result is at most `size + rest`
    have hsum := hfits hlt
    rw [if_neg h, if_neg (Nat.not_le.2 hlt)]
    obtain ⟨left, hleft, hleftval⟩ := sub_of_le (a := size) (b := first) (Nat.le_of_lt hlt)
    obtain ⟨sum, hadd, hsumval⟩ := add_of_lt (a := left) (b := rest) (by omega)
    obtain ⟨above, habove, haboveval⟩ : ∃ w, sub sum 1 = .ok w ∧ w.toNat = sum.toNat - 1 :=
      sub_of_le (by change 1 ≤ _; omega)
    obtain ⟨more, hmore, hmoreval⟩ := div_of_pos (a := above) hrest
    have hle : more.toNat ≤ above.toNat := hmoreval ▸ Nat.div_le_self _ _
    obtain ⟨n, hn, hnval⟩ : ∃ w, add 1 more = .ok w ∧ w.toNat = 1 + more.toNat :=
      add_of_lt (by change 1 + _ < _; omega)
    refine ⟨n, ?_, by rw [hnval, hmoreval, haboveval, hsumval, hleftval]⟩
    simp only [hleft, hadd, habove, hmore, bind, Except.bind]
    exact hn

/-- The numbers of a plan. -/
def Plan.value (p : Plan) : Segmentation.Plan := ⟨p.first.toNat, p.rest.toNat, p.count⟩

theorem plan_agrees {size : Nat} {first rest : UInt64} (hsize : size < 2 ^ 64)
    (hrest : 0 < rest.toNat) (hfits : first.toNat < size → size + rest.toNat < 2 ^ 64) :
    Agrees Plan.value (plan size first rest)
      (Segmentation.plan size first.toNat rest.toNat) := by
  obtain ⟨w, hword, rfl⟩ := word_of_lt hsize
  obtain ⟨count, hcount, hval⟩ := segmentCount_of_lt hrest hfits
  refine .step hword (.step hcount ?_)
  rw [Segmentation.plan, ← hval]
  by_cases hle : count ≤ 255
  · have hmax : count.toNat ≤ Segmentation.maxSegments := UInt64.le_iff_toNat_le.1 hle
    rw [if_pos hle, if_pos hmax]
    exact .ok (⟨first, rest, count.toUInt8⟩ : Plan)
  · have hmax : Segmentation.maxSegments < count.toNat :=
      UInt64.lt_iff_toNat_lt.1 (UInt64.not_le.1 hle)
    rw [if_neg hle, if_neg (Nat.not_le.2 hmax)]
    exact .error _

/-! ## Plans for chunks and segments -/

/-- Where the first part is too small for the payload, the room for another, which exceeds it by as
much as the shapes differ, is small too. -/
theorem fits_of_rooms {size max first rest opening next : Nat} (hsize : size ≤ 2 ^ 62)
    (hshape : opening ≤ next + 2 ^ 33) (hfirst : Segmentation.overhead opening max + first = max)
    (hrest : Segmentation.overhead next max + rest = max) (hlt : first < size) :
    size + rest < 2 ^ 64 := by
  unfold Segmentation.overhead at hfirst hrest
  omega

/-- The host of a destination, if there is one, is shorter than 2^32 octets. -/
def HostFits (destination : Option Destination) : Prop :=
  ∀ d ∈ destination, Utf8.size d.host < 2 ^ 32

theorem shapeLength_some_le (id : StreamId) {d : Destination} (h : Utf8.size d.host < 2 ^ 32) :
    Chunk.shapeLength id (some d) ≤ Chunk.shapeLength id none + 2 ^ 33 := by
  have hhost := headLength_le (Utf8.size d.host)
  have hport := headLength_le d.port.toUInt64.toNat
  rw [Chunk.shapeLength_some, Chunk.shapeLength_none]
  omega

theorem chunkPlan_agrees (id : StreamId) {destination : Option Destination} {size : Nat}
    (hhost : HostFits destination) (hsize : size ≤ 2 ^ 62) (max : UInt64) :
    Agrees Plan.value (chunkPlan id destination size max)
      (Chunk.plan id destination size max.toNat) := by
  have hshape := Chunk.shapeLength_none id
  unfold Chunk.plan
  refine .bind (room_agrees (Chunk.headLength_zero_le_shapeLength id none) (by omega) max)
    (fun e he => by rw [he]) fun rest hrest => ?_
  obtain ⟨hpos, hsum⟩ := Segmentation.capacity_eq_ok hrest
  rw [hrest]
  cases destination with
  | none => exact plan_agrees (by omega) hpos (by omega)
  | some d =>
    have hopen := shapeLength_some_le id (hhost d rfl)
    refine .bind (room_agrees (Chunk.headLength_zero_le_shapeLength id (some d)) (by omega) max)
      (fun e he => by simp only [he]) fun first hfirst => ?_
    obtain ⟨-, hsum'⟩ := Segmentation.capacity_eq_ok hfirst
    simp only [hfirst]
    exact plan_agrees (by omega) hpos (fits_of_rooms hsize hopen hsum' hsum)

theorem txPlan_agrees (txId : TxId) (network : Network) {size : Nat} (hsize : size ≤ 2 ^ 62)
    (max : UInt64) :
    Agrees Plan.value (txPlan txId network size max)
      (TxSegment.plan txId network size max.toNat) := by
  unfold txPlan TxSegment.plan
  have hcount : Cbor.headLength ((255 : UInt8).toUInt64.toNat) = 2 := rfl
  rw [TxSegment.shapeLength_some, TxSegment.shapeLength_none, hcount]
  by_cases hzero : size = 0
  · rw [if_pos hzero, if_pos hzero]
    exact .error _
  · rw [if_neg hzero, if_neg hzero]
    have hshape : Cbor.headLength 0 = 1 := rfl
    refine .bind (room_agrees (by omega) (by omega) max) (fun e he => by rw [he])
      fun first hfirst => ?_
    obtain ⟨-, hsum⟩ := Segmentation.capacity_eq_ok hfirst
    rw [hfirst]
    refine .bind (room_agrees (by omega) (by omega) max) (fun e he => by simp only [he])
      fun rest hrest => ?_
    obtain ⟨hpos, hsum'⟩ := Segmentation.capacity_eq_ok hrest
    simp only [hrest]
    exact plan_agrees (by omega) hpos (fits_of_rooms hsize (by omega) hsum hsum')

/-! ## Cutting without stopping -/

namespace Cutter

/-- What is being cut, with what is left of the payload in place of where the next part begins. -/
def value (c : Cutter) : Segmentation.Cutter :=
  ⟨c.plan.value, c.next.toNat, c.payload.drop c.offset.toNat⟩

/-- A cutter that can go on.  The first part begins at zero, whatever its room; only where there are
more does the room for one of them have to fit a word with what was cut off. -/
structure Safe (c : Cutter) : Prop where
  length_lt : c.payload.length < 2 ^ 64
  next_le : c.next.toNat ≤ c.plan.count.toNat
  offset_le : c.offset.toNat ≤ c.payload.length
  offset_first : c.next = 0 → c.offset = 0
  room_fits : 1 < c.plan.count.toNat → c.payload.length + c.plan.rest.toNat < 2 ^ 64

variable {c : Cutter}

/-- How many parts are still to come can always be told. -/
theorem Safe.left (h : Safe c) : ∃ n, c.left = .ok n ∧ n.toNat = c.value.left :=
  subOctet_of_le h.next_le

theorem toNat_nextSize (c : Cutter) : c.nextSize.toNat = c.value.nextSize := by
  have hzero : c.next = 0 ↔ c.next.toNat = 0 := UInt8.toNat_inj.symm
  simp only [nextSize, Segmentation.Cutter.nextSize, value, Plan.value, ← hzero]
  split <;> rfl

/-- Where the next part could reach fits a word. -/
theorem Safe.reach_lt (h : Safe c) (hmore : c.next.toNat < c.plan.count.toNat) :
    c.offset.toNat + c.nextSize.toNat < 2 ^ 64 := by
  have hle := h.offset_le
  by_cases hfirst : c.next = 0
  · -- the room may be near the largest word, but nothing is added to it
    have hoffset : c.offset.toNat = 0 := congrArg UInt64.toNat (h.offset_first hfirst)
    rw [hoffset, Nat.zero_add]
    exact c.nextSize.toNat_lt
  · have hpos : c.next.toNat ≠ 0 := fun hzero => hfirst (UInt8.toNat_inj.1 hzero)
    have hfits := h.room_fits (by omega)
    rw [nextSize, if_neg hfirst]
    omega

/-- A slice up to where a part reaches, or to the end of the payload, is as much of what is left as
the part has room for. -/
theorem slice_of_min {bs : Bytes} {start stop : UInt64} {room : Nat} (hle : start.toNat ≤ bs.length)
    (hstop : stop.toNat = min (start.toNat + room) bs.length) :
    slice bs start stop = .ok ((bs.drop start.toNat).take room) := by
  have hlt : start.toNat ≤ stop.toNat := by omega
  rw [slice, if_pos ⟨UInt64.le_iff_toNat_le.2 hlt, by omega⟩]
  have hlength := List.length_drop (i := start.toNat) (l := bs)
  rw [List.take_eq_take_min (i := room), List.take_eq_take_min, hlength, hstop]
  congr 2
  omega

/-- The next part begins where this one reaches, or nothing is left. -/
theorem drop_of_min {bs : Bytes} {start stop room : Nat}
    (hstop : stop = min (start + room) bs.length) : bs.drop stop = (bs.drop start).drop room := by
  rw [List.drop_drop, hstop]
  by_cases h : start + room ≤ bs.length
  · rw [Nat.min_eq_left h]
  · have hreach : bs.length ≤ start + room := by omega
    rw [Nat.min_eq_right hreach, List.drop_length, List.drop_eq_nil_of_le hreach]

/-- A part can be cut off where one is to come, and is the one that is cut off without words. -/
theorem Safe.next? (h : Safe c) :
    c.next? = .ok none ∧ c.value.next? = none ∨
      ∃ p c', c.next? = .ok (some (p, c')) ∧ c.value.next? = some (part p, c'.value) ∧ Safe c' := by
  by_cases hdone : c.plan.count ≤ c.next
  · refine .inl ⟨?_, ?_⟩
    · rw [Cutter.next?, if_pos hdone]
      rfl
    · rw [Segmentation.Cutter.next?, if_pos]
      exact UInt8.le_iff_toNat_le.1 hdone
  have hmore : c.next.toNat < c.plan.count.toNat :=
    UInt8.lt_iff_toNat_lt.1 (UInt8.not_le.1 hdone)
  have hcount := c.plan.count.toNat_lt
  obtain ⟨reach, hadd, hreachval⟩ := add_of_lt (h.reach_lt hmore)
  obtain ⟨size, hword, hsizeval⟩ := word_of_lt h.length_lt
  obtain ⟨next, hnext, hnextval⟩ : ∃ w, addOctet c.next 1 = .ok w ∧ w.toNat = c.next.toNat + 1 :=
    addOctet_of_lt (by change _ + 1 < _; omega)
  have hstop : (min reach size).toNat =
      min (c.offset.toNat + c.nextSize.toNat) c.payload.length := by
    rw [toNat_min, hreachval, hsizeval]
  have hslice := slice_of_min h.offset_le hstop
  refine .inr ⟨(c.next, (c.payload.drop c.offset.toNat).take c.nextSize.toNat),
    { c with next, offset := min reach size }, ?_, ?_, ?_⟩
  · rw [Cutter.next?, if_neg hdone]
    simp only [hadd, hword, hslice, hnext, bind, Except.bind]
    rfl
  · have hmore' : ¬ c.value.plan.count.toNat ≤ c.value.next := Nat.not_le.2 hmore
    rw [Segmentation.Cutter.next?, if_neg hmore', ← toNat_nextSize]
    simp only [value, part, hnextval, drop_of_min hstop]
  · constructor
    case length_lt => exact h.length_lt
    case next_le => exact hnextval ▸ hmore
    case offset_le => exact hstop ▸ Nat.min_le_right _ _
    case offset_first =>
      rintro rfl
      exact absurd hnextval (Nat.succ_ne_zero _).symm
    case room_fits => exact h.room_fits

/-- So can any number of parts. -/
theorem Safe.take (h : Safe c) (n : Nat) :
    ∃ parts c', c.take n = .ok (parts, c') ∧
      Segmentation.Cutter.take n c.value = (parts.map part, c'.value) ∧ Safe c' := by
  induction n generalizing c with
  | zero => exact ⟨[], c, rfl, rfl, h⟩
  | succ n ih =>
    rcases h.next? with ⟨hnone, hnone'⟩ | ⟨p, c', hsome, hsome', h'⟩
    · refine ⟨[], c, ?_, ?_, h⟩
      · rw [Cutter.take, hnone]
        rfl
      · rw [Segmentation.Cutter.take, hnone']
        rfl
    · obtain ⟨parts, c'', htake, htake', h''⟩ := ih h'
      refine ⟨p :: parts, c'', ?_, ?_, h''⟩
      · rw [Cutter.take, hsome]
        simp only [htake, bind, Except.bind]
        rfl
      · rw [Segmentation.Cutter.take, hsome']
        simp only [htake']
        rfl

/-- So can all parts. -/
theorem Safe.toList (h : Safe c) :
    ∃ parts, c.toList = .ok parts ∧ c.value.toList = parts.map part := by
  obtain ⟨left, hleft, hleftval⟩ := h.left
  obtain ⟨parts, c', htake, htake', -⟩ := h.take left.toNat
  refine ⟨parts, ?_, ?_⟩
  · rw [Cutter.toList, hleft]
    simp only [htake, bind, Except.bind]
    rfl
  · rw [Segmentation.Cutter.toList, ← hleftval, htake']

end Cutter

/-- Parts can be cut off by a plan if the room for another part is small where the first is too
small. -/
theorem Plan.safe_start {p : Plan} {payload : Bytes} (hsize : payload.length ≤ 2 ^ 62)
    (hcovers : p.value.Covers payload.length)
    (hfits : p.value.first < payload.length → payload.length + p.value.rest < 2 ^ 64) :
    (p.start payload).Safe where
  length_lt := Nat.lt_of_le_of_lt hsize (by decide)
  next_le := Nat.zero_le _
  offset_le := Nat.zero_le _
  offset_first _ := rfl
  room_fits hmore := by
    refine hfits (Nat.lt_of_not_le fun hle => ?_)
    have hcount := hcovers.count_eq
    rw [Segmentation.segmentCount, if_pos hle] at hcount
    exact Nat.lt_irrefl 1 (hcount ▸ hmore)

/-! ## Chunks and segments -/

/-- A payload is cut in words as it is cut without: the plan is the same, and however many parts are
asked for, they are the same and as many are told to remain. -/
structure SameCut (payload : Bytes) (words : Cutting Plan)
    (plan : Except Segmentation.Fault Segmentation.Plan) : Prop where
  plan : Agrees Plan.value words plan
  parts : ∀ p, words = pure p → ∀ n, ∃ parts c left,
    (p.start payload).take n = .ok (parts, c) ∧
    Segmentation.Cutter.take n (p.value.start payload) = (parts.map part, c.value) ∧
    c.left = .ok left ∧ left.toNat = c.value.left

theorem Agrees.eq_ok {α β : Type} {value : α → β} {a : α} {y : Except Segmentation.Fault β}
    (h : Agrees value (pure a) y) : y = .ok (value a) := by
  cases h
  rfl

theorem Agrees.sameCut {payload : Bytes} {words : Cutting Plan}
    {plan : Except Segmentation.Fault Segmentation.Plan} (h : Agrees Plan.value words plan)
    (hsafe : ∀ p : Plan, plan = .ok p.value → (p.start payload).Safe) :
    SameCut payload words plan := by
  refine ⟨h, fun p hp n => ?_⟩
  subst hp
  obtain ⟨parts, c, htake, htake', hc⟩ := (hsafe p h.eq_ok).take n
  obtain ⟨left, hleft, hleft'⟩ := hc.left
  exact ⟨parts, c, left, htake, htake', hleft, hleft'⟩

/-- What carries the parts is the same. -/
theorem Agrees.cut {α : Type} {payload : Bytes} {words : Cutting Plan}
    {plan : Except Segmentation.Fault Segmentation.Plan}
    {whole : Except Segmentation.Fault (List α)}
    {make : UInt8 → Nat × Bytes → α} (h : Agrees Plan.value words plan)
    (hsafe : ∀ p : Plan, plan = .ok p.value → (p.start payload).Safe)
    (hfault : ∀ e, plan = .error e → whole = .error e)
    (hok : ∀ p, plan = .ok p → whole = .ok ((p.start payload).toList.map (make p.count))) :
    (Words.cut words payload make).run = .ok whole := by
  cases h with
  | error e =>
    rw [hfault e rfl]
    rfl
  | ok p =>
    obtain ⟨parts, hparts, hparts'⟩ := (hsafe p rfl).toList
    have hparts'' : (p.value.start payload).toList = parts.map part := hparts'
    rw [hok p.value rfl, hparts'', Words.cut]
    simp only [pure_bind, hparts]
    rfl

theorem chunkPlan_safe {id : StreamId} {destination : Option Destination} {payload : Bytes}
    (hhost : HostFits destination) (hsize : payload.length ≤ 2 ^ 62) {max : UInt64} {p : Plan}
    (h : Chunk.plan id destination payload.length max.toNat = .ok p.value) :
    (p.start payload).Safe := by
  obtain ⟨hcovers, hfirst, hrest⟩ := Chunk.plan_eq_ok h
  refine Plan.safe_start hsize hcovers (fits_of_rooms hsize ?_ hfirst hrest)
  cases destination with
  | none => omega
  | some d => exact shapeLength_some_le id (hhost d rfl)

theorem txPlan_safe {txId : TxId} {network : Network} {raw : Bytes}
    (hsize : raw.length ≤ 2 ^ 62) {max : UInt64} {p : Plan}
    (h : TxSegment.plan txId network raw.length max.toNat = .ok p.value) :
    (p.start raw).Safe := by
  obtain ⟨-, hcovers, hfirst, hrest⟩ := TxSegment.plan_eq_ok h
  refine Plan.safe_start hsize hcovers (fits_of_rooms hsize ?_ hfirst hrest)
  have hcount : Cbor.headLength ((255 : UInt8).toUInt64.toNat) = 2 := rfl
  rw [TxSegment.shapeLength_some, TxSegment.shapeLength_none, hcount]
  omega

/-- In packets of any size that a word can tell, payloads of up to 2^62 octets are cut in words as
they are cut without, and so are messages for hosts shorter than 2^32 octets: no computation stops,
and the chunks and segments are the same, as are the faults. -/
theorem cuts_exactly_in_words (max : UInt64) (payload : Bytes) (h : payload.length ≤ 2 ^ 62) :
    (∀ id destination, HostFits destination →
      SameCut payload (chunkPlan id destination payload.length max)
        (Chunk.plan id destination payload.length max.toNat) ∧
      (chunks id destination payload max).run =
        .ok (Chunk.segments id destination payload max.toNat)) ∧
    (∀ txId network,
      SameCut payload (txPlan txId network payload.length max)
        (TxSegment.plan txId network payload.length max.toNat) ∧
      (segments txId network payload max).run =
        .ok (TxSegment.segments txId network payload max.toNat)) := by
  constructor
  · intro id destination hhost
    have hplan := chunkPlan_agrees id hhost h max
    refine ⟨hplan.sameCut fun p => chunkPlan_safe hhost h,
      hplan.cut (fun p => chunkPlan_safe hhost h) (fun e he => ?_) fun p hp => ?_⟩
    · rw [Chunk.segments, he]
    · rw [Chunk.segments, hp]
  · intro txId network
    have hplan := txPlan_agrees txId network h max
    refine ⟨hplan.sameCut fun p => txPlan_safe h,
      hplan.cut (fun p => txPlan_safe h) (fun e he => ?_) fun p hp => ?_⟩
    · rw [TxSegment.segments, he]
    · rw [TxSegment.segments, hp]

/-- A message in the largest packet there is, and a transaction of two segments in packets of 64
octets. -/
theorem cuts_exactly_in_largest_and_in_small_packets :
    let d : Destination := ⟨"10.0.0.5", 9000⟩
    ([1, 2, 3] : Bytes).length ≤ 2 ^ 62 ∧ HostFits (some d) ∧
      (chunks default (some d) [1, 2, 3] 18446744073709551615).run =
        .ok (.ok [⟨default, some d, 0, 1, [1, 2, 3]⟩]) ∧
      (List.replicate 40 1 : Bytes).length ≤ 2 ^ 62 ∧
      (segments default .testnet (List.replicate 40 1) 64).run =
        .ok (.ok [⟨default, 0, some ⟨default, 2, .testnet⟩, List.replicate 4 1⟩,
          ⟨default, 1, none, List.replicate 36 1⟩]) := by
  intro d
  have hhost : HostFits (some d) := by
    rintro _ ⟨⟩
    decide
  have hmessage : ([1, 2, 3] : Bytes).length ≤ 2 ^ 62 := by decide
  have hraw : (List.replicate 40 1 : Bytes).length ≤ 2 ^ 62 := by decide
  refine ⟨hmessage, hhost, ?_, hraw, ?_⟩
  · have hchunks := ((cuts_exactly_in_words 18446744073709551615 _ hmessage).1 default _ hhost).2
    rw [hchunks]
    simp only [Chunk.segments, Chunk.plan, Chunk.shapeLength_none, Chunk.shapeLength_some]
    rfl
  · have hsegments := ((cuts_exactly_in_words 64 _ hraw).2 default .testnet).2
    rw [hsegments]
    simp only [TxSegment.segments, TxSegment.plan, TxSegment.shapeLength_none,
      TxSegment.shapeLength_some]
    rfl

end Words

end Meshway
