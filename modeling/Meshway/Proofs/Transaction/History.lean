import Mathlib.Data.List.Induction
import Mathlib.Data.Set.Card
import Meshway.Proofs.Transaction.Transfer
set_option autoImplicit false

/-!
# What a joiner of transactions remembers (SPEC §10.3 item 4)

Segments of all transactions arrive in any order and with any numbers.  Only a
first segment says how many there are and what they are part of, so a
transaction is unfinished from its first segment on until a later one is the
last.  Main statement: what waits under a short identity is the transaction that
is unfinished there, and what a segment leads to is told by it and by nothing
that arrived under other short identities.
-/

namespace Meshway

namespace TxReassembler

/-- A joiner that was new before some segments. -/
def after (gs : List TxSegment) : TxReassembler := gs.foldl (fun r g => (r.accept g).2) empty

@[simp] theorem after_nil : after [] = empty := rfl

@[simp] theorem after_append (gs : List TxSegment) (g : TxSegment) :
    after (gs ++ [g]) = ((after gs).accept g).2 := by
  simp [after]

end TxReassembler

/-! ## Unfinished transactions -/

namespace TxSegment

/-- Whether a transaction of so many segments is unfinished under a short identity after a segment,
if it was before: the segment is another's, or one after the first that is not the last. -/
def keeps (id : ShortId) (count : UInt8) (g : TxSegment) : Bool :=
  g.shortId ≠ id || (g.opening.isNone && g.index.toNat + 1 < count.toNat)

/-- The octets that segments bring for a short identity. -/
def broughtFor (id : ShortId) (gs : List TxSegment) : Bytes :=
  (gs.filter (·.shortId = id)).flatMap (·.payload)

/-- The transaction that is unfinished under a short identity after some segments, with what they
brought of it.  Its first segment tells that there are others; no first segment came after that, nor
the last of the others. -/
def unfinished (id : ShortId) : List TxSegment → Option PendingTx
  | [] => none
  | g :: later =>
    match g.opening with
    | none => unfinished id later
    | some o =>
      if g.shortId = id ∧ 1 < o.count ∧ later.all (·.keeps id o.count) then
        some ⟨o, g.payload ++ broughtFor id later⟩
      else unfinished id later

variable {id : ShortId}

theorem unfinished_cons_none {g : TxSegment} (h : g.opening = none) (later : List TxSegment) :
    unfinished id (g :: later) = unfinished id later := by
  simp [unfinished, h]

theorem unfinished_cons_some {g : TxSegment} {o : TxOpening} (h : g.opening = some o)
    (later : List TxSegment) :
    unfinished id (g :: later) =
      if g.shortId = id ∧ 1 < o.count ∧ later.all (·.keeps id o.count) then
        some ⟨o, g.payload ++ broughtFor id later⟩
      else unfinished id later := by
  simp [unfinished, h]

theorem all_keeps_iff {count : UInt8} {gs : List TxSegment} :
    gs.all (·.keeps id count) = true ↔
      ∀ g ∈ gs.filter (·.shortId = id), g.opening = none ∧ g.index.toNat + 1 < count.toNat := by
  simp [keeps, or_iff_not_imp_left]

/-- Nothing begins with segments that keep a transaction unfinished. -/
theorem unfinished_eq_none_of_keeps {count : UInt8} {gs : List TxSegment}
    (h : gs.all (·.keeps id count) = true) : unfinished id gs = none := by
  induction gs with
  | nil => rfl
  | cons g gs ih =>
    rw [List.all_cons, Bool.and_eq_true] at h
    cases ho : g.opening with
    | none => rw [unfinished_cons_none ho, ih h.2]
    | some o =>
      have hid : g.shortId ≠ id := by simpa [keeps, ho] using h.1
      rw [unfinished_cons_some ho, if_neg fun hc => hid hc.1, ih h.2]

/-- A segment of another short identity leaves it unfinished. -/
theorem unfinished_append_of_ne (gs : List TxSegment) {g : TxSegment} (h : g.shortId ≠ id) :
    unfinished id (gs ++ [g]) = unfinished id gs := by
  have hbrought : ∀ later, broughtFor id (later ++ [g]) = broughtFor id later := by
    intro later
    simp [broughtFor, h]
  induction gs with
  | nil =>
    cases ho : g.opening with
    | none => exact unfinished_cons_none ho []
    | some o => exact (unfinished_cons_some ho []).trans (if_neg fun hc => h hc.1)
  | cons g' gs ih =>
    rw [List.cons_append]
    cases ho : g'.opening with
    | none => rw [unfinished_cons_none ho, unfinished_cons_none ho, ih]
    | some o =>
      rw [unfinished_cons_some ho, unfinished_cons_some ho, ih, hbrought]
      simp [keeps, h]

/-- A first segment takes the place of what was unfinished. -/
theorem unfinished_append_some (gs : List TxSegment) {g : TxSegment} {o : TxOpening}
    (h : g.opening = some o) :
    unfinished g.shortId (gs ++ [g]) = if o.count ≤ 1 then none else some ⟨o, g.payload⟩ := by
  induction gs with
  | nil =>
    rw [List.nil_append, unfinished_cons_some h]
    by_cases hone : o.count ≤ 1
    · rw [if_pos hone, if_neg fun hc => absurd hc.2.1 (UInt8.not_lt.2 hone)]
      rfl
    · simp [hone, UInt8.not_le.1 hone, broughtFor]
  | cons g' gs ih =>
    rw [List.cons_append]
    cases ho : g'.opening with
    | none => rw [unfinished_cons_none ho, ih]
    | some o' =>
      rw [unfinished_cons_some ho, ih, if_neg]
      simp [keeps, h]

/-- A segment after the first goes behind what is unfinished, and finishes it if it is the last. -/
theorem unfinished_append_none (gs : List TxSegment) {g : TxSegment} (h : g.opening = none) :
    unfinished g.shortId (gs ++ [g]) = (unfinished g.shortId gs).bind fun p =>
      if g.index.toNat + 1 < p.opening.count.toNat then some ⟨p.opening, p.raw ++ g.payload⟩
      else none := by
  induction gs with
  | nil => exact unfinished_cons_none h []
  | cons g' gs ih =>
    rw [List.cons_append]
    cases ho : g'.opening with
    | none => rw [unfinished_cons_none ho, unfinished_cons_none ho, ih]
    | some o =>
      rw [unfinished_cons_some ho, unfinished_cons_some ho, ih]
      by_cases hc : g'.shortId = g.shortId ∧ 1 < o.count ∧ gs.all (·.keeps g.shortId o.count)
      · obtain ⟨hid, hmore, hall⟩ := hc
        have hkept : (gs ++ [g]).all (·.keeps g.shortId o.count) =
            decide (g.index.toNat + 1 < o.count.toNat) := by
          rw [List.all_append, hall, Bool.true_and]
          simp [keeps, h]
        rw [hkept, unfinished_eq_none_of_keeps hall]
        by_cases hlast : g.index.toNat + 1 < o.count.toNat
        · simp [hid, hmore, hall, hlast, broughtFor]
        · simp [hid, hmore, hall, hlast]
      · rw [if_neg hc, if_neg]
        intro hc'
        rw [List.all_append, Bool.and_eq_true] at hc'
        exact hc ⟨hc'.1, hc'.2.1, hc'.2.2.1⟩

/-- Segments of other short identities do not count. -/
theorem unfinished_filter (id : ShortId) (gs : List TxSegment) :
    unfinished id (gs.filter (·.shortId = id)) = unfinished id gs := by
  induction gs with
  | nil => rfl
  | cons g gs ih =>
    by_cases hid : g.shortId = id
    · rw [List.filter_cons_of_pos (by simpa using hid)]
      cases ho : g.opening with
      | none => rw [unfinished_cons_none ho, unfinished_cons_none ho, ih]
      | some o =>
        have hall : (gs.filter (·.shortId = id)).all (·.keeps id o.count) =
            gs.all (·.keeps id o.count) := by
          rw [List.all_filter]
          refine List.all_congr rfl fun g' => ?_
          by_cases hg' : g'.shortId = id <;> simp [keeps, hg']
        have hbrought : broughtFor id (gs.filter (·.shortId = id)) = broughtFor id gs := by
          simp [broughtFor]
        rw [unfinished_cons_some ho, unfinished_cons_some ho, ih, hall, hbrought]
    · rw [List.filter_cons_of_neg (by simpa using hid), ih]
      cases ho : g.opening with
      | none => rw [unfinished_cons_none ho]
      | some o => rw [unfinished_cons_some ho, if_neg fun hc => hid hc.1]

/-- A transaction waits for more after some segments of one short identity: the latest first segment
says that there are others, and none of those after it, which bring more of its octets, is the
last. -/
def Waits (own : List TxSegment) (p : PendingTx) : Prop :=
  ∃ earlier first later, own = earlier ++ first :: later ∧
    first.opening = some p.opening ∧ 1 < p.opening.count ∧
    (∀ g ∈ later, g.opening = none ∧ g.index.toNat + 1 < p.opening.count.toNat) ∧
    p.raw = first.payload ++ later.flatMap (·.payload)

theorem Waits.cons (g : TxSegment) {own : List TxSegment} {p : PendingTx} (h : Waits own p) :
    Waits (g :: own) p := by
  obtain ⟨earlier, first, later, rfl, hwaits⟩ := h
  exact ⟨g :: earlier, first, later, rfl, hwaits⟩

theorem waits_cons_of_none {g : TxSegment} (ho : g.opening = none) {own : List TxSegment}
    {p : PendingTx} : Waits (g :: own) p ↔ Waits own p := by
  constructor
  · rintro ⟨earlier, first, later, hown, hopening, hwaits⟩
    cases earlier with
    | nil =>
      obtain ⟨rfl, rfl⟩ := List.cons.inj hown
      rw [ho] at hopening
      cases hopening
    | cons g' earlier =>
      obtain ⟨rfl, rfl⟩ := List.cons.inj hown
      exact ⟨earlier, first, later, rfl, hopening, hwaits⟩
  · exact Waits.cons g

/-- Among segments of one short identity, a first segment either says of which transaction one waits
for more, or does not count. -/
theorem waits_cons_of_some {g : TxSegment} {o : TxOpening} (ho : g.opening = some o)
    {own : List TxSegment} {p : PendingTx} :
    Waits (g :: own) p ↔
      (1 < o.count ∧ (∀ g ∈ own, g.opening = none ∧ g.index.toNat + 1 < o.count.toNat) ∧
        p = ⟨o, g.payload ++ own.flatMap (·.payload)⟩) ∨ Waits own p := by
  constructor
  · rintro ⟨earlier, first, later, hown, hopening, hmore, hlater, hraw⟩
    cases earlier with
    | nil =>
      obtain ⟨rfl, rfl⟩ := List.cons.inj hown
      obtain rfl : o = p.opening := Option.some.inj (ho.symm.trans hopening)
      exact .inl ⟨hmore, hlater, by rw [← hraw]⟩
    | cons g' earlier =>
      obtain ⟨rfl, rfl⟩ := List.cons.inj hown
      exact .inr ⟨earlier, first, later, rfl, hopening, hmore, hlater, hraw⟩
  · rintro (⟨hmore, hlater, rfl⟩ | h)
    · exact ⟨[], g, own, rfl, ho, hmore, hlater, rfl⟩
    · exact h.cons g

/-- What is unfinished under a short identity is what waits for more after its own segments. -/
theorem unfinished_eq_some_iff {gs : List TxSegment} {p : PendingTx} :
    unfinished id gs = some p ↔ Waits (gs.filter (·.shortId = id)) p := by
  induction gs with
  | nil => simp [unfinished, Waits]
  | cons g gs ih =>
    by_cases hid : g.shortId = id
    · rw [List.filter_cons_of_pos (by simpa using hid)]
      cases ho : g.opening with
      | none => rw [unfinished_cons_none ho, ih, waits_cons_of_none ho]
      | some o =>
        rw [unfinished_cons_some ho, waits_cons_of_some ho, ← all_keeps_iff, ← ih]
        by_cases hc : 1 < o.count ∧ gs.all (·.keeps id o.count) = true
        · simp [hid, hc, unfinished_eq_none_of_keeps hc.2, broughtFor, eq_comm]
        · rw [if_neg fun h => hc h.2]
          exact ⟨.inr, fun h => h.resolve_left fun h => hc ⟨h.1, h.2.1⟩⟩
    · rw [List.filter_cons_of_neg (by simpa using hid), ← ih]
      cases ho : g.opening with
      | none => rw [unfinished_cons_none ho]
      | some o => rw [unfinished_cons_some ho, if_neg fun hc => hid hc.1]

end TxSegment

namespace TxReassembler

open TxSegment

/-! ## What waits and what is answered -/

/-- What waits under a short identity is the transaction that is unfinished there. -/
theorem get?_after (gs : List TxSegment) (id : ShortId) :
    (after gs).waiting.get? id = unfinished id gs := by
  induction gs using List.reverseRecOn with
  | nil => rfl
  | append_singleton gs g ih =>
    rw [after_append, get?_accept, ih]
    by_cases hid : g.shortId = id
    · subst hid
      rw [if_pos rfl]
      cases ho : g.opening with
      | some o =>
        rw [unfinished_append_some gs ho, join_of_opening ho]
        split <;> rfl
      | none =>
        rw [unfinished_append_none gs ho]
        cases unfinished g.shortId gs with
        | none => rw [join_none ho, Option.bind_none]
        | some p =>
          rw [join_some ho, Option.bind_some]
          split <;> rfl
    · rw [if_neg (Ne.symm hid), unfinished_append_of_ne gs hid]

/-- A segment that finds nothing to go behind changes nothing. -/
theorem accept_of_orphan {r : TxReassembler} {g : TxSegment} (h : (r.accept g).1 = .orphan) :
    (r.accept g).2 = r := by
  unfold accept at h ⊢
  cases ho : g.opening with
  | some o => by_cases hone : o.count ≤ 1 <;> simp [ho, hone] at h
  | none =>
    cases hget : r.waiting.get? g.shortId with
    | none => rfl
    | some p =>
      by_cases hlast : g.index.toNat + 1 < p.opening.count.toNat <;> simp [ho, hget, hlast] at h

/-- As many transactions are in flight as there are short identities under which one waits. -/
theorem encard_waiting (r : TxReassembler) :
    {id | (r.waiting.get? id).isSome}.encard = r.inFlight := by
  have hkeys : {id | (r.waiting.get? id).isSome} = (r.waiting.keys.toFinset : Set ShortId) := by
    ext id
    rw [List.coe_toFinset]
    exact r.waiting.contains_iff id
  have hcard : r.waiting.keys.toFinset.card = r.waiting.keys.length :=
    List.toFinset_card_of_nodup r.waiting.distinct
  rw [hkeys, Set.encard_coe_eq_coe_finsetCard, hcard]
  simp [inFlight, Table.keys, Table.size]

/-! ## Told by history -/

/-- After any segments that arrive at a new joiner, what waits under each short identity is the
transaction that is unfinished there, and so many are in flight.  A first segment is all of its
transaction or takes the place of what was unfinished.  Another segment is an orphan just when
nothing is unfinished, and then changes nothing; otherwise it goes behind the octets that arrived,
and completes them if its number says that it is the last.  Segments of other short identities make
no difference to any of this. -/
theorem accept_eq_of_unfinished_transaction (gs : List TxSegment) :
    (∀ id, (after gs).waiting.get? id = unfinished id gs ∧
      ∀ p, unfinished id gs = some p ↔ Waits (gs.filter (·.shortId = id)) p) ∧
    {id | (unfinished id gs).isSome}.encard = (after gs).inFlight ∧
    (∀ g o, g.opening = some o →
      (o.count ≤ 1 → ((after gs).accept g).1 = .complete o.txId o.network g.payload ∧
        (after (gs ++ [g])).waiting.get? g.shortId = none) ∧
      (1 < o.count → ((after gs).accept g).1 = .pending ∧
        (after (gs ++ [g])).waiting.get? g.shortId = some ⟨o, g.payload⟩)) ∧
    (∀ g, g.opening = none →
      (((after gs).accept g).1 = .orphan ↔ unfinished g.shortId gs = none) ∧
      (((after gs).accept g).1 = .orphan → after (gs ++ [g]) = after gs) ∧
      ∀ p, unfinished g.shortId gs = some p →
        ((after gs).accept g).1 =
          if p.opening.count.toNat ≤ g.index.toNat + 1 then
            .complete p.opening.txId p.opening.network (p.raw ++ g.payload)
          else .pending) ∧
    ∀ id others, others.filter (·.shortId = id) = gs.filter (·.shortId = id) →
      (after others).waiting.get? id = (after gs).waiting.get? id ∧
      ∀ g : TxSegment, g.shortId = id →
        ((after others).accept g).1 = ((after gs).accept g).1 := by
  refine ⟨fun id => ⟨get?_after gs id, fun p => unfinished_eq_some_iff⟩, ?_,
    fun g o ho => ⟨fun hone => ?_, fun hmore => ?_⟩, fun g ho => ?_, fun id others hothers => ?_⟩
  · rw [← encard_waiting]
    simp only [get?_after]
  · rw [get?_after, unfinished_append_some gs ho, accept_fst, join_of_opening ho, if_pos hone,
      if_pos hone]
    exact ⟨rfl, rfl⟩
  · have hone : ¬ o.count ≤ 1 := UInt8.not_le.2 hmore
    rw [get?_after, unfinished_append_some gs ho, accept_fst, join_of_opening ho, if_neg hone,
      if_neg hone]
    exact ⟨rfl, rfl⟩
  · rw [after_append]
    refine ⟨?_, accept_of_orphan, fun p hp => ?_⟩
    · rw [accept_fst, get?_after]
      cases unfinished g.shortId gs with
      | none => simp [join_none ho]
      | some p =>
        rw [join_some ho]
        split <;> simp
    · rw [accept_fst, get?_after, hp, join_some ho]
      by_cases hlast : g.index.toNat + 1 < p.opening.count.toNat
      · rw [if_pos hlast, if_neg (Nat.not_le.2 hlast)]
      · rw [if_neg hlast, if_pos (Nat.not_lt.1 hlast)]
  · have hwaiting : (after others).waiting.get? id = (after gs).waiting.get? id := by
      rw [get?_after, get?_after, ← unfinished_filter id others, hothers, unfinished_filter]
    refine ⟨hwaiting, ?_⟩
    rintro g rfl
    rw [accept_fst, accept_fst, hwaiting]

/-- A transaction of three segments that begins again after its second one, and another that is not
begun, among whose segments it arrives. -/
theorem accept_eq_of_two_unfinished_transactions :
    let a : ShortId := default
    let b : ShortId := ⟨List.replicate 8 1, rfl⟩
    let opening : TxOpening := ⟨default, 3, .testnet⟩
    let own : List TxSegment := [⟨a, 0, some opening, [1]⟩, ⟨a, 1, none, [2]⟩,
      ⟨a, 0, some opening, [3]⟩, ⟨a, 1, none, [4]⟩]
    let all : List TxSegment := [⟨a, 0, some opening, [1]⟩, ⟨b, 1, none, [9]⟩, ⟨a, 1, none, [2]⟩,
      ⟨a, 0, some opening, [3]⟩, ⟨a, 1, none, [4]⟩]
    own.filter (·.shortId = a) = all.filter (·.shortId = a) ∧
      ((after all).accept ⟨b, 2, none, [8]⟩).1 = .orphan ∧
      ((after all).accept ⟨a, 2, none, [5]⟩).1 = .complete default .testnet [3, 4, 5] ∧
      ((after own).accept ⟨a, 2, none, [5]⟩).1 = .complete default .testnet [3, 4, 5] := by
  intro a b opening own all
  have hfilter : own.filter (·.shortId = a) = all.filter (·.shortId = a) := by decide
  obtain ⟨-, -, -, hnext, hothers⟩ := accept_eq_of_unfinished_transaction all
  have horphan : ((after all).accept ⟨b, 2, none, [8]⟩).1 = .orphan := (hnext _ rfl).1.2 rfl
  have hcomplete : ((after all).accept ⟨a, 2, none, [5]⟩).1 =
      .complete default .testnet [3, 4, 5] := (hnext _ rfl).2.2 ⟨opening, [3, 4]⟩ rfl
  exact ⟨hfilter, horphan, hcomplete, ((hothers a own hfilter).2 _ rfl).trans hcomplete⟩

end TxReassembler

end Meshway
