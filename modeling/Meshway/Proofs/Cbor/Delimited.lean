import Meshway.Proofs.Cbor.Reading
set_option autoImplicit false

/-!
# Where items end (SPEC §4.1)

An item says itself where it ends.  What a reader takes off one input it takes
off every input that begins with the same octets, and an input that ends before
the last of them is refused as one that was cut short.

A reader of which this holds is delimited.  So is a reader that goes on with
what a delimited one leaves, and all readers of items are made in this way out
of few: one octet, a number of octets, and items one after the other.  Main
statement: an input that holds a value holds none when it is cut, and none when
it goes on.
-/

namespace Meshway.Cbor

/-! ## Inputs that end too early -/

/-- Whether a fault says that an input of `size` octets ends before the `due` octets that it has to
have. -/
def Fault.Lacking (size due : Nat) : Fault → Prop
  | .endOfInput => True
  | .textTooLong claimed left => left ≤ size ∧ size - left + claimed ≤ due
  | _ => False

namespace Fault.Lacking

variable {e : Fault} {size due : Nat}

theorem mono {more : Nat} (h : e.Lacking size due) (hle : due ≤ more) : e.Lacking size more := by
  cases e with
  | endOfInput => trivial
  | textTooLong claimed left => exact ⟨h.1, Nat.le_trans h.2 hle⟩
  | _ => exact h.elim

/-- The same is lacking where octets stand before those that are looked at. -/
theorem shift (before : Nat) (h : e.Lacking size due) :
    e.Lacking (before + size) (before + due) := by
  cases e with
  | endOfInput => trivial
  | textTooLong claimed left =>
    obtain ⟨hleft, hdue⟩ := h
    exact ⟨by omega, by omega⟩
  | _ => exact h.elim

/-- What ends too early was cut short. -/
theorem kind_eq (h : e.Lacking size due) (hdue : due < UInt64.size) :
    e.kind size = .cutShort := by
  cases e with
  | endOfInput => rfl
  | textTooLong claimed left => exact if_pos (Nat.lt_of_le_of_lt h.2 hdue)
  | _ => exact h.elim

end Fault.Lacking

namespace Reader

variable {α β : Type}

/-! ## Delimited readers -/

/-- Whether a reader takes just these octets for `x`, whatever follows, and misses the rest of them
in an input that is a beginning of them. -/
structure Takes (step : Step α) (used : Bytes) (x : α) : Prop where
  reads : ∀ rest, step (used ++ rest) = .ok (x, rest)
  misses : ∀ p q, p ++ q = used → q ≠ [] →
    ∃ e, step p = .error e ∧ e.Lacking p.length used.length

/-- Whether all that a reader takes says itself where it ends. -/
def Delimited (step : Step α) : Prop :=
  ∀ bs x rest, step bs = .ok (x, rest) → ∃ used, bs = used ++ rest ∧ Takes step used x

/-- Takes nothing. -/
def give (a : α) : Step α := fun bs => .ok (a, bs)

/-- Goes on with what is left. -/
def andThen (f : Step α) (g : α → Step β) : Step β := fun bs =>
  match f bs with
  | .error e => .error e
  | .ok (a, rest) => g a rest

theorem takes_give (a : α) : Takes (give a) [] a where
  reads := fun _ => rfl
  misses := by
    intro p q hused hq
    exact absurd (List.append_eq_nil_iff.1 hused).2 hq

theorem delimited_give (a : α) : Delimited (give a) := by
  intro bs x rest h
  cases h
  exact ⟨[], rfl, takes_give a⟩

theorem delimited_of_error {step : Step α} (h : ∀ bs, ∃ e, step bs = .error e) :
    Delimited step := by
  intro bs x rest hread
  obtain ⟨e, he⟩ := h bs
  rw [he] at hread
  cases hread

/-- An input that ends within the first part misses the rest of that part, and one that ends within
the second has the first part whole. -/
theorem Takes.andThen {f : Step α} {g : α → Step β} {used₁ used₂ : Bytes} {a : α} {b : β}
    (hf : Takes f used₁ a) (hg : Takes (g a) used₂ b) :
    Takes (andThen f g) (used₁ ++ used₂) b where
  reads := by
    intro rest
    rw [Reader.andThen, List.append_assoc, hf.reads]
    exact hg.reads rest
  misses := by
    intro p q hused hq
    have hsecond : ∀ p₂, p = used₁ ++ p₂ → p₂ ++ q = used₂ →
        ∃ e, Reader.andThen f g p = .error e ∧
          e.Lacking p.length (used₁ ++ used₂).length := by
      rintro p₂ rfl hused₂
      obtain ⟨e, he, hlacking⟩ := hg.misses p₂ q hused₂ hq
      refine ⟨e, ?_, by simpa only [List.length_append] using hlacking.shift used₁.length⟩
      rw [Reader.andThen, hf.reads]
      exact he
    rcases List.append_eq_append_iff.1 hused with ⟨q₁, hused₁, hq₁⟩ | ⟨p₂, hp, hused₂⟩
    · by_cases hne : q₁ = []
      · subst hne
        exact hsecond [] (by simpa using hused₁.symm) (by simpa using hq₁)
      · obtain ⟨e, he, hlacking⟩ := hf.misses p q₁ hused₁.symm hne
        refine ⟨e, by rw [Reader.andThen, he], hlacking.mono ?_⟩
        rw [List.length_append]
        exact Nat.le_add_right _ _
    · exact hsecond p₂ hp hused₂.symm

/-- An input that a delimited reader takes as a whole is taken whatever follows. -/
theorem Delimited.takes_of_whole {step : Step α} (h : Delimited step) {used : Bytes} {x : α}
    (hread : step used = .ok (x, [])) : Takes step used x := by
  obtain ⟨used', hused, htakes⟩ := h _ _ _ hread
  rw [List.append_nil] at hused
  exact hused ▸ htakes

/-- What goes on with delimited readers is delimited. -/
theorem Delimited.andThen {f : Step α} {g : α → Step β} (hf : Delimited f)
    (hg : ∀ a, Delimited (g a)) : Delimited (andThen f g) := by
  intro bs x rest h
  unfold Reader.andThen at h
  split at h
  · cases h
  · rename_i a rest₁ ha
    obtain ⟨used₁, rfl, hused₁⟩ := hf bs a rest₁ ha
    obtain ⟨used₂, rfl, hused₂⟩ := hg a rest₁ x rest h
    exact ⟨used₁ ++ used₂, (List.append_assoc ..).symm, hused₁.andThen hused₂⟩

theorem map_eq_andThen (f : Step α) (g : α → β) :
    (fun bs => (f bs).map fun (a, rest) => (g a, rest)) = andThen f fun a => give (g a) := by
  funext bs
  rw [andThen]
  cases f bs <;> rfl

theorem Takes.map {f : Step α} {used : Bytes} {a : α} (h : Takes f used a) (g : α → β) :
    Takes (fun bs => (f bs).map fun (a, rest) => (g a, rest)) used (g a) := by
  rw [map_eq_andThen, ← List.append_nil used]
  exact h.andThen (takes_give (g a))

/-- What makes something else of what a delimited reader takes is delimited. -/
theorem Delimited.map {f : Step α} (hf : Delimited f) (g : α → β) :
    Delimited fun bs => (f bs).map fun (a, rest) => (g a, rest) := by
  rw [map_eq_andThen]
  exact hf.andThen fun a => delimited_give (g a)

/-- A reader that reads on after each first octet as a delimited one is delimited. -/
theorem delimited_of_cons {step : Step α} (hnil : step [] = .error .endOfInput)
    (hcons : ∀ b, Delimited fun bs => step (b :: bs)) : Delimited step := by
  intro bs x rest h
  cases bs with
  | nil =>
    rw [hnil] at h
    cases h
  | cons b bs =>
    obtain ⟨used, rfl, hused⟩ := hcons b bs x rest h
    refine ⟨b :: used, rfl, ⟨hused.reads, fun p q hp hq => ?_⟩⟩
    cases p with
    | nil => exact ⟨.endOfInput, hnil, trivial⟩
    | cons b' p =>
      obtain ⟨rfl, hused'⟩ := List.cons_eq_cons.1 hp
      obtain ⟨e, he, hlacking⟩ := hused.misses p q hused' hq
      refine ⟨e, he, ?_⟩
      rw [List.length_cons, List.length_cons, Nat.add_comm _ 1, Nat.add_comm _ 1]
      exact hlacking.shift 1

/-! ## Heads and strings -/

theorem octets_of_short {n : Nat} {bs : Bytes} (h : bs.length < n) :
    octets n bs = .error .endOfInput := by
  rw [octets, if_neg]
  rw [List.length_take]
  omega

theorem octets_cases (n : Nat) (bs : Bytes) :
    (∃ field rest, octets n bs = .ok (field, rest)) ∨ octets n bs = .error .endOfInput := by
  unfold octets
  split
  · exact .inl ⟨_, _, rfl⟩
  · exact .inr rfl

theorem length_lt_of_append {p q used : Bytes} (h : p ++ q = used) (hq : q ≠ []) :
    p.length < used.length := by
  rw [← h, List.length_append]
  exact Nat.lt_add_of_pos_right (List.length_pos_iff.2 hq)

theorem delimited_octets (n : Nat) : Delimited (octets n) := by
  intro bs field rest h
  obtain ⟨hlen, rfl⟩ := octets_eq_ok h
  refine ⟨field, rfl, ⟨fun rest => octets_append field rest hlen, fun p q hp hq => ?_⟩⟩
  have hshort := length_lt_of_append hp hq
  exact ⟨_, octets_of_short (hlen ▸ hshort), trivial⟩

/-- What is made of a number that is read. -/
theorem delimited_number (width : Nat) (f : Nat → α) :
    Delimited fun bs => match number width bs with
      | .error e => .error e
      | .ok (n, rest) => .ok (f n, rest) := by
  have heq : (fun bs => match number width bs with
      | .error e => .error e
      | .ok (n, rest) => .ok (f n, rest)) =
        andThen (octets width) fun field => give (f (Bytes.toNat field)) := by
    funext bs
    rw [andThen, number]
    cases octets width bs <;> rfl
  rw [heq]
  exact (delimited_octets width).andThen fun field => delimited_give _

theorem delimited_extent (info : Nat) : Delimited (extent info) := by
  unfold extent
  by_cases hinfo : info < 24
  · simp only [hinfo, if_true]
    exact delimited_give _
  · simp only [hinfo, if_false]
    split
    · exact delimited_number 1 _
    · exact delimited_number 2 _
    · exact delimited_number 4 _
    · exact delimited_number 8 _
    · exact delimited_give _
    · exact delimited_of_error fun bs => ⟨_, rfl⟩

/-- Goes on by the number that a head states, or without one. -/
def byExtent (definite : Nat → Step α) (indefinite : Step α) : Extent → Step α
  | .definite n => definite n
  | .indefinite => indefinite

theorem delimited_byExtent {definite : Nat → Step α} {indefinite : Step α}
    (hdefinite : ∀ n, Delimited (definite n)) (hindefinite : Delimited indefinite)
    (size : Extent) : Delimited (byExtent definite indefinite size) := by
  cases size with
  | definite n => exact hdefinite n
  | indefinite => exact hindefinite

theorem argument_eq_andThen (info : Nat) :
    argument info = andThen (extent info) (byExtent give fun _ => .error .reserved) := by
  funext bs
  rw [argument, andThen]
  split <;> simp_all [give, byExtent]

theorem delimited_argument (info : Nat) : Delimited (argument info) := by
  rw [argument_eq_andThen]
  exact (delimited_extent info).andThen
    (delimited_byExtent delimited_give (delimited_of_error fun bs => ⟨_, rfl⟩))

/-- Octets that are text or not take nothing more off the input. -/
theorem delimited_asText (field : Bytes) :
    Delimited fun bs => (asText field).map fun v => (v, bs) := by
  cases asText field with
  | error e => exact delimited_of_error fun bs => ⟨e, rfl⟩
  | ok v => exact delimited_give v

/-- A text that ends too early says how long it claims to be. -/
theorem delimited_textOf (n : Nat) : Delimited (textOf n) := by
  intro bs v rest h
  unfold textOf at h
  split at h
  · cases h
  · rename_i field rest' hfield
    obtain ⟨hlen, rfl⟩ := octets_eq_ok hfield
    obtain ⟨w, hw, heq⟩ := of_map_eq_ok h
    cases heq
    refine ⟨field, rfl, ⟨fun rest => ?_, fun p q hp hq => ?_⟩⟩
    · rw [textOf, octets_append field rest hlen]
      simp only [hw, Except.map]
    · have hshort := length_lt_of_append hp hq
      refine ⟨.textTooLong n p.length, ?_, Nat.le_refl _, by omega⟩
      rw [textOf, octets_of_short (hlen ▸ hshort)]

/-! ## Repetition -/

theorem times_succ_eq_andThen (step : Step α) (n : Nat) :
    times step (n + 1) = andThen step fun x bs =>
      (times step n bs).map fun (xs, rest) => (x :: xs, rest) := by
  funext bs
  rw [times, andThen]
  cases step bs with
  | error e => rfl
  | ok r =>
    simp only
    cases times step n r.2 <;> rfl

theorem delimited_times {step : Step α} (h : Delimited step) (n : Nat) :
    Delimited (times step n) := by
  induction n with
  | zero => exact delimited_give []
  | succ n ih =>
    rw [times_succ_eq_andThen]
    exact h.andThen fun x => ih.map (x :: ·)

/-- Things are taken one after the other when each is. -/
theorem takes_times {step : Step α} {used : β → Bytes} {thing : β → α} {xs : List β}
    (h : ∀ x ∈ xs, Takes step (used x) (thing x)) :
    Takes (times step xs.length) (xs.flatMap used) (xs.map thing) := by
  induction xs with
  | nil => exact takes_give []
  | cons x xs ih =>
    obtain ⟨hx, hxs⟩ := List.forall_mem_cons.1 h
    rw [List.length_cons, times_succ_eq_andThen]
    exact hx.andThen ((ih hxs).map (thing x :: ·))

/-- With less room than it needs, a series up to the end mark comes to the end of its input. -/
theorem untilBreak_of_le (step : Step α) {bound bound' : Bytes}
    (hle : bound.length ≤ bound'.length) (bs : Bytes) :
    untilBreak step bound bs = untilBreak step bound' bs ∨
      untilBreak step bound bs = .error .endOfInput := by
  induction bound generalizing bound' bs with
  | nil => exact .inr rfl
  | cons b₀ bound ih =>
    cases bound' with
    | nil => simp at hle
    | cons b₀' bound' =>
      cases bs with
      | nil => exact .inr rfl
      | cons b bs =>
        simp only [untilBreak]
        split
        · exact .inl rfl
        · cases hstep : step (b :: bs) with
          | error e => exact .inl rfl
          | ok r =>
            obtain ⟨x, rest⟩ := r
            rcases ih (Nat.le_of_succ_le_succ hle) rest with heq | heq
            · simp only [heq, true_or]
            · simp only [heq, or_true]

/-- One thing more, whose first octet is no end mark. -/
theorem takes_untilBreak_cons {step : Step α} {b : UInt8} {used₁ used₂ bound : Bytes} {x : α}
    {xs : List α} (hb : b ≠ 0xff) (hx : Takes step (b :: used₁) x)
    (hxs : Takes (untilBreak step bound) used₂ xs) (b₀ : UInt8) :
    Takes (untilBreak step (b₀ :: bound)) (b :: used₁ ++ used₂) (x :: xs) := by
  have hall := hx.andThen (g := fun x bs => (untilBreak step bound bs).map fun (xs, rest) =>
    (x :: xs, rest)) (hxs.map (x :: ·))
  have heq : ∀ bs, untilBreak step (b₀ :: bound) (b :: bs) = andThen step (fun x bs =>
      (untilBreak step bound bs).map fun (xs, rest) => (x :: xs, rest)) (b :: bs) := by
    intro bs
    rw [untilBreak, if_neg hb, andThen]
    cases step (b :: bs) with
    | error e => rfl
    | ok r =>
      simp only
      cases untilBreak step bound r.2 <;> rfl
  refine ⟨fun rest => (heq _).trans (hall.reads rest), fun p q hp hq => ?_⟩
  cases p with
  | nil => exact ⟨.endOfInput, rfl, trivial⟩
  | cons b' p =>
    obtain ⟨rfl, -⟩ := List.cons_eq_cons.1 hp
    rw [heq]
    exact hall.misses _ q hp hq

/-- The end mark is taken when there is room for anything. -/
theorem takes_untilBreak_nil (step : Step α) {bound : Bytes} (hroom : 0 < bound.length) :
    Takes (untilBreak step bound) [0xff] [] := by
  obtain ⟨b₀, bound, rfl⟩ := List.exists_cons_of_length_pos hroom
  refine ⟨fun rest => by simp [untilBreak], fun p q hp hq => ?_⟩
  have hshort := length_lt_of_append hp hq
  obtain rfl : p = [] := List.length_eq_zero_iff.1 (Nat.lt_one_iff.1 hshort)
  exact ⟨.endOfInput, rfl, trivial⟩

/-- A series up to the end mark is taken with all the room that there may be, if there is enough,
and has fewer things than octets. -/
theorem takes_untilBreak {step : Step α} (h : Delimited step) (hnil : ∀ r, step [] ≠ .ok r)
    {bound bs rest : Bytes} {xs : List α} (hread : untilBreak step bound bs = .ok (xs, rest)) :
    ∃ used, bs = used ++ rest ∧ xs.length < used.length ∧
      ∀ bound' : Bytes, xs.length < bound'.length → Takes (untilBreak step bound') used xs := by
  induction bound generalizing bs xs rest with
  | nil => cases hread
  | cons b₀ bound ih =>
    cases bs with
    | nil => cases hread
    | cons b bs =>
      unfold untilBreak at hread
      split at hread
      · rename_i hb
        cases hread
        exact ⟨[b], rfl, Nat.one_pos, fun bound' hroom => hb ▸ takes_untilBreak_nil step hroom⟩
      · rename_i hb
        split at hread
        · cases hread
        · rename_i x rest₁ hx
          split at hread
          · cases hread
          · rename_i xs' rest₂ hxs
            cases hread
            obtain ⟨used₁, hbs, hused₁⟩ := h _ _ _ hx
            obtain ⟨used₂, rfl, hlen, hused₂⟩ := ih hxs
            -- a thing takes at least one octet, and its first octet is no end mark
            obtain ⟨used₁, rfl⟩ : ∃ used, used₁ = b :: used := by
              cases used₁ with
              | nil => exact absurd (hused₁.reads []) (hnil _)
              | cons b' used => exact ⟨used, by rw [(List.cons_eq_cons.1 hbs).1]⟩
            refine ⟨b :: used₁ ++ used₂, by rw [hbs, List.append_assoc], ?_, fun bound' hroom => ?_⟩
            · rw [List.length_cons, List.length_append, List.length_cons]
              omega
            · obtain ⟨b₀', bound', rfl⟩ :=
                List.exists_cons_of_length_pos (Nat.zero_lt_of_lt hroom)
              exact takes_untilBreak_cons hb hused₁
                (hused₂ bound' (Nat.lt_of_succ_lt_succ hroom)) b₀'

/-- A series up to the end mark that is taken with enough room is taken with its input as room. -/
theorem takes_untilBreak_self {step : Step α} {used : Bytes} {xs : List α}
    (hlen : xs.length < used.length)
    (h : ∀ bound : Bytes, xs.length < bound.length → Takes (untilBreak step bound) used xs) :
    Takes (fun bs => untilBreak step bs bs) used xs := by
  refine ⟨fun rest => (h _ ?_).reads rest, fun p q hp hq => ?_⟩
  · rw [List.length_append]
    omega
  · -- the input is its own room, which may be too little for what it lacks
    have hshort := length_lt_of_append hp hq
    rcases untilBreak_of_le step (Nat.le_of_lt hshort) p with heq | heq
    · simp only [heq]
      exact (h used hlen).misses p q hp hq
    · exact ⟨_, heq, trivial⟩

/-- Things are taken one after the other up to the end mark when each is, and none is taken for the
end mark. -/
theorem takes_untilBreak_flatMap {step : Step α} {used : β → Bytes} {thing : β → α} {xs : List β}
    (h : ∀ x ∈ xs, Takes step (used x) (thing x))
    (hfirst : ∀ x ∈ xs, ∃ b tail, used x = b :: tail ∧ b ≠ 0xff) :
    Takes (fun bs => untilBreak step bs bs) (xs.flatMap used ++ [0xff]) (xs.map thing) := by
  have hall : (xs.map thing).length < (xs.flatMap used ++ [0xff]).length ∧
      ∀ bound : Bytes, (xs.map thing).length < bound.length →
        Takes (untilBreak step bound) (xs.flatMap used ++ [0xff]) (xs.map thing) := by
    induction xs with
    | nil => exact ⟨Nat.one_pos, fun bound hroom => takes_untilBreak_nil step hroom⟩
    | cons x xs ih =>
      obtain ⟨hx, hxs⟩ := List.forall_mem_cons.1 h
      obtain ⟨⟨b, tail, hused, hb⟩, hfirst⟩ := List.forall_mem_cons.1 hfirst
      obtain ⟨hlen, htakes⟩ := ih hxs hfirst
      rw [hused] at hx
      rw [List.flatMap_cons, hused, List.append_assoc, List.map_cons]
      refine ⟨?_, fun bound hroom => ?_⟩
      · rw [List.length_append, List.length_cons, List.length_cons]
        omega
      · obtain ⟨b₀, bound, rfl⟩ := List.exists_cons_of_length_pos (Nat.zero_lt_of_lt hroom)
        exact takes_untilBreak_cons hb hx (htakes bound (Nat.lt_of_succ_lt_succ hroom)) b₀
  exact takes_untilBreak_self hall.1 hall.2

theorem delimited_untilBreak {step : Step α} (h : Delimited step) (hnil : ∀ r, step [] ≠ .ok r) :
    Delimited fun bs => untilBreak step bs bs := by
  intro bs xs rest hread
  obtain ⟨used, rfl, hlen, hused⟩ := takes_untilBreak h hnil hread
  exact ⟨used, rfl, takes_untilBreak_self hlen hused⟩

theorem delimited_series {step : Step α} (h : Delimited step) (hnil : ∀ r, step [] ≠ .ok r)
    (size : Extent) : Delimited (series step size) := by
  cases size with
  | definite n => exact delimited_times h n
  | indefinite => exact delimited_untilBreak h hnil

theorem entry_eq_andThen (step : Step Value) :
    entry step = andThen step fun k bs => (step bs).map fun (v, rest) => ((k, v), rest) := by
  funext bs
  rw [entry, andThen]
  cases step bs with
  | error e => rfl
  | ok r =>
    simp only
    cases step r.2 <;> rfl

theorem Takes.entry {step : Step Value} {used₁ used₂ : Bytes} {k v : Value}
    (hk : Takes step used₁ k) (hv : Takes step used₂ v) :
    Takes (entry step) (used₁ ++ used₂) (k, v) := by
  rw [entry_eq_andThen]
  exact hk.andThen (hv.map (k, ·))

theorem delimited_entry {step : Step Value} (h : Delimited step) : Delimited (entry step) := by
  rw [entry_eq_andThen]
  exact h.andThen fun k => h.map (k, ·)

/-! ## Strings of indefinite length -/

/-- Reads the same, and says of a head that stands for nothing that it opens no piece. -/
def recast (step : Step α) : Step α := fun bs =>
  match step bs with
  | .error .reserved => .error .piece
  | r => r

theorem Delimited.recast {step : Step α} (h : Delimited step) : Delimited (recast step) := by
  intro bs x rest hread
  have hstep : step bs = .ok (x, rest) := by
    unfold Reader.recast at hread
    split at hread
    · cases hread
    · exact hread
  obtain ⟨used, rfl, hused⟩ := h bs x rest hstep
  refine ⟨used, rfl, ⟨fun rest => by simp only [Reader.recast, hused.reads], fun p q hp hq => ?_⟩⟩
  obtain ⟨e, he, hlacking⟩ := hused.misses p q hp hq
  refine ⟨e, ?_, hlacking⟩
  cases e with
  | reserved => exact hlacking.elim
  | _ => simp only [Reader.recast, he]

/-- One piece of an indefinite string. -/
def piece (major : Nat) : Step Bytes
  | [] => .error .endOfInput
  | b :: rest =>
    if b.toNat / 32 ≠ major then .error .piece
    else recast (andThen (argument (b.toNat % 32)) octets) rest

theorem delimited_piece (major : Nat) : Delimited (piece major) := by
  refine delimited_of_cons rfl fun b => ?_
  by_cases hmajor : b.toNat / 32 = major
  · simp only [piece, hmajor, ne_eq, not_true_eq_false, if_false]
    exact ((delimited_argument (b.toNat % 32)).andThen delimited_octets).recast
  · simp only [piece, hmajor, ne_eq, not_false_eq_true, if_true]
    exact delimited_of_error fun bs => ⟨_, rfl⟩

/-- Pieces are read as any other series up to the end mark, and joined. -/
theorem pieces_eq (major : Nat) (bound bs : Bytes) :
    pieces major bound bs = (untilBreak (piece major) bound bs).map fun (fields, rest) =>
      (fields.flatten, rest) := by
  induction bound generalizing bs with
  | nil => rfl
  | cons b₀ bound ih =>
    cases bs with
    | nil => rfl
    | cons b bs =>
      simp only [pieces, untilBreak, piece, recast, andThen, argument]
      split
      · rfl
      · split
        · rfl
        · cases hextent : extent (b.toNat % 32) bs with
          | error e => cases e <;> rfl
          | ok r =>
            obtain ⟨size, rest⟩ := r
            cases size with
            | indefinite => rfl
            | definite n =>
              rcases octets_cases n rest with ⟨field, rest', hfield⟩ | hfield
              · simp only [hfield, ih]
                cases untilBreak (piece major) bound rest' <;> rfl
              · simp only [hfield]
                rfl

theorem delimited_pieces (major : Nat) : Delimited fun bs => pieces major bs bs := by
  have heq : (fun bs => pieces major bs bs) = fun bs =>
      (untilBreak (piece major) bs bs).map fun (fields, rest) => (fields.flatten, rest) :=
    funext fun bs => pieces_eq major bs bs
  rw [heq]
  exact (delimited_untilBreak (delimited_piece major) fun r h => by cases h).map List.flatten

theorem string_eq_andThen (major info : Nat) :
    string major info = andThen (extent info) (byExtent
      (fun n => if major = 2 then fun bs => (octets n bs).map fun (field, rest) =>
        (.bytes field, rest) else textOf n)
      (andThen (fun bs => pieces major bs bs) fun field =>
        if major = 2 then give (.bytes field) else fun bs => (asText field).map fun v =>
          (v, bs))) := by
  funext bs
  rw [string, andThen]
  cases extent info bs with
  | error e => rfl
  | ok r =>
    obtain ⟨size, rest⟩ := r
    cases size with
    | definite n =>
      simp only [byExtent]
      split <;> rfl
    | indefinite =>
      simp only [byExtent, andThen]
      cases pieces major rest rest with
      | error e => rfl
      | ok r =>
        simp only
        split <;> rfl

theorem delimited_string (major info : Nat) : Delimited (string major info) := by
  rw [string_eq_andThen]
  refine (delimited_extent info).andThen (delimited_byExtent (fun n => ?_) ?_)
  · split
    · exact (delimited_octets n).map Value.bytes
    · exact delimited_textOf n
  · refine (delimited_pieces major).andThen fun field => ?_
    split
    · exact delimited_give _
    · exact delimited_asText field

/-! ## Items -/

theorem delimited_simple (info : Nat) : Delimited (simple info) := by
  unfold simple
  split
  · exact delimited_give _
  · exact delimited_give _
  · exact delimited_give _
  · exact delimited_give _
  · exact delimited_number 2 _
  · exact delimited_number 4 _
  · exact delimited_number 8 _
  · exact delimited_of_error fun bs => ⟨_, rfl⟩
  · exact delimited_of_error fun bs => ⟨_, rfl⟩

theorem delimited_holder {step : Step Value} (h : Delimited step) (hnil : ∀ r, step [] ≠ .ok r)
    (major : Nat) (size : Extent) : Delimited (holder step major size) := by
  have hentry : ∀ r, entry step [] ≠ .ok r := by
    intro r hread
    unfold entry at hread
    split at hread
    · cases hread
    · rename_i hk
      exact hnil _ hk
  unfold holder
  split
  · exact (delimited_series h hnil size).map Value.array
  · exact (delimited_series (delimited_entry h) hentry size).map Value.ofEntries
  · exact h

/-- No item is read where there is nothing. -/
theorem item_nil (depth : Nat) (r : Value × Bytes) : item depth [] ≠ .ok r := by
  cases depth <;> exact nofun

theorem delimited_size (major info : Nat) :
    Delimited fun bs => if major = 6 then (argument info bs).map fun (n, rest) =>
      (Extent.definite n, rest) else extent info bs := by
  split
  · exact (delimited_argument info).map Extent.definite
  · exact delimited_extent info

/-- Items say where they end, however deep they may go. -/
theorem delimited_item (depth : Nat) : Delimited (item depth) := by
  induction depth with
  | zero => exact delimited_of_error fun bs => ⟨.depth, rfl⟩
  | succ depth ih =>
    refine delimited_of_cons rfl fun b => ?_
    unfold item
    dsimp only
    split
    · exact (delimited_argument _).map fun n : Nat => Value.int n
    · exact (delimited_argument _).map fun n : Nat => Value.int (-1 - n)
    · exact delimited_string 2 _
    · exact delimited_string 3 _
    · exact delimited_simple _
    · have hheld : ∀ size, Delimited fun bs => if depth = 0 then .error .depth
          else holder (item depth) (b.toNat / 32) size bs := by
        intro size
        by_cases hdepth : depth = 0
        · simp only [hdepth, if_true]
          exact delimited_of_error fun bs => ⟨.depth, rfl⟩
        · simp only [hdepth, if_false]
          exact delimited_holder ih (item_nil depth) _ size
      -- this is the same reader: first the size, and then what is held
      have hall := (delimited_size (b.toNat / 32) (b.toNat % 32)).andThen hheld
      refine (congrArg Delimited (funext fun bs => ?_)).mp hall
      rw [andThen]
      split <;> simp only [*]

end Reader

/-! ## Inputs that hold a value -/

/-- An input that holds a value says so only as a whole.  What is cut off it is missed, and what is
put behind it is too much. -/
theorem Value.decode_cut_or_padded {b : Bytes} {v : Value} (h : Value.decode b = .ok v) :
    (∀ p q, p ++ q = b → q ≠ [] → ∃ e, Value.decode p = .error e ∧ e.Lacking p.length b.length) ∧
      ∀ t, t ≠ [] → Value.decode (b ++ t) = .error .trailing := by
  unfold Value.decode at h
  split at h
  · cases h
  · rename_i w hread
    cases h
    have htakes := (Reader.delimited_item _).takes_of_whole hread
    refine ⟨fun p q hp hq => ?_, fun t ht => ?_⟩
    · obtain ⟨e, he, hlacking⟩ := htakes.misses p q hp hq
      exact ⟨e, by rw [Value.decode, he], hlacking⟩
    · obtain ⟨c, t, rfl⟩ := List.exists_cons_of_ne_nil ht
      rw [Value.decode, htakes.reads]
  · cases h

end Meshway.Cbor
