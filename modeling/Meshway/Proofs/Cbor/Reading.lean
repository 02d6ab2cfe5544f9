import Meshway.Proofs.Cbor.Regular
set_option autoImplicit false

/-!
# What is read is regular and settled (SPEC §4.1)

However a value is written, with heads of any width, strings and collections of
indefinite length, tags, keys in any order and keys given twice, what is read is
a regular value in its settled form, nested less deep than reading may go.  So
it has a written form, and that form is read as the same value.

A reader is described by what holds of all that it takes off an input, and by
its leaving no more than there was.  The length of an input is a number of
sixty-four bits: that is why no string or collection in it is too long for a
head.
-/

namespace Meshway.Cbor

namespace Value

/-- A regular value in its settled form. -/
structure Settled (n : Nat) (v : Value) : Prop where
  regular : v.Regular n
  settle_eq : v.settle = v

theorem Settled.succ {n : Nat} {v : Value} (h : v.Settled n) : v.Settled (n + 1) :=
  ⟨h.regular.succ, h.settle_eq⟩

theorem settled_array {n : Nat} {items : List Value} (hlen : items.length < UInt64.size)
    (h : ∀ v ∈ items, v.Settled n) : (Value.array items).Settled (n + 1) := by
  refine ⟨.array hlen fun v hv => (h v hv).regular, ?_⟩
  have hitems : items.map settle = items.map id :=
    List.map_congr_left fun v hv => (h v hv).settle_eq
  rw [settle, settleItems_eq_map, hitems, List.map_id]

theorem settled_map {n : Nat} {es : List (Value × Value)} (hlen : es.length < UInt64.size)
    (hasc : Ascending es) (h : ∀ e ∈ es, e.1.Settled n ∧ e.2.Settled n) :
    (Value.map es).Settled (n + 1) := by
  refine ⟨.map hlen hasc (fun e he => (h e he).1.regular) fun e he => (h e he).2.regular, ?_⟩
  have hentries : (es.map fun e => (settle e.1, settle e.2)) = es.map id :=
    List.map_congr_left fun e he => Prod.ext (h e he).1.settle_eq (h e he).2.settle_eq
  rw [settle, settleEntries_eq_map, hentries, List.map_id]

/-- The entries of a settled map are settled, one level less deep. -/
theorem Settled.of_map {n : Nat} {es : List (Value × Value)} (h : (Value.map es).Settled (n + 1)) :
    es.length < UInt64.size ∧ ∀ e ∈ es, e.1.Settled n ∧ e.2.Settled n := by
  obtain ⟨hregular, hsettle⟩ := h
  rw [settle, settleEntries_eq_map] at hsettle
  have hentries : (es.map fun e => (settle e.1, settle e.2)) = es.map id :=
    (Value.map.inj hsettle).trans (List.map_id es).symm
  cases hregular with
  | map hlen hasc hkeys hvalues =>
    refine ⟨hlen, fun e he => ?_⟩
    have heq := List.map_inj_left.1 hentries e he
    exact ⟨⟨hkeys e he, congrArg Prod.fst heq⟩, ⟨hvalues e he, congrArg Prod.snd heq⟩⟩

end Value

namespace Reader

/-- Whether all that a reader takes off an input is of some kind, and it leaves no more than there
was. -/
def Yields {α : Type} (step : Step α) (P : α → Prop) : Prop :=
  ∀ bs x rest, bs.length < UInt64.size → step bs = .ok (x, rest) → P x ∧ rest.length ≤ bs.length

variable {α β : Type} {P : α → Prop} {step : Step α}

/-- What is read behind a first octet leaves no more than there was with it. -/
theorem Yields.of_cons (h : Yields step P) {b : UInt8} {bs rest : Bytes} {x : α}
    (hbs : (b :: bs).length < UInt64.size) (hread : step bs = .ok (x, rest)) :
    P x ∧ rest.length ≤ (b :: bs).length := by
  rw [List.length_cons] at hbs ⊢
  obtain ⟨hx, hrest⟩ := h bs x rest (by omega) hread
  exact ⟨hx, by omega⟩

theorem of_map_eq_ok {ε : Type} {f : α → β} {x : Except ε α} {b : β} (h : x.map f = .ok b) :
    ∃ a, x = .ok a ∧ f a = b := by
  cases x with
  | error e => cases h
  | ok a => exact ⟨a, rfl, Except.ok.inj h⟩

/-! ## Heads and strings -/

theorem octets_eq_ok {n : Nat} {bs field rest : Bytes} (h : octets n bs = .ok (field, rest)) :
    field.length = n ∧ bs = field ++ rest := by
  unfold octets at h
  split at h
  · rename_i hlen
    cases h
    exact ⟨hlen, (List.take_append_drop n bs).symm⟩
  · cases h

/-- The octets of a field, and what is left beside them. -/
theorem length_of_octets {n : Nat} {bs field rest : Bytes} (h : octets n bs = .ok (field, rest)) :
    field.length = n ∧ n + rest.length = bs.length := by
  obtain ⟨hlen, rfl⟩ := octets_eq_ok h
  rw [List.length_append, hlen]
  exact ⟨rfl, rfl⟩

theorem yields_number {width : Nat} (h : width ≤ 8) : Yields (number width) (· < UInt64.size) := by
  intro bs n rest _ hread
  unfold number at hread
  split at hread
  · cases hread
  · rename_i field rest' hfield
    cases hread
    obtain ⟨hlen, hrest⟩ := length_of_octets hfield
    have hlt := Bytes.toNat_lt_pow field
    have hpow : 256 ^ width ≤ 256 ^ 8 := Nat.pow_le_pow_right (by decide) h
    rw [hlen] at hlt
    exact ⟨Nat.lt_of_lt_of_le hlt hpow, by omega⟩

/-- The number that a head says, if it says one, fits a head. -/
def Extent.Fits : Extent → Prop
  | .definite n => n < UInt64.size
  | .indefinite => True

/-- What is made of a number that is read. -/
theorem of_number_eq_ok {α : Type} {f : Nat → α} {a : α} {width : Nat} {bs rest : Bytes}
    (h : (match number width bs with
      | .error e => .error e
      | .ok (n, rest) => .ok (f n, rest)) = (.ok (a, rest) : Except Fault (α × Bytes))) :
    ∃ n, number width bs = .ok (n, rest) ∧ f n = a := by
  split at h
  · cases h
  · rename_i n rest' hn
    cases h
    exact ⟨n, hn, rfl⟩

theorem yields_extent (info : Nat) : Yields (extent info) Extent.Fits := by
  intro bs e rest hbs hread
  have hfield : ∀ width, width ≤ 8 →
      (∃ n, number width bs = .ok (n, rest) ∧ Extent.definite n = e) →
        e.Fits ∧ rest.length ≤ bs.length := by
    rintro width hwidth ⟨n, hn, rfl⟩
    exact yields_number hwidth bs n _ hbs hn
  unfold extent at hread
  split at hread
  · rename_i hlt
    cases hread
    exact ⟨Nat.lt_trans hlt (by decide), Nat.le_refl _⟩
  · split at hread
    · exact hfield 1 (by decide) (of_number_eq_ok hread)
    · exact hfield 2 (by decide) (of_number_eq_ok hread)
    · exact hfield 4 (by decide) (of_number_eq_ok hread)
    · exact hfield 8 (by decide) (of_number_eq_ok hread)
    · cases hread
      exact ⟨trivial, Nat.le_refl _⟩
    · cases hread

theorem yields_argument (info : Nat) : Yields (argument info) (· < UInt64.size) := by
  intro bs n rest hbs hread
  unfold argument at hread
  split at hread
  · cases hread
  · rename_i m rest' hextent
    cases hread
    exact yields_extent info bs _ _ hbs hextent
  · cases hread

/-- The pieces of a string are no longer than the input that they were taken off. -/
theorem length_of_pieces {major : Nat} {bound bs field rest : Bytes} (hbs : bs.length < UInt64.size)
    (h : pieces major bound bs = .ok (field, rest)) : field.length + rest.length ≤ bs.length := by
  induction bound generalizing bs field rest with
  | nil => cases h
  | cons b bound ih =>
    cases bs with
    | nil => cases h
    | cons b bs =>
      unfold pieces at h
      split at h
      · cases h
        simp
      · split at h
        · cases h
        · split at h
          · cases h
          · cases h
          · cases h
          · rename_i n rest₁ hextent
            have hlen : bs.length < UInt64.size := by
              rw [List.length_cons] at hbs
              omega
            obtain ⟨-, hrest₁⟩ := yields_extent _ _ _ _ hlen hextent
            split at h
            · cases h
            · rename_i piece rest₂ hpiece
              obtain ⟨hn, hrest₂⟩ := length_of_octets hpiece
              split at h
              · cases h
              · rename_i fields rest₃ hpieces
                cases h
                have hmore := ih (by omega) hpieces
                rw [List.length_append, List.length_cons]
                omega

/-- Text is as long as its octets. -/
theorem asText_eq_ok {bs : Bytes} {v : Value} (h : asText bs = .ok v) :
    ∃ s, v = .text s ∧ Utf8.size s = bs.length := by
  unfold asText at h
  split at h
  · rename_i s hs
    cases h
    exact ⟨s, rfl, congrArg List.length (Utf8.encode_of_decode? hs)⟩
  · cases h

theorem settled_text {n : Nat} {bs : Bytes} {v : Value} (hbs : bs.length < UInt64.size)
    (h : asText bs = .ok v) : v.Settled n := by
  obtain ⟨s, rfl, hs⟩ := asText_eq_ok h
  exact ⟨.text (hs ▸ hbs), rfl⟩

theorem yields_string (major info depth : Nat) :
    Yields (string major info) (Value.Settled depth) := by
  intro bs v rest hbs h
  have hextent := yields_extent info bs
  unfold string at h
  split at h
  · cases h
  · rename_i n rest₁ hread
    obtain ⟨hn, hrest₁⟩ := hextent _ _ hbs hread
    split at h
    · obtain ⟨⟨field, rest₂⟩, hfield, hv⟩ := of_map_eq_ok h
      cases hv
      obtain ⟨hlen, hrest₂⟩ := length_of_octets hfield
      exact ⟨⟨.bytes (by omega), rfl⟩, by omega⟩
    · unfold textOf at h
      split at h
      · cases h
      · rename_i field rest₂ hfield
        obtain ⟨hlen, hrest₂⟩ := length_of_octets hfield
        obtain ⟨w, hw, hv⟩ := of_map_eq_ok h
        cases hv
        exact ⟨settled_text (by omega) hw, by omega⟩
  · rename_i rest₁ hread
    obtain ⟨-, hrest₁⟩ := hextent _ _ hbs hread
    split at h
    · cases h
    · rename_i field rest₂ hpieces
      have hlen := length_of_pieces (by omega) hpieces
      split at h
      · cases h
        exact ⟨⟨.bytes (by omega), rfl⟩, by omega⟩
      · obtain ⟨w, hw, hv⟩ := of_map_eq_ok h
        cases hv
        exact ⟨settled_text (by omega) hw, by omega⟩

/-! ## Repetition -/

theorem yields_times (h : Yields step P) (n : Nat) :
    Yields (times step n) fun xs => xs.length = n ∧ ∀ x ∈ xs, P x := by
  induction n with
  | zero =>
    intro bs xs rest _ hread
    cases hread
    exact ⟨⟨rfl, fun x hx => by cases hx⟩, Nat.le_refl _⟩
  | succ n ih =>
    intro bs xs rest hbs hread
    unfold times at hread
    split at hread
    · cases hread
    · rename_i x rest₁ hx
      obtain ⟨hPx, hrest₁⟩ := h bs x rest₁ hbs hx
      split at hread
      · cases hread
      · rename_i xs' rest₂ hxs
        cases hread
        obtain ⟨⟨hlen, hall⟩, hrest₂⟩ := ih rest₁ xs' _ (by omega) hxs
        exact ⟨⟨congrArg (· + 1) hlen, List.forall_mem_cons.2 ⟨hPx, hall⟩⟩, by omega⟩

theorem yields_untilBreak (h : Yields step P) (bound : Bytes) :
    Yields (untilBreak step bound) fun xs => xs.length ≤ bound.length ∧ ∀ x ∈ xs, P x := by
  induction bound with
  | nil =>
    intro bs xs rest _ hread
    cases hread
  | cons b₀ bound ih =>
    intro bs xs rest hbs hread
    cases bs with
    | nil => cases hread
    | cons b bs =>
      unfold untilBreak at hread
      split at hread
      · cases hread
        exact ⟨⟨Nat.zero_le _, fun x hx => by cases hx⟩, Nat.le_succ _⟩
      · split at hread
        · cases hread
        · rename_i x rest₁ hx
          obtain ⟨hPx, hrest₁⟩ := h (b :: bs) x rest₁ hbs hx
          split at hread
          · cases hread
          · rename_i xs' rest₂ hxs
            cases hread
            obtain ⟨⟨hlen, hall⟩, hrest₂⟩ := ih rest₁ xs' _ (by omega) hxs
            exact ⟨⟨Nat.succ_le_succ hlen, List.forall_mem_cons.2 ⟨hPx, hall⟩⟩, by omega⟩

/-- As many things as a head says, or as there are up to the end mark, fit a head. -/
theorem yields_series (h : Yields step P) {e : Extent} (he : e.Fits) :
    Yields (series step e) fun xs => xs.length < UInt64.size ∧ ∀ x ∈ xs, P x := by
  intro bs xs rest hbs hread
  cases e with
  | definite n =>
    obtain ⟨⟨rfl, hall⟩, hrest⟩ := yields_times h n bs xs rest hbs hread
    exact ⟨⟨he, hall⟩, hrest⟩
  | indefinite =>
    obtain ⟨⟨hlen, hall⟩, hrest⟩ := yields_untilBreak h bs bs xs rest hbs hread
    exact ⟨⟨by omega, hall⟩, hrest⟩

theorem yields_entry {Q : Value → Prop} {step : Step Value} (h : Yields step Q) :
    Yields (entry step) fun e => Q e.1 ∧ Q e.2 := by
  intro bs e rest hbs hread
  unfold entry at hread
  split at hread
  · cases hread
  · rename_i k rest₁ hk
    obtain ⟨hQk, hrest₁⟩ := h bs k rest₁ hbs hk
    split at hread
    · cases hread
    · rename_i v rest₂ hv
      cases hread
      obtain ⟨hQv, hrest₂⟩ := h rest₁ v _ (by omega) hv
      exact ⟨⟨hQk, hQv⟩, by omega⟩

/-! ## Items -/

theorem settled_float (n : Nat) (F : Floating.Format) (bits : Nat) :
    (Value.float (Floating.widen F bits)).Settled n :=
  ⟨.float _, congrArg Value.float (Floating.settle_widen F bits)⟩

theorem yields_simple (info depth : Nat) : Yields (simple info) (Value.Settled depth) := by
  intro bs v rest hbs h
  have hfloat : ∀ (width : Nat) (F : Floating.Format), width ≤ 8 →
      (∃ n, number width bs = .ok (n, rest) ∧ .float (Floating.widen F n) = v) →
        v.Settled depth ∧ rest.length ≤ bs.length := by
    rintro width F hwidth ⟨n, hn, rfl⟩
    exact ⟨settled_float depth F n, (yields_number hwidth bs n _ hbs hn).2⟩
  unfold simple at h
  split at h
  · cases h
    exact ⟨⟨.bool false, rfl⟩, Nat.le_refl _⟩
  · cases h
    exact ⟨⟨.bool true, rfl⟩, Nat.le_refl _⟩
  · cases h
    exact ⟨⟨.null, rfl⟩, Nat.le_refl _⟩
  · cases h
    exact ⟨⟨.null, rfl⟩, Nat.le_refl _⟩
  · exact hfloat 2 Floating.half (by decide) (of_number_eq_ok h)
  · exact hfloat 4 Floating.single (by decide) (of_number_eq_ok h)
  · exact hfloat 8 Floating.double (by decide) (of_number_eq_ok h)
  · cases h
  · cases h

/-- What holds other items goes one level deeper than they do. -/
theorem yields_holder {depth : Nat} {step : Step Value} (h : Yields step (Value.Settled depth))
    (major : Nat) {size : Extent} (hsize : size.Fits) :
    Yields (holder step major size) (Value.Settled (depth + 1)) := by
  intro bs v rest hbs hread
  unfold holder at hread
  split at hread
  · obtain ⟨⟨items, rest₁⟩, hitems, hv⟩ := of_map_eq_ok hread
    cases hv
    obtain ⟨⟨hlen, hall⟩, hrest⟩ := yields_series h hsize bs items _ hbs hitems
    exact ⟨Value.settled_array hlen hall, hrest⟩
  · obtain ⟨⟨es, rest₁⟩, hes, hv⟩ := of_map_eq_ok hread
    cases hv
    obtain ⟨⟨hlen, hall⟩, hrest⟩ := yields_series (yields_entry h) hsize bs es _ hbs hes
    obtain ⟨es', heq, hasc, hlen', hall'⟩ := Value.ofEntries_eq_map hall
    rw [heq]
    exact ⟨Value.settled_map (by omega) hasc hall', hrest⟩
  · obtain ⟨hv, hrest⟩ := h bs v rest hbs hread
    exact ⟨hv.succ, hrest⟩

theorem yields_int (info depth : Nat) {f : Nat → Int}
    (hf : ∀ {n}, n < UInt64.size → Value.intFits (f n) = true) :
    Yields (fun bs => (argument info bs).map fun (n, rest) => (Value.int (f n), rest))
      (Value.Settled depth) := by
  intro bs v rest hbs h
  obtain ⟨⟨n, rest₁⟩, hn, hv⟩ := of_map_eq_ok h
  cases hv
  obtain ⟨hlt, hrest⟩ := yields_argument info bs n _ hbs hn
  exact ⟨⟨.int (hf hlt), rfl⟩, hrest⟩

/-- The number of items that a holder says, or that a tag is on the next item. -/
theorem yields_size (major info : Nat) :
    Yields (fun bs => if major = 6 then (argument info bs).map fun (n, rest) =>
      (Extent.definite n, rest) else extent info bs) Extent.Fits := by
  intro bs e rest hbs h
  dsimp only at h
  split at h
  · obtain ⟨⟨n, rest₁⟩, hn, he⟩ := of_map_eq_ok h
    cases he
    exact yields_argument info bs n _ hbs hn
  · exact yields_extent info bs e rest hbs h

/-- Reading gives values that are nested less deep than it may go, if it does one level further
in. -/
theorem yields_item_succ {depth : Nat}
    (hinner : ∀ d, depth = d + 1 → Yields (item depth) (Value.Settled d)) :
    Yields (item (depth + 1)) (Value.Settled depth) := by
  intro bs v rest hbs h
  cases bs with
  | nil => cases h
  | cons b bs =>
    unfold item at h
    dsimp only at h
    split at h
    · exact (yields_int _ depth Value.intFits_ofNat).of_cons hbs h
    · exact (yields_int _ depth Value.intFits_negSucc).of_cons hbs h
    · exact (yields_string 2 _ depth).of_cons hbs h
    · exact (yields_string 3 _ depth).of_cons hbs h
    · exact (yields_simple _ depth).of_cons hbs h
    · split at h
      · cases h
      · rename_i size rest₁ hsize
        obtain ⟨hfits, hrest₁⟩ := (yields_size _ _).of_cons hbs hsize
        split at h
        · cases h
        · rename_i hdepth
          obtain ⟨d, rfl⟩ : ∃ d, depth = d + 1 := ⟨depth - 1, by omega⟩
          obtain ⟨hv, hrest⟩ :=
            yields_holder (hinner d rfl) _ hfits rest₁ v rest (by omega) h
          exact ⟨hv, by omega⟩

/-- Reading gives values that are nested less deep than it may go. -/
theorem yields_item (depth : Nat) : Yields (item (depth + 1)) (Value.Settled depth) := by
  induction depth with
  | zero => exact yields_item_succ fun d hd => by omega
  | succ depth ih =>
    refine yields_item_succ fun d hd => ?_
    obtain rfl : depth = d := by omega
    exact ih

end Reader

/-- What an input holds is settled and nested less deep than the levels there are. -/
theorem Value.settled_of_decode {bs : Bytes} {v : Value} (hbs : bs.length < UInt64.size)
    (h : Value.decode bs = .ok v) : v.Settled 127 := by
  unfold Value.decode at h
  split at h
  · cases h
  · rename_i w hread
    cases h
    exact (Reader.yields_item 127 bs _ _ hbs hread).1
  · cases h

end Meshway.Cbor
