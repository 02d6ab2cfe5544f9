import Meshway.Dialogue
set_option autoImplicit false

/-!
# What a dialogue comes to (SPEC §6)

A dialogue that comes to a result has read certain octets, no more, and has
written certain others on the way.  What it comes to is told by the octets that
arrive and not by how they are cut: carried on with each piece as it arrives, it
does what it does when everything is there at once.
-/

namespace Meshway.Dialogue

variable {ε α : Type} {client : Client} {connect : String → UInt16 → Except ε Unit}

/-! ## Coming to a result -/

/-- What a dialogue reads, writes and asks for on its way to a result.  Only a client that listens
can be written to. -/
inductive Comes (listening : Bool) (connect : String → UInt16 → Except ε Unit) :
    Dialogue ε α → Bytes → Bytes → List (String × UInt16) → α → Prop where
  | done {a : α} : Comes listening connect (.done a) [] [] [] a
  | read {n : Nat} {next : Bytes → Dialogue ε α} {octets input written : Bytes}
      {targets : List (String × UInt16)} {a : α} (hlen : octets.length = n) :
      Comes listening connect (next octets) input written targets a →
      Comes listening connect (.read n next) (octets ++ input) written targets a
  | write {octets input written : Bytes} {next : Dialogue ε α}
      {targets : List (String × UInt16)} {a : α} (hlistening : listening = true) :
      Comes listening connect next input written targets a →
      Comes listening connect (.write octets next) input (octets ++ written) targets a
  | connect {host : String} {port : UInt16} {next : Except ε Unit → Dialogue ε α}
      {input written : Bytes} {targets : List (String × UInt16)} {a : α} :
      Comes listening connect (next (connect host port)) input written targets a →
      Comes listening connect (.connect host port next) input written ((host, port) :: targets) a

/-- A dialogue finishes just when what it reads on its way to the result is at the front of what has
arrived. -/
theorem run_eq_finished_iff {d : Dialogue ε α} {input written unread : Bytes}
    {targets : List (String × UInt16)} {a : α} :
    run client connect d input = ⟨.finished a, written, unread, targets⟩ ↔
      ∃ w, input = w ++ unread ∧ Comes client.listening connect d w written targets a := by
  constructor
  · intro h
    induction d generalizing input written targets with
    | done b =>
      cases h
      exact ⟨[], rfl, .done⟩
    | read n next ih =>
      rw [run] at h
      split at h
      · rename_i hle
        obtain ⟨w, hw, hcomes⟩ := ih _ h
        refine ⟨input.take n ++ w, ?_, .read (List.length_take_of_le hle) hcomes⟩
        rw [List.append_assoc, ← hw, List.take_append_drop]
      · split at h <;> cases h
    | write octets next ih =>
      rw [run] at h
      split at h
      · rename_i hlistening
        obtain ⟨hprogress, rfl, hunread, htargets⟩ := Exchange.mk.inj h
        have hrun : run client connect next input =
            ⟨.finished a, (run client connect next input).written, unread, targets⟩ := by
          rw [← hprogress, ← hunread, ← htargets]
        obtain ⟨w, hw, hcomes⟩ := ih hrun
        exact ⟨w, hw, .write hlistening hcomes⟩
      · cases h
    | connect host port next ih =>
      rw [run] at h
      obtain ⟨hprogress, hwritten, hunread, rfl⟩ := Exchange.mk.inj h
      have hrun : run client connect (next (connect host port)) input = ⟨.finished a, written,
          unread, (run client connect (next (connect host port)) input).targets⟩ := by
        rw [← hprogress, ← hwritten, ← hunread]
      obtain ⟨w, hw, hcomes⟩ := ih _ hrun
      exact ⟨w, hw, .connect hcomes⟩
  · rintro ⟨w, rfl, hcomes⟩
    induction hcomes with
    | done => rfl
    | @read n next octets input written targets a hlen _ ih =>
      have hle : n ≤ (octets ++ input ++ unread).length := by
        simp only [List.length_append]
        omega
      rw [run, if_pos hle, List.append_assoc, ← hlen, List.take_left, List.drop_left]
      exact ih
    | write hlistening _ ih => rw [run, if_pos hlistening, ih]
    | connect _ ih => rw [run, ih]

/-! ### What single steps come to -/

section Steps

variable {listening : Bool} {input written : Bytes} {targets : List (String × UInt16)} {a b : α}

theorem comes_done_iff :
    Comes listening connect (.done b) input written targets a ↔
      input = [] ∧ written = [] ∧ targets = [] ∧ a = b := by
  constructor
  · rintro ⟨⟩
    exact ⟨rfl, rfl, rfl, rfl⟩
  · rintro ⟨rfl, rfl, rfl, rfl⟩
    exact .done

theorem comes_read_iff {n : Nat} {next : Bytes → Dialogue ε α} :
    Comes listening connect (.read n next) input written targets a ↔
      ∃ octets rest, input = octets ++ rest ∧ octets.length = n ∧
        Comes listening connect (next octets) rest written targets a := by
  constructor
  · rintro ⟨⟩
    rename_i octets rest hlen hcomes
    exact ⟨octets, rest, rfl, hlen, hcomes⟩
  · rintro ⟨octets, rest, rfl, hlen, hcomes⟩
    exact .read hlen hcomes

theorem comes_write_iff {octets : Bytes} {next : Dialogue ε α} :
    Comes listening connect (.write octets next) input written targets a ↔
      listening = true ∧ ∃ later, written = octets ++ later ∧
        Comes listening connect next input later targets a := by
  constructor
  · rintro ⟨⟩
    rename_i later hlistening hcomes
    exact ⟨hlistening, later, rfl, hcomes⟩
  · rintro ⟨hlistening, later, rfl, hcomes⟩
    exact .write hlistening hcomes

theorem comes_readByte_iff {next : UInt8 → Dialogue ε α} :
    Comes listening connect (readByte next) input written targets a ↔
      ∃ octet rest, input = octet :: rest ∧
        Comes listening connect (next octet) rest written targets a := by
  rw [readByte, comes_read_iff]
  constructor
  · rintro ⟨octets, rest, rfl, hlen, hcomes⟩
    obtain ⟨octet, rfl⟩ := List.length_eq_one_iff.1 hlen
    exact ⟨octet, rest, rfl, hcomes⟩
  · rintro ⟨octet, rest, rfl, hcomes⟩
    exact ⟨[octet], rest, rfl, rfl, hcomes⟩

theorem comes_readUInt16_iff {next : UInt16 → Dialogue ε α} :
    Comes listening connect (readUInt16 next) input written targets a ↔
      ∃ n rest, input = Bytes.ofUInt16 n ++ rest ∧
        Comes listening connect (next n) rest written targets a := by
  rw [readUInt16, comes_read_iff]
  constructor
  · rintro ⟨octets, rest, rfl, hlen, hcomes⟩
    exact ⟨_, rest, by rw [Bytes.ofUInt16_ofNat_toNat hlen], hcomes⟩
  · rintro ⟨n, rest, rfl, hcomes⟩
    refine ⟨Bytes.ofUInt16 n, rest, rfl, Bytes.length_ofNat _ _, ?_⟩
    rwa [Bytes.ofNat_toNat_ofUInt16]

/-- A string is read up to its end; or the octet that is too many is read, and there is no
string. -/
theorem comes_readTerminated_iff {room : Nat} {before : Bytes}
    {next : Option Bytes → Dialogue ε α} :
    Comes listening connect (readTerminated room before next) input written targets a ↔
      ∃ octets rest, octets.length ≤ room ∧ 0 ∉ octets ∧
        (input = octets ++ 0 :: rest ∧
            Comes listening connect (next (some (before ++ octets))) rest written targets a ∨
          ∃ octet, input = octets ++ octet :: rest ∧ octets.length = room ∧ octet ≠ 0 ∧
            Comes listening connect (next none) rest written targets a) := by
  induction room generalizing before input with
  | zero =>
    rw [readTerminated, comes_readByte_iff]
    constructor
    · rintro ⟨octet, rest, rfl, hcomes⟩
      refine ⟨[], rest, Nat.le_refl 0, List.not_mem_nil, ?_⟩
      by_cases hzero : octet = 0
      · rw [if_pos hzero] at hcomes
        exact .inl ⟨by rw [hzero]; rfl, by rwa [List.append_nil]⟩
      · rw [if_neg hzero] at hcomes
        exact .inr ⟨octet, rfl, rfl, hzero, hcomes⟩
    · rintro ⟨octets, rest, hlen, -, h⟩
      obtain rfl : octets = [] := List.eq_nil_of_length_eq_zero (Nat.le_zero.1 hlen)
      rcases h with ⟨rfl, hcomes⟩ | ⟨octet, rfl, -, hzero, hcomes⟩
      · exact ⟨0, rest, rfl, by rwa [if_pos rfl, ← List.append_nil before]⟩
      · exact ⟨octet, rest, rfl, by rwa [if_neg hzero]⟩
  | succ room ih =>
    rw [readTerminated, comes_readByte_iff]
    constructor
    · rintro ⟨octet, input, rfl, hcomes⟩
      by_cases hzero : octet = 0
      · rw [if_pos hzero] at hcomes
        refine ⟨[], input, Nat.zero_le _, List.not_mem_nil, .inl ⟨by rw [hzero]; rfl, ?_⟩⟩
        rwa [List.append_nil]
      · rw [if_neg hzero, ih] at hcomes
        obtain ⟨octets, rest, hlen, hmem, h⟩ := hcomes
        refine ⟨octet :: octets, rest, Nat.succ_le_succ hlen, ?_, ?_⟩
        · simp [hmem, Ne.symm hzero]
        · rcases h with ⟨rfl, hcomes⟩ | ⟨excess, rfl, hfull, hexcess, hcomes⟩
          · exact .inl ⟨rfl, by simpa using hcomes⟩
          · exact .inr ⟨excess, rfl, congrArg (· + 1) hfull, hexcess, hcomes⟩
    · rintro ⟨octets, rest, hlen, hmem, h⟩
      cases octets with
      | nil =>
        rcases h with ⟨rfl, hcomes⟩ | ⟨_, _, hfull, _⟩
        · exact ⟨0, rest, rfl, by rwa [if_pos rfl, ← List.append_nil before]⟩
        · cases hfull
      | cons octet octets =>
        rw [List.mem_cons, not_or] at hmem
        obtain ⟨hzero, hmem⟩ := hmem
        have hstep : Comes listening connect (readTerminated room (before ++ [octet]) next)
            (input.drop 1) written targets a := by
          refine ih.2 ⟨octets, rest, Nat.le_of_succ_le_succ hlen, hmem, ?_⟩
          rcases h with ⟨rfl, hcomes⟩ | ⟨excess, rfl, hfull, hexcess, hcomes⟩
          · exact .inl ⟨rfl, by simpa using hcomes⟩
          · exact .inr ⟨excess, rfl, Nat.succ_inj.1 hfull, hexcess, hcomes⟩
        refine ⟨octet, input.drop 1, ?_, by rwa [if_neg (Ne.symm hzero)]⟩
        rcases h with ⟨rfl, -⟩ | ⟨excess, rfl, -⟩ <;> rfl

end Steps

/-! ## How much is read -/

/-- Whether a dialogue asks for no connection and reads at most so many octets, whatever they
are. -/
def Confined : Dialogue ε α → Nat → Prop
  | .done _, _ => True
  | .read n next, most => n ≤ most ∧ ∀ octets, octets.length = n → Confined (next octets) (most - n)
  | .write _ next, most => Confined next most
  | .connect .., _ => False

/-- What is left unread is the end of what has arrived, and not much is missing. -/
theorem unread_of_confined {d : Dialogue ε α} {most : Nat} (h : d.Confined most)
    (input : Bytes) :
    (run client connect d input).unread <:+ input ∧
      input.length ≤ (run client connect d input).unread.length + most := by
  induction d generalizing most input with
  | done a => exact ⟨List.suffix_refl _, Nat.le_add_right _ _⟩
  | read n next ih =>
    obtain ⟨hn, hnext⟩ := h
    by_cases hle : n ≤ input.length
    · rw [run, if_pos hle]
      obtain ⟨hsuffix, hlen⟩ := ih _ (hnext _ (List.length_take_of_le hle)) (input.drop n)
      rw [List.length_drop] at hlen
      exact ⟨hsuffix.trans (List.drop_suffix _ _), by omega⟩
    · rw [run, if_neg hle]
      split
      · exact ⟨List.nil_suffix, by simp only [List.length_nil]; omega⟩
      · exact ⟨List.nil_suffix, by simp only [List.length_nil]; omega⟩
  | write octets next ih =>
    rw [run]
    split
    · exact ih h input
    · exact ⟨List.suffix_refl _, Nat.le_add_right _ _⟩
  | connect host port next ih => exact h.elim

section Reads

variable {most : Nat}

theorem Confined.mono {d : Dialogue ε α} {more : Nat} (h : d.Confined most)
    (hle : most ≤ more) : d.Confined more := by
  induction d generalizing most more with
  | done => trivial
  | read n next ih =>
    obtain ⟨hn, hnext⟩ := h
    exact ⟨Nat.le_trans hn hle, fun octets hlen =>
      ih octets (hnext octets hlen) (Nat.sub_le_sub_right hle n)⟩
  | write octets next ih => exact ih h hle
  | connect host port next ih => exact h

theorem confined_readByte {next : UInt8 → Dialogue ε α}
    (h : ∀ octet, (next octet).Confined most) : (readByte next).Confined (most + 1) :=
  ⟨Nat.le_add_left _ _, fun _ _ => h _⟩

theorem confined_readTerminated {room : Nat} {before : Bytes}
    {next : Option Bytes → Dialogue ε α} (h : ∀ octets, (next octets).Confined most) :
    (readTerminated room before next).Confined (most + (room + 1)) := by
  induction room generalizing before with
  | zero => exact confined_readByte fun _ => h _
  | succ room ih =>
    refine confined_readByte fun octet => ?_
    split
    · exact (h _).mono (Nat.le_add_right _ _)
    · exact ih

end Reads

/-- A dialogue that asks for no connection still asks for none when it waits for more. -/
theorem Confined.run {d : Dialogue ε α} {most : Nat} (h : d.Confined most) (input : Bytes) :
    (run client connect d input).targets = [] ∧
      ∀ rest, (run client connect d input).progress = .waiting rest →
        ∃ less, rest.Confined less := by
  induction d generalizing most input with
  | done a => exact ⟨rfl, nofun⟩
  | read n next ih =>
    obtain ⟨hn, hnext⟩ := h
    by_cases hle : n ≤ input.length
    · rw [Dialogue.run, if_pos hle]
      exact ih _ (hnext _ (List.length_take_of_le hle)) _
    · rw [Dialogue.run, if_neg hle]
      split
      · exact ⟨rfl, nofun⟩
      · refine ⟨rfl, ?_⟩
        rintro _ ⟨⟩
        refine ⟨most - input.length, Nat.sub_le_sub_right hn _, fun octets hlen => ?_⟩
        have hall : (input ++ octets).length = n := by
          rw [List.length_append]
          omega
        have hleft : most - input.length - (n - input.length) = most - n := by omega
        rw [hleft]
        exact hnext _ hall
  | write octets next ih =>
    rw [Dialogue.run]
    split
    · exact ih h input
    · exact ⟨rfl, nofun⟩
  | connect host port next ih => exact h.elim

/-! ## Octets that arrive in pieces -/

/-- Only whether a client has ended and whether it listens make a difference. -/
theorem run_congr {client' : Client} (hended : client.ended = client'.ended)
    (hlistening : client.listening = client'.listening) (d : Dialogue ε α) (input : Bytes) :
    run client connect d input = run client' connect d input := by
  induction d generalizing input with
  | done a => rfl
  | read n next ih => simp only [run, ih, hended]
  | write octets next ih => simp only [run, ih, hlistening]
  | connect host port next ih => simp only [run, ih]

/-- A client that does not listen is told nothing. -/
theorem written_of_not_listening (h : client.listening = false) (d : Dialogue ε α) (input : Bytes) :
    (run client connect d input).written = [] := by
  induction d generalizing input with
  | done a => rfl
  | read n next ih =>
    rw [run]
    split
    · exact ih _ _
    · split <;> rfl
  | write octets next ih =>
    rw [run, if_neg (by simp [h])]
  | connect host port next ih => exact ih _ _

/-- A dialogue waits only for a client that has not ended, when it has read all there is. -/
theorem of_waiting {d rest : Dialogue ε α} {input : Bytes}
    (h : (run client connect d input).progress = .waiting rest) :
    client.ended = false ∧ (run client connect d input).unread = [] := by
  induction d generalizing input with
  | done a => cases h
  | read n next ih =>
    rw [run] at h ⊢
    split at h
    · rename_i hle
      rw [if_pos hle]
      exact ih _ h
    · rename_i hle
      rw [if_neg hle]
      split at h
      · cases h
      · rename_i hended
        rw [if_neg hended]
        exact ⟨Bool.eq_false_iff.2 hended, rfl⟩
  | write octets next ih =>
    rw [run] at h ⊢
    split at h
    · rename_i hlistening
      rw [if_pos hlistening]
      exact ih h
    · cases h
  | connect host port next ih => exact ih _ h

/-- A dialogue that is carried on when more has arrived does what it would have done with everything
at once. -/
theorem run_append (d : Dialogue ε α) (xs ys : Bytes) :
    run client connect d (xs ++ ys) =
      let e := run { client with ended := false } connect d xs
      match e.progress with
      | .waiting rest =>
        let later := run client connect rest ys
        { later with written := e.written ++ later.written, targets := e.targets ++ later.targets }
      | _ => { e with unread := e.unread ++ ys } := by
  induction d generalizing xs with
  | done a => rfl
  | read n next ih =>
    by_cases hle : n ≤ xs.length
    · have hle' : n ≤ (xs ++ ys).length := by
        rw [List.length_append]
        omega
      rw [run, if_pos hle', run, if_pos hle, List.take_append_of_le_length hle,
        List.drop_append_of_le_length hle]
      exact ih _ _
    · have hwaiting : run { client with ended := false } connect (.read n next) xs =
          ⟨.waiting (.read (n - xs.length) fun bs => next (xs ++ bs)), [], [], []⟩ := by
        rw [run, if_neg hle]
        rfl
      have hiff : n ≤ xs.length + ys.length ↔ n - xs.length ≤ ys.length := by omega
      have htake : (xs ++ ys).take n = xs ++ ys.take (n - xs.length) := by
        rw [List.take_append, List.take_of_length_le (by omega)]
      have hdrop : (xs ++ ys).drop n = ys.drop (n - xs.length) := by
        rw [List.drop_append, List.drop_eq_nil_of_le (by omega), List.nil_append]
      rw [hwaiting]
      simp only [run, List.nil_append, List.length_append, hiff, htake, hdrop, Nat.sub_sub,
        List.append_assoc]
  | write octets next ih =>
    by_cases hlistening : client.listening = true
    · simp only [run, hlistening, if_true, ih xs]
      split <;> simp [*]
    · simp only [run, hlistening]
      rfl
  | connect host port next ih =>
    simp only [run, ih (connect host port) xs]
    split <;> simp [*]

/-- A dialogue that has heard a piece either waits, and what is behind the piece takes it where it
would have come with everything at once, or it has come there already. -/
theorem run_split {whole : Client} {d : Dialogue ε α} {piece later : Bytes}
    (hended : client.ended = true → later = []) (hwhole : whole.ended = true)
    (hlistening : whole.listening = client.listening) :
    (∃ rest, (run client connect d piece).progress = .waiting rest ∧
        run whole connect d (piece ++ later) =
          { run whole connect rest later with
            written := (run client connect d piece).written ++
              (run whole connect rest later).written
            targets := (run client connect d piece).targets ++
              (run whole connect rest later).targets }) ∨
      (∀ rest, (run client connect d piece).progress ≠ .waiting rest) ∧
        run whole connect d (piece ++ later) = { run client connect d piece with
          unread := (run client connect d piece).unread ++ later } := by
  by_cases hlast : client.ended = true
  · obtain rfl := hended hlast
    refine .inr ⟨fun rest hwaiting => ?_, ?_⟩
    · rw [(of_waiting hwaiting).1] at hlast
      cases hlast
    · rw [List.append_nil, List.append_nil, run_congr (hwhole.trans hlast.symm) hlistening]
  · have hpiece : run { whole with ended := false } connect d piece = run client connect d piece :=
      @run_congr _ _ { whole with ended := false } connect client (Bool.eq_false_iff.2 hlast).symm
        hlistening d piece
    rw [run_append, hpiece]
    cases hprogress : (run client connect d piece).progress with
    | waiting rest => exact .inl ⟨rest, rfl, by simp only [hprogress]⟩
    | finished a => exact .inr ⟨nofun, by simp only [hprogress]⟩
    | failed fault => exact .inr ⟨nofun, by simp only [hprogress]⟩

/-- Carries a dialogue on with each piece as it arrives.  When the last has arrived, the client has
ended or not. -/
def hear (client : Client) (connect : String → UInt16 → Except ε Unit) :
    Dialogue ε α → List Bytes → Exchange ε α
  | d, [] => run client connect d []
  | d, piece :: pieces =>
    let e := run { client with ended := false } connect d piece
    match e.progress with
    | .waiting rest =>
      let later := hear client connect rest pieces
      { later with written := e.written ++ later.written, targets := e.targets ++ later.targets }
    | _ => { e with unread := e.unread ++ pieces.flatten }

/-- How the octets are cut when they arrive makes no difference. -/
theorem hear_eq_run (d : Dialogue ε α) (pieces : List Bytes) :
    hear client connect d pieces = run client connect d pieces.flatten := by
  induction pieces generalizing d with
  | nil => rfl
  | cons piece pieces ih =>
    rw [List.flatten_cons, run_append, hear]
    simp only [ih]

end Meshway.Dialogue
