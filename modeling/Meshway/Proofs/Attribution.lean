import Mathlib.Algebra.Group.Nat.Defs
import Meshway.Message
import Meshway.Proofs.Text.Decimal
import Meshway.Proofs.Text.Separator
set_option autoImplicit false

/-!
# Whom a message is from (SPEC §3, §10.3 items 2, 3 and 9)

What the gateway passes on is from the party whose phone number it gives: in
front of a text, in a field of a short message.  The digits of the phone number
make the identity of that party.  Main statement: a text from the gateway is
attributed to a party just when it begins with a phone number in the
international form, whose digits make an identity, and a space, which both go; a
short message from the gateway whose digits make no identity is refused.  From
anybody else, texts and short messages are taken as they are.
-/

namespace Meshway

/-! ## Phone numbers -/

namespace Phone

/-- The number that the digits among characters make: each has its place by the digits behind it,
and nothing else counts. -/
def value : List Char → Nat
  | [] => 0
  | c :: cs =>
    (if c.isDigit then (c.toNat - '0'.toNat) * 10 ^ cs.countP Char.isDigit else 0) + value cs

/-- A phone number identifies a node: there are digits in it, and the number that they make is the
identity of the node. -/
def Identifies (phone : String) (gid : UInt64) : Prop :=
  (∃ c ∈ phone.toList, c.isDigit) ∧ value phone.toList = gid.toNat

/-- A phone number in the international form: behind at most one plus sign stand digits, dots and
dashes, a digit among them. -/
def IsInternational (phone : String) : Prop :=
  ∃ sign body, phone.toList = sign ++ body ∧ (sign = [] ∨ sign = ['+']) ∧
    (∃ c ∈ body, c.isDigit) ∧ ∀ c ∈ body, c.isDigit ∨ c = '.' ∨ c = '-'

/-- Read from the front, digits add to ten times what stands before them. -/
theorem ofDigitChars_filter (cs : List Char) (n : Nat) :
    Nat.ofDigitChars 10 (cs.filter Char.isDigit) n =
      n * 10 ^ cs.countP Char.isDigit + value cs := by
  induction cs generalizing n with
  | nil => simp [value]
  | cons c cs ih =>
    cases hdigit : c.isDigit with
    | true =>
      rw [List.filter_cons_of_pos hdigit, Nat.ofDigitChars_cons, ih,
        List.countP_cons_of_pos hdigit, value, if_pos hdigit, Nat.pow_succ, Nat.add_mul,
        Nat.mul_comm 10 n, Nat.mul_assoc, Nat.mul_comm 10, Nat.add_assoc]
    | false =>
      have hother : ¬ c.isDigit = true := Bool.eq_false_iff.1 hdigit
      rw [List.filter_cons_of_neg hother, ih, List.countP_cons_of_neg hother, value,
        if_neg hother, Nat.zero_add]

/-- The digits of a phone number are read if there are any and the number that they make is not too
large. -/
theorem digits?_filter_eq_some_iff {limit n : Nat} {cs : List Char} :
    Decimal.digits? limit (cs.filter Char.isDigit) = some n ↔
      (∃ c ∈ cs, c.isDigit) ∧ value cs = n ∧ n ≤ limit := by
  have hvalue : Nat.ofDigitChars 10 (cs.filter Char.isDigit) 0 = value cs := by
    rw [ofDigitChars_filter, Nat.zero_mul, Nat.zero_add]
  have hany : cs.filter Char.isDigit ≠ [] ↔ ∃ c ∈ cs, c.isDigit := by
    simp [List.filter_eq_nil_iff]
  have hall : ∀ c ∈ cs.filter Char.isDigit, c.isDigit := fun c hc => (List.mem_filter.1 hc).2
  rw [Decimal.digits?_eq_some_iff, hvalue, hany]
  exact and_congr_right fun _ => and_iff_right hall

theorem gid?_eq_some_iff {phone : String} {gid : UInt64} :
    gid? phone = some gid ↔ Identifies phone gid := by
  simp only [gid?, Option.map_eq_some_iff, digits?_filter_eq_some_iff]
  constructor
  · rintro ⟨n, ⟨hdigit, hvalue, hle⟩, rfl⟩
    refine ⟨hdigit, hvalue.trans ?_⟩
    exact (UInt64.toNat_ofNat_of_lt' (Nat.lt_succ_of_le hle)).symm
  · rintro ⟨hdigit, hvalue⟩
    exact ⟨gid.toNat, ⟨hdigit, hvalue, Nat.le_of_lt_succ gid.toNat_lt⟩, UInt64.ofNat_toNat⟩

/-- A phone number identifies no node if it has no digits, or if they make too large a number. -/
theorem gid?_eq_none_iff {phone : String} :
    gid? phone = none ↔ (∀ c ∈ phone.toList, ¬ c.isDigit) ∨ 2 ^ 64 ≤ value phone.toList := by
  rw [Option.eq_none_iff_forall_ne_some]
  constructor
  · intro hnone
    by_cases hdigit : ∃ c ∈ phone.toList, c.isDigit
    · refine .inr (Nat.le_of_not_lt fun hlt => ?_)
      have hvalue := (UInt64.toNat_ofNat_of_lt' hlt).symm
      exact hnone _ (gid?_eq_some_iff.2 ⟨hdigit, hvalue⟩)
    · exact .inl fun c hc hc' => hdigit ⟨c, hc, hc'⟩
  · rintro hno gid hgid
    obtain ⟨⟨c, hc, hdigit⟩, hvalue⟩ := gid?_eq_some_iff.1 hgid
    rcases hno with hnone | hlarge
    · exact hnone c hc hdigit
    · exact Nat.not_le.2 gid.toNat_lt (hvalue ▸ hlarge)

theorem isNumber_iff {cs : List Char} :
    isNumber cs = true ↔
      (∃ c ∈ cs, c.isDigit) ∧ ∀ c ∈ cs, c.isDigit ∨ c = '.' ∨ c = '-' := by
  simp [isNumber, or_assoc]

theorem isGlobal_iff {phone : String} : isGlobal phone = true ↔ IsInternational phone := by
  have hplus : ¬ (('+').isDigit ∨ '+' = '.' ∨ '+' = '-') := by decide
  unfold isGlobal
  split
  · rename_i cs hphone
    rw [isNumber_iff]
    constructor
    · intro hbody
      exact ⟨['+'], cs, hphone, .inr rfl, hbody⟩
    · rintro ⟨sign, body, hsplit, rfl | rfl, hbody⟩
      · rw [List.nil_append] at hsplit
        exact absurd (hbody.2 '+' (by simp [← hsplit, hphone])) hplus
      · obtain rfl : cs = body := by simpa [hphone] using hsplit
        exact hbody
  · rename_i hphone
    rw [isNumber_iff]
    constructor
    · intro hbody
      exact ⟨[], phone.toList, rfl, .inl rfl, hbody⟩
    · rintro ⟨sign, body, hsplit, rfl | rfl, hbody⟩
      · rw [List.nil_append] at hsplit
        rwa [hsplit]
      · exact absurd hsplit (hphone body)

/-- There are no spaces in a phone number in the international form. -/
theorem IsInternational.space_notMem {phone : String} (h : IsInternational phone) :
    ' ' ∉ phone.toList := by
  obtain ⟨sign, body, hsplit, hsign, -, hbody⟩ := h
  rw [hsplit, List.mem_append]
  rintro (hmem | hmem)
  · rcases hsign with rfl | rfl <;> revert hmem <;> decide
  · exact absurd (hbody ' ' hmem) (by decide)

end Phone

/-! ## Texts from the gateway -/

theorem splitAtSpace?_of_first {s : String} {front back : List Char} (h : ' ' ∉ front)
    (hs : s.toList = front ++ ' ' :: back) :
    splitAtSpace? s = some (String.ofList front, String.ofList back) := by
  rw [splitAtSpace?, hs, Text.dropWhile_front h, Text.takeWhile_front h]

/-- A text is divided at its first space, if it has one. -/
theorem splitAtSpace?_eq_some_iff {s front back : String} :
    splitAtSpace? s = some (front, back) ↔ s = front ++ " " ++ back ∧ ' ' ∉ front.toList := by
  constructor
  · intro h
    by_cases hspace : ' ' ∈ s.toList
    · obtain ⟨before, after, hs, hfirst⟩ := List.eq_append_cons_of_mem hspace
      rw [splitAtSpace?_of_first hfirst hs, Option.some.injEq, Prod.mk.injEq] at h
      obtain ⟨rfl, rfl⟩ := h
      refine ⟨String.toList_inj.1 ?_, by simpa using hfirst⟩
      simp [hs]
    · rw [splitAtSpace?, Text.dropWhile_of_notMem hspace] at h
      cases h
  · rintro ⟨rfl, hfirst⟩
    have hs : (front ++ " " ++ back).toList = front.toList ++ ' ' :: back.toList := by simp
    rw [splitAtSpace?_of_first hfirst hs, String.ofList_toList, String.ofList_toList]

namespace Packet

/-- A text names the party it is from: it is a phone number in the international form that
identifies the party, a space and the rest. -/
def Names (s : String) (gid : UInt64) (rest : String) : Prop :=
  ∃ phone, s = phone ++ " " ++ rest ∧ Phone.IsInternational phone ∧ Phone.Identifies phone gid

theorem attribution?_eq_some_iff {s rest : String} {gid : UInt64} :
    attribution? s = some (gid, rest) ↔ Names s gid rest := by
  constructor
  · intro h
    unfold attribution? at h
    split at h
    · cases h
    · rename_i phone rest' hsplit
      split at h
      · rename_i hglobal
        obtain ⟨gid', hgid, heq⟩ := Option.map_eq_some_iff.1 h
        obtain ⟨rfl, rfl⟩ := Prod.mk.inj heq
        exact ⟨phone, (splitAtSpace?_eq_some_iff.1 hsplit).1, Phone.isGlobal_iff.1 hglobal,
          Phone.gid?_eq_some_iff.1 hgid⟩
      · cases h
  · rintro ⟨phone, hs, hform, hgid⟩
    have hsplit : splitAtSpace? s = some (phone, rest) :=
      splitAtSpace?_eq_some_iff.2 ⟨hs, hform.space_notMem⟩
    simp only [attribution?, hsplit, Phone.isGlobal_iff.2 hform, if_true,
      Phone.gid?_eq_some_iff.2 hgid, Option.map_some]

/-! ## Messages -/

variable {p : Packet} {s : String} {bs : Bytes} {body : Sms}

theorem ofPacket_of_text (h : p.data = .text s) : Message.ofPacket p = .ok (p.textMessage s) := by
  rw [Message.ofPacket, h]

theorem ofPacket_of_sms (h : p.data = .binary bs) (hbody : Payload.decode bs = .ok (.sms body)) :
    Message.ofPacket p = p.smsMessage body := by
  simp only [Message.ofPacket, h, hbody]

/-- A text or short message from anybody but the gateway is from who sent the packet, and is taken
as it is.  A text from the gateway is from the party that it names in front, and is the rest; one
that names no party is taken as it is.  A short message from the gateway is from the party that its
phone number identifies, and one whose phone number identifies nobody is refused.  Receiver, time,
phone number and the text of a short message are never changed. -/
theorem attributes_senders (p : Packet) :
    (∀ s, p.data = .text s →
      (p.sender ≠ phoneGateway → Message.ofPacket p = .ok (.text p.origin s)) ∧
      (p.sender = phoneGateway →
        (∀ gid rest, Names s gid rest →
          Message.ofPacket p = .ok (.text ⟨gid, p.receiver, p.sentMs⟩ rest)) ∧
        ((∀ gid rest, ¬ Names s gid rest) → Message.ofPacket p = .ok (.text p.origin s)))) ∧
    ∀ bs body, p.data = .binary bs → Payload.decode bs = .ok (.sms body) →
      (p.sender ≠ phoneGateway → Message.ofPacket p = .ok (.sms p.origin body)) ∧
      (p.sender = phoneGateway →
        (∀ gid, Message.ofPacket p = .ok (.sms ⟨gid, p.receiver, p.sentMs⟩ body) ↔
          Phone.Identifies body.phone gid) ∧
        (Message.ofPacket p = .error (.gatewayPhone body.phone) ↔
          (∀ c ∈ body.phone.toList, ¬ c.isDigit) ∨ 2 ^ 64 ≤ Phone.value body.phone.toList)) := by
  refine ⟨fun s hdata => ?_, fun bs body hdata hbody => ?_⟩
  · rw [ofPacket_of_text hdata, textMessage]
    refine ⟨fun hother => by rw [if_neg hother], fun hgateway => ?_⟩
    rw [if_pos hgateway]
    constructor
    · intro gid rest hnames
      rw [attribution?_eq_some_iff.2 hnames]
      rfl
    · intro hnobody
      have hnone : attribution? s = none := Option.eq_none_iff_forall_ne_some.2
        fun ⟨gid, rest⟩ hsome => hnobody gid rest (attribution?_eq_some_iff.1 hsome)
      rw [hnone]
  · rw [ofPacket_of_sms hdata hbody, smsMessage]
    refine ⟨fun hother => by rw [if_neg hother], fun hgateway => ?_⟩
    rw [if_pos hgateway]
    simp only [← Phone.gid?_eq_some_iff, ← Phone.gid?_eq_none_iff]
    cases Phone.gid? body.phone with
    | none => simp
    | some gid => simp [origin]

/-- A text that begins with a phone number of three digits, and a short message with a phone number
of two digits. -/
theorem attributes_senders_by_digits :
    let s := "+1.5-5 see you"
    let p : Packet := ⟨phoneGateway, 9, 5, .text s⟩
    let body : Sms := ⟨"x1 (2)", "hi"⟩
    let bs : Bytes := [0xa2, 0x18, 0x19, 0x66, 0x78, 0x31, 0x20, 0x28, 0x32, 0x29, 0x18, 0x1a, 0x62,
      0x68, 0x69]
    let q : Packet := ⟨phoneGateway, 9, 5, .binary bs⟩
    Names s 155 "see you" ∧ Message.ofPacket p = .ok (.text ⟨155, 9, 5⟩ "see you") ∧
      Payload.decode bs = .ok (.sms body) ∧ Phone.Identifies body.phone 12 ∧
      Message.ofPacket q = .ok (.sms ⟨12, 9, 5⟩ body) := by
  intro s p body bs q
  have hnames : Names s 155 "see you" := attribution?_eq_some_iff.1 (by decide)
  have hbody : Payload.decode bs = .ok (.sms body) := rfl
  have hphone : Phone.Identifies body.phone 12 := Phone.gid?_eq_some_iff.1 (by decide)
  exact ⟨hnames, (((attributes_senders p).1 s rfl).2 rfl).1 155 "see you" hnames, hbody, hphone,
    ((((attributes_senders q).2 bs body rfl hbody).2 rfl).1 12).2 hphone⟩

end Packet

end Meshway
