import Meshway.Proofs.Frame
set_option autoImplicit false

/-!
# Datagrams are written and read exactly (SPEC §10.3 item 17)

A packet leaves at a moment of the clock, and bears that moment in whole
milliseconds of eight octets; all else of it is written as it is.  Main statement:
that is what is read of the datagram; a datagram that is read is the one that is
written for what was read of it, but for the octet that asks for encryption,
which has two forms; and a datagram that is not read is too short, of no known
kind, or no text.
-/

namespace Meshway.Frame

/-! ## Moments -/

namespace Departure

/-- A packet that was heard, as one that leaves at the time it bears. -/
def ofPacket (p : Packet) : Departure := ⟨p.sender, p.receiver, p.sentMs * nsPerMs, p.data⟩

/-- The time that is written is the moment rounded down, as far as there are octets for it. -/
theorem clampTime_sentMs (d : Departure) :
    (clampTime d.sentMs : Int) = max 0 (min (d.sentNs / nsPerMs) (UInt64.size - 1)) := by
  unfold clampTime sentMs nsPerMs
  split <;> omega

/-- A time in whole milliseconds is written as it is. -/
theorem clampTime_sentMs_ofPacket (p : Packet) :
    clampTime (ofPacket p).sentMs = clampTime p.sentMs := by
  unfold clampTime sentMs ofPacket nsPerMs
  simp only
  split <;> omega

theorem encode_ofPacket (p : Packet) (encrypt : Bool) :
    (ofPacket p).encode encrypt = Frame.encode p encrypt := by
  have htime := clampTime_sentMs_ofPacket p
  unfold encode Frame.encode
  rw [htime]
  rfl

end Departure

/-! ## What is written is read -/

theorem decode_encode (p : Packet) (encrypt : Bool) :
    decode (encode p encrypt) = .ok { p with sentMs := clampTime p.sentMs } := by
  rw [encode_eq, decode_header_append, contentOf_content]
  rfl

/-! ## What is read was written -/

/-- The fields in the header of a datagram, and what is behind each of them. -/
theorem field_append_drop {n : Nat} {frame : Bytes} (h : n + 8 ≤ frame.length) :
    Bytes.ofNat 8 (fieldAt n frame) ++ frame.drop (n + 8) = frame.drop n := by
  have hlength : ((frame.drop n).take 8).length = 8 := by
    rw [List.length_take, List.length_drop]
    omega
  rw [fieldAt, Bytes.ofNat_toNat hlength, ← List.drop_drop, List.take_append_drop]

theorem fieldAt_lt (n : Nat) (frame : Bytes) : fieldAt n frame < UInt64.size := by
  have hfield := Bytes.toNat_lt_pow ((frame.drop n).take 8)
  have hlength : ((frame.drop n).take 8).length ≤ 8 := List.length_take_le _ _
  exact Nat.lt_of_lt_of_le hfield (Nat.pow_le_pow_right (by decide) hlength)

/-- An octet of a datagram, and what is behind it. -/
theorem getD_cons_drop {n : Nat} {frame : Bytes} (h : n < frame.length) :
    frame.getD n 0 :: frame.drop (n + 1) = frame.drop n := by
  rw [List.getD, List.getElem?_eq_getElem h, Option.getD_some, List.getElem_cons_drop]

/-- What stands in a datagram before the octet that asks for encryption. -/
def front (frame : Bytes) : Bytes :=
  Bytes.ofNat 8 (fieldAt 0 frame) ++ (Bytes.ofNat 8 (fieldAt 8 frame) ++
    (Bytes.ofNat 8 (fieldAt 16 frame) ++ [frame.getD 24 0]))

theorem length_front (frame : Bytes) : (front frame).length = 25 := by simp [front]

/-- A datagram consists of its fields. -/
theorem front_append {frame : Bytes} (h : headerLength ≤ frame.length) :
    front frame ++ frame.getD 25 0 :: frame.drop headerLength = frame := by
  unfold headerLength at h ⊢
  have hkind : frame.getD 24 0 :: frame.getD 25 0 :: frame.drop 26 = frame.drop 24 := by
    rw [getD_cons_drop (n := 25) h, getD_cons_drop (n := 24) (Nat.lt_of_succ_lt h)]
  calc front frame ++ frame.getD 25 0 :: frame.drop 26
      = Bytes.ofNat 8 (fieldAt 0 frame) ++ (Bytes.ofNat 8 (fieldAt 8 frame) ++
          (Bytes.ofNat 8 (fieldAt 16 frame) ++ frame.drop 24)) := by simp [front, ← hkind]
    _ = Bytes.ofNat 8 (fieldAt 0 frame) ++ (Bytes.ofNat 8 (fieldAt 8 frame) ++
          frame.drop 16) := by rw [field_append_drop (n := 16) (by omega)]
    _ = Bytes.ofNat 8 (fieldAt 0 frame) ++ frame.drop 8 := by
      rw [field_append_drop (n := 8) (by omega)]
    _ = frame := field_append_drop (n := 0) (by omega)

/-- What is read of a datagram. -/
theorem decode_eq_ok {frame : Bytes} {p : Packet} (h : decode frame = .ok p) :
    headerLength ≤ frame.length ∧ p.sender.toNat = fieldAt 0 frame ∧
      p.receiver.toNat = fieldAt 8 frame ∧ p.sentMs = fieldAt 16 frame ∧
      content p.data = (frame.getD 24 0, frame.drop headerLength) := by
  unfold decode at h
  split at h
  · cases h
  · rename_i hlong
    split at h
    · cases h
    · rename_i data hdata
      cases h
      exact ⟨Nat.not_lt.1 hlong, UInt64.toNat_ofNat_of_lt' (fieldAt_lt 0 frame),
        UInt64.toNat_ofNat_of_lt' (fieldAt_lt 8 frame), rfl, content_of_contentOf hdata⟩

/-- A packet that was read is written as the datagram that it was read of.  Only whether that asks
for encryption was not read. -/
theorem encode_of_decode {frame : Bytes} {p : Packet} (h : decode frame = .ok p)
    (encrypt : Bool) :
    encode p encrypt = frame.set 25 (if encrypt then 1 else 0) := by
  obtain ⟨hlong, hsender, hreceiver, htime, hcontent⟩ := decode_eq_ok h
  have hclamp : clampTime p.sentMs = fieldAt 16 frame := by
    rw [htime]
    exact Nat.min_eq_left (Nat.le_sub_one_of_lt (fieldAt_lt 16 frame))
  have hfields : encode p encrypt =
      front frame ++ (if encrypt then 1 else 0) :: frame.drop headerLength := by
    simp [encode, hcontent, hclamp, Bytes.ofUInt64, hsender, hreceiver, front]
  have hset : frame.set 25 (if encrypt then 1 else 0) =
      (front frame ++ frame.getD 25 0 :: frame.drop headerLength).set 25
        (if encrypt then 1 else 0) := by rw [front_append hlong]
  rw [hfields, hset, List.set_append_right _ _ (Nat.le_of_eq (length_front frame)), length_front]
  rfl

/-! ## What is not read -/

/-- What is wrong with a datagram that is no packet. -/
inductive Flawed (frame : Bytes) : Fault → Prop where
  | truncated (hshort : frame.length < headerLength) : Flawed frame (.truncated frame.length)
  | unknownKind (hlong : headerLength ≤ frame.length) (hkind : textKind < frame.getD 24 0) :
      Flawed frame (.unknownKind (frame.getD 24 0))
  | badText (hlong : headerLength ≤ frame.length) (hkind : frame.getD 24 0 = textKind)
      (htext : ∀ s, Utf8.encode s ≠ frame.drop headerLength) : Flawed frame .badText

theorem textKind_lt_iff (kind : UInt8) :
    textKind < kind ↔ kind ≠ binaryKind ∧ kind ≠ textKind := by
  rw [UInt8.lt_iff_toNat_lt, ne_eq, ne_eq, ← UInt8.toNat_inj, ← UInt8.toNat_inj]
  change 1 < kind.toNat ↔ ¬ kind.toNat = 0 ∧ ¬ kind.toNat = 1
  omega

/-- Octets are no text just when no text is written so. -/
theorem decode?_eq_none_iff (octets : Bytes) :
    Utf8.decode? octets = none ↔ ∀ s, Utf8.encode s ≠ octets := by
  constructor
  · rintro hnone s rfl
    rw [Utf8.decode?_encode] at hnone
    cases hnone
  · intro hne
    cases hread : Utf8.decode? octets with
    | none => rfl
    | some s => exact absurd (Utf8.encode_of_decode? hread) (hne s)

theorem decode_of_flawed {frame : Bytes} {e : Fault} (h : Flawed frame e) :
    decode frame = .error e := by
  cases h with
  | truncated hshort => rw [decode, if_pos hshort]
  | unknownKind hlong hkind =>
    obtain ⟨hbinary, htext⟩ := (textKind_lt_iff _).1 hkind
    rw [decode, if_neg (Nat.not_lt.2 hlong), contentOf, if_neg hbinary, if_neg htext]
  | badText hlong hkind htext =>
    have hbinary : ¬ frame.getD 24 0 = binaryKind := by
      rw [hkind]
      decide
    rw [decode, if_neg (Nat.not_lt.2 hlong), contentOf, if_neg hbinary, if_pos hkind,
      (decode?_eq_none_iff _).2 htext]

theorem flawed_of_decode {frame : Bytes} {e : Fault} (h : decode frame = .error e) :
    Flawed frame e := by
  unfold decode at h
  split at h
  · rename_i hshort
    cases h
    exact .truncated hshort
  · rename_i hlong
    have hlong := Nat.not_lt.1 hlong
    split at h
    · rename_i hcontent
      cases h
      unfold contentOf at hcontent
      split at hcontent
      · cases hcontent
      · rename_i hbinary
        split at hcontent
        · rename_i hkind
          split at hcontent
          · cases hcontent
          · rename_i htext
            cases hcontent
            exact .badText hlong hkind ((decode?_eq_none_iff _).1 htext)
        · rename_i htext
          cases hcontent
          exact .unknownKind hlong ((textKind_lt_iff _).2 ⟨hbinary, htext⟩)
    · cases h

/-! ## The whole codec -/

/-- The times that are written as they are. -/
theorem rounded_eq_iff (ns : Int) :
    max 0 (min (ns / nsPerMs) (UInt64.size - 1)) * nsPerMs = ns ↔
      ∃ ms : Nat, ms < UInt64.size ∧ ns = ms * nsPerMs := by
  have hsize : 0 < UInt64.size := by decide
  unfold nsPerMs
  constructor
  · intro h
    exact ⟨(ns / 1000000).toNat, by omega, by omega⟩
  · rintro ⟨ms, hms, hns⟩
    omega

/-- Whatever packet leaves, its datagram is read, as that packet with the moment rounded down to
whole milliseconds and kept between the epoch and the last time that is written; nothing is lost
just when the moment was such a time.  Whatever datagram is read, it is the one that is written for
the packet it was read as, but that the mark that asks for encryption is one when it is not zero.
And the datagrams that are not read are those that are flawed, with what is wrong with them. -/
theorem decode_encode_departure_and_faults (d : Departure) (encrypt : Bool) (frame : Bytes) :
    (decode (d.encode encrypt) = .ok ⟨d.sender, d.receiver,
        max 0 (min (d.sentNs / nsPerMs) (UInt64.size - 1)), d.data⟩ ∧
      ((decode (d.encode encrypt)).map .ofPacket = .ok d ↔
        ∃ ms : Nat, ms < UInt64.size ∧ d.sentNs = ms * nsPerMs)) ∧
    (∀ p, decode frame = .ok p →
      (Departure.ofPacket p).encode (frame.getD 25 0 != 0) =
        frame.set 25 (if frame.getD 25 0 = 0 then 0 else 1)) ∧
    ∀ e, decode frame = .error e ↔ Flawed frame e := by
  have hread : decode (d.encode encrypt) = .ok ⟨d.sender, d.receiver,
      max 0 (min (d.sentNs / nsPerMs) (UInt64.size - 1)), d.data⟩ := by
    rw [Departure.encode, decode_encode, d.clampTime_sentMs]
  refine ⟨⟨hread, ?_⟩, fun p hp => ?_, fun e => ⟨flawed_of_decode, decode_of_flawed⟩⟩
  · rw [hread, ← rounded_eq_iff]
    cases d
    simp [Except.map, Departure.ofPacket]
  · rw [Departure.encode_ofPacket, encode_of_decode hp]
    simp

/-- A packet leaves a moment before its sixth millisecond ends, and a datagram of that packet asks
for encryption in a way of its own. -/
theorem decode_encode_departure_within_millisecond :
    let d : Departure := ⟨1, 7, 5999999, .binary [9]⟩
    let p : Packet := ⟨1, 7, 5, .binary [9]⟩
    let frame : Bytes :=
      [0, 0, 0, 0, 0, 0, 0, 1, 0, 0, 0, 0, 0, 0, 0, 7, 0, 0, 0, 0, 0, 0, 0, 5, 0, 3, 9]
    decode frame = .ok p ∧ decode (d.encode true) = .ok p ∧
      (Departure.ofPacket p).encode true = frame.set 25 1 := by
  intro d p frame
  obtain ⟨⟨hread, -⟩, hwritten, -⟩ := decode_encode_departure_and_faults d true frame
  have hframe : decode frame = .ok p := rfl
  exact ⟨hframe, hread, hwritten p hframe⟩

end Meshway.Frame
