import Meshway.Frame
set_option autoImplicit false

/-!
# What a link makes of a datagram (SPEC §10.3 item 17)

A datagram is a header of fixed length and the content.  A link takes in no more
of it than its buffer holds, and does not notice that there was more.  Main
statement: a packet whose content fits is heard as it was sent; of a longer one
the link hears the beginning, unless that ends within a character of a text.
-/

namespace Meshway.Frame

/-! ## Contents -/

theorem contentOf_content (data : Data) :
    contentOf (content data).1 (content data).2 = .ok data := by
  cases data with
  | binary bs => rfl
  | text s =>
    have hkind : ¬ textKind = binaryKind := by decide
    simp [contentOf, content, hkind, Utf8.decode?_encode]

/-- Only the kind and the octets of a content are read, and they are read as that content. -/
theorem content_of_contentOf {kind : UInt8} {octets : Bytes} {data : Data}
    (h : contentOf kind octets = .ok data) : content data = (kind, octets) := by
  unfold contentOf at h
  split at h
  · rename_i hkind
    cases h
    rw [hkind]
    rfl
  · split at h
    · rename_i hkind
      split at h
      · rename_i s hs
        cases h
        rw [content, Utf8.encode_of_decode? hs, hkind]
      · cases h
    · cases h

theorem eq_of_content_eq {data data' : Data} (h : content data = content data') : data = data' := by
  have hread := contentOf_content data
  rw [h, contentOf_content] at hread
  exact (Except.ok.inj hread).symm

/-- Some octets of a content are no content only if they are not UTF-8. -/
theorem contentOf_take_eq_error_iff (data : Data) (n : Nat) :
    (∃ e, contentOf (content data).1 ((content data).2.take n) = .error e) ↔
      ∃ s, data = .text s ∧ Utf8.decode? ((content data).2.take n) = none := by
  have hkind : ¬ textKind = binaryKind := by decide
  cases data with
  | binary bs => simp [contentOf, content]
  | text s =>
    simp only [contentOf, content, hkind, if_false, if_true, Data.text.injEq, exists_eq_left']
    cases Utf8.decode? ((Utf8.encode s).take n) <;> simp

/-! ## The header -/

/-- What stands before the content of a packet. -/
def header (p : Packet) (encrypt : Bool) : Bytes :=
  Bytes.ofUInt64 p.sender ++ (Bytes.ofUInt64 p.receiver ++ (Bytes.ofNat 8 (clampTime p.sentMs) ++
    [(content p.data).1, if encrypt then 1 else 0]))

theorem length_header (p : Packet) (encrypt : Bool) : (header p encrypt).length = headerLength := by
  simp [header, Bytes.ofUInt64, headerLength]

theorem encode_eq (p : Packet) (encrypt : Bool) :
    encode p encrypt = header p encrypt ++ (content p.data).2 := by
  simp [encode, header]

/-- A field of eight octets is read where it stands. -/
theorem fieldAt_append {before after : Bytes} {k n : Nat} (hplace : before.length = k)
    (hn : n < UInt64.size) : fieldAt k (before ++ (Bytes.ofNat 8 n ++ after)) = n := by
  have hlength : (Bytes.ofNat 8 n).length = 8 := Bytes.length_ofNat 8 n
  rw [fieldAt, List.drop_left' hplace, List.take_left' hlength, Bytes.toNat_ofNat]
  exact Nat.mod_eq_of_lt hn

theorem clampTime_lt (ms : Int) : clampTime ms < UInt64.size :=
  Nat.lt_of_le_of_lt (Nat.min_le_right _ _) (by decide)

/-- A header is read as the packet it belongs to, with the content behind it. -/
theorem decode_header_append (p : Packet) (encrypt : Bool) (octets : Bytes) :
    decode (header p encrypt ++ octets) =
      (contentOf (content p.data).1 octets).map fun data =>
        { p with sentMs := clampTime p.sentMs, data } := by
  have hlength := length_header p encrypt
  have hlong : ¬ (header p encrypt ++ octets).length < headerLength := by
    rw [List.length_append]
    omega
  have hcontent : (header p encrypt ++ octets).drop headerLength = octets :=
    List.drop_left' hlength
  have hkind : (header p encrypt ++ octets).getD 24 0 = (content p.data).1 := by
    simp [header, Bytes.ofUInt64, List.getD, List.getElem?_append]
  have hfields : header p encrypt ++ octets =
      Bytes.ofNat 8 p.sender.toNat ++ (Bytes.ofNat 8 p.receiver.toNat ++
        (Bytes.ofNat 8 (clampTime p.sentMs) ++
          ((content p.data).1 :: (if encrypt then 1 else 0) :: octets))) := by
    simp [header, Bytes.ofUInt64]
  have hsender : fieldAt 0 (header p encrypt ++ octets) = p.sender.toNat := by
    rw [hfields]
    exact @fieldAt_append [] _ 0 _ rfl p.sender.toNat_lt
  have hreceiver : fieldAt 8 (header p encrypt ++ octets) = p.receiver.toNat := by
    rw [hfields]
    exact fieldAt_append (Bytes.length_ofNat _ _) p.receiver.toNat_lt
  have htime : fieldAt 16 (header p encrypt ++ octets) = clampTime p.sentMs := by
    rw [hfields, ← List.append_assoc]
    exact fieldAt_append (by simp) (clampTime_lt p.sentMs)
  rw [decode, if_neg hlong, hkind, hcontent, hsender, hreceiver, htime]
  simp only [UInt64.ofNat_toNat]
  cases contentOf (content p.data).1 octets <;> rfl

/-! ## Datagrams in a buffer -/

/-- The number of octets of a content that a link takes in. -/
def room : Nat := mtu - headerLength

theorem take_mtu_encode (p : Packet) (encrypt : Bool) :
    (encode p encrypt).take mtu = header p encrypt ++ (content p.data).2.take room := by
  have hfits : headerLength ≤ mtu := by decide
  rw [encode_eq, List.take_append, length_header,
    List.take_of_length_le (by rw [length_header]; exact hfits)]
  rfl

/-- A time that fits is written as it is. -/
theorem clampTime_eq {ms : Int} (hearly : 0 ≤ ms) (hlate : ms < UInt64.size) :
    (clampTime ms : Int) = ms := by
  unfold clampTime
  omega

/-- The receiver hears the packet with as much of the content as there is room for, if that is a
content. -/
theorem receive_encode {p : Packet} (hearly : 0 ≤ p.sentMs) (hlate : p.sentMs < UInt64.size)
    (encrypt : Bool) :
    receive p.receiver (encode p encrypt) =
      match contentOf (content p.data).1 ((content p.data).2.take room) with
      | .error _ => none
      | .ok data => some { p with data } := by
  rw [receive, take_mtu_encode, decode_header_append, clampTime_eq hearly hlate]
  cases contentOf (content p.data).1 ((content p.data).2.take room) with
  | error e => rfl
  | ok data => exact if_pos rfl

/-- A packet crosses the link as it was sent just when its content fits the buffer behind the
header.  Nothing is heard just when the buffer ends within a character of a text.  Whatever is
heard, it is the packet with the beginning of its content that fits, and nobody is told that there
was more. -/
theorem receive_encode_truncates_content {p : Packet} (hearly : 0 ≤ p.sentMs)
    (hlate : p.sentMs < UInt64.size) (encrypt : Bool) :
    let octets := (content p.data).2
    let heard := receive p.receiver (encode p encrypt)
    (heard = some p ↔ octets.length ≤ room) ∧
      (heard = none ↔ ∃ s, p.data = .text s ∧ Utf8.decode? (octets.take room) = none) ∧
      ∀ p', heard = some p' → p' = { p with data := p'.data } ∧
        content p'.data = ((content p.data).1, octets.take room) := by
  intro octets heard
  have hheard : heard = _ := receive_encode hearly hlate encrypt
  have hcut := contentOf_take_eq_error_iff p.data room
  cases hread : contentOf (content p.data).1 (octets.take room) with
  | error e =>
    rw [hread] at hheard hcut
    have hlong : ¬ octets.length ≤ room := by
      intro hle
      rw [List.take_of_length_le hle, contentOf_content] at hread
      cases hread
    rw [hheard]
    exact ⟨⟨fun h => (by cases h), fun hle => absurd hle hlong⟩,
      ⟨fun _ => hcut.1 ⟨e, rfl⟩, fun _ => rfl⟩, fun _ h => (by cases h)⟩
  | ok data =>
    rw [hread] at hheard hcut
    have hdata := content_of_contentOf hread
    rw [hheard]
    refine ⟨⟨fun h => ?_, fun hle => ?_⟩, ⟨fun h => (by cases h), fun h => ?_⟩, fun p' h => ?_⟩
    · -- what is heard has no more octets than there is room for
      have hsame : data = p.data := congrArg Packet.data (Option.some.inj h)
      have hoctets : octets = octets.take room := by
        rw [hsame] at hdata
        exact congrArg Prod.snd hdata
      rw [hoctets, List.length_take]
      exact Nat.min_le_left _ _
    · rw [List.take_of_length_le hle] at hdata
      rw [eq_of_content_eq hdata]
    · obtain ⟨e, he⟩ := hcut.2 h
      cases he
    · cases h
      exact ⟨rfl, hdata⟩

/-- The largest content that is heard as it was sent. -/
theorem receive_encode_of_largest_content :
    let p : Packet := ⟨1, 7, 5, .binary (List.replicate 2022 9)⟩
    receive 7 (encode p true) = some p := by
  intro p
  have hearly : 0 ≤ p.sentMs := by decide
  have hlate : p.sentMs < UInt64.size := by decide
  refine (receive_encode_truncates_content hearly hlate true).1.2 ?_
  rw [show (content p.data).2 = List.replicate 2022 9 from rfl, List.length_replicate]
  decide

/-- One octet more, and what is heard is not what was sent. -/
theorem receive_encode_of_one_octet_more :
    let p : Packet := ⟨1, 7, 5, .binary (List.replicate 2023 9)⟩
    let p' : Packet := ⟨1, 7, 5, .binary (List.replicate 2022 9)⟩
    receive 7 (encode p false) = some p' ∧ p'.data ≠ p.data := by
  intro p p'
  constructor
  · have htake : (content p.data).2.take room = List.replicate 2022 9 := List.take_replicate
    have hheard := receive_encode (p := p) (by decide) (by decide) false
    rw [htake] at hheard
    exact hheard
  · intro h
    have hlength := congrArg List.length (Data.binary.inj h)
    rw [List.length_replicate, List.length_replicate] at hlength
    exact absurd hlength (by decide)

end Meshway.Frame
