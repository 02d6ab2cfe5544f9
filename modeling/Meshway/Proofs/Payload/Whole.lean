import Meshway.Payload
import Meshway.Proofs.Cbor.Delimited
set_option autoImplicit false

/-!
# Envelopes are read whole (SPEC §4.1)

A packet that lost its end on the way, or that has something behind it, holds no
envelope, and so no payload.  The fault tells which of the two it was: to every
beginning of an envelope octets could be added, to an envelope with octets
behind it none.  The length of an envelope is a number of sixty-four bits.
-/

namespace Meshway

open Meshway.Cbor

namespace TagMap

variable {b : Bytes} {m : TagMap}

theorem exists_value_of_decode (h : decode b = .ok m) : ∃ v, Value.decode b = .ok v := by
  unfold decode at h
  split at h
  · cases h
  · exact ⟨_, by assumption⟩
  · cases h

/-- Every beginning of an envelope was cut short. -/
theorem decode_of_cut (h : decode b = .ok m) (hb : b.length < UInt64.size) {p : Bytes}
    (hp : p <+: b) (hne : p ≠ b) : decode p = .error (.cbor .cutShort) := by
  obtain ⟨v, hv⟩ := exists_value_of_decode h
  obtain ⟨q, rfl⟩ := hp
  have hq : q ≠ [] := by
    rintro rfl
    exact hne (List.append_nil p).symm
  obtain ⟨e, he, hlacking⟩ := (Value.decode_cut_or_padded hv).1 p q rfl hq
  rw [decode, he]
  simp only [hlacking.kind_eq hb]

/-- An envelope with octets behind it is malformed. -/
theorem decode_of_padded (h : decode b = .ok m) {t : Bytes} (ht : t ≠ []) :
    decode (b ++ t) = .error (.cbor .malformed) := by
  obtain ⟨v, hv⟩ := exists_value_of_decode h
  rw [decode, (Value.decode_cut_or_padded hv).2 t ht]
  rfl

end TagMap

namespace Payload

theorem decode_of_fault {b : Bytes} {e : TagMap.Fault} (h : TagMap.decode b = .error e) :
    decode b = .error (.tagMap e) := by
  rw [decode, Envelope.decode, h]

/-- Of what is read as an envelope, no proper beginning is read and nothing longer: the first is cut
short, the second malformed, and a payload is found in neither. -/
theorem reads_whole_envelopes {b : Bytes} {m : TagMap} (h : TagMap.decode b = .ok m) :
    (b.length < UInt64.size → ∀ p, p <+: b → p ≠ b →
        TagMap.decode p = .error (.cbor .cutShort) ∧
          decode p = .error (.tagMap (.cbor .cutShort))) ∧
      ∀ t, t ≠ [] → TagMap.decode (b ++ t) = .error (.cbor .malformed) ∧
        decode (b ++ t) = .error (.tagMap (.cbor .malformed)) := by
  refine ⟨fun hb p hp hne => ?_, fun t ht => ?_⟩
  · have hcut := TagMap.decode_of_cut h hb hp hne
    exact ⟨hcut, decode_of_fault hcut⟩
  · have hpadded := TagMap.decode_of_padded h ht
    exact ⟨hpadded, decode_of_fault hpadded⟩

/-- A short message in a map of indefinite length behind a tag, its text in two pieces, cut within
the second piece and followed by another message. -/
theorem reads_whole_message_in_pieces :
    let b : Bytes := [0xc1, 0xbf, 0x18, 0x19, 0x61, 0x2b, 0x19, 0x00, 0x1a,
      0x7f, 0x61, 0x68, 0x62, 0x69, 0x21, 0xff, 0xff]
    decode b = .ok (.sms ⟨"+", "hi!"⟩) ∧
      decode (b.take 14) = .error (.tagMap (.cbor .cutShort)) ∧
      decode (b ++ b) = .error (.tagMap (.cbor .malformed)) := by
  intro b
  obtain ⟨m, hm⟩ : ∃ m, TagMap.decode b = .ok m := ⟨_, rfl⟩
  obtain ⟨hcut, hpadded⟩ := reads_whole_envelopes hm
  exact ⟨rfl, (hcut (by decide) _ (List.take_prefix 14 b) (by decide)).2,
    (hpadded b (by decide)).2⟩

end Payload

end Meshway
