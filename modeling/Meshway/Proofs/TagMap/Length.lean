import Mathlib.Algebra.GroupWithZero.Nat
import Meshway.Proofs.TagMap
set_option autoImplicit false

/-!
# The length of a written tag map (SPEC §10.3 item 7)

How long a head is follows from its number alone, before anything is written.  A
plain value is a head with as many octets behind it as the head says, so its
length is known beforehand too.  Main statement: what is known beforehand is the
length of what is written, for every number, every string and every tag map of
plain values.
-/

namespace Meshway

open Meshway.Cbor

/-! ## Plain values -/

namespace Cbor.Value

/-- Unsigned integers, byte strings and texts. -/
inductive Plain : Value → Prop where
  | uint (n : UInt64) : Plain (.int n.toNat)
  | bytes (bs : Bytes) : Plain (.bytes bs)
  | text (s : String) : Plain (.text s)

/-- The length of a plain value, from the number in its head. -/
def plainLength : Value → Nat
  | .int n => headLength n.toNat
  | .bytes bs => bs.length + headLength bs.length
  | .text s => Utf8.size s + headLength (Utf8.size s)
  | _ => 0

namespace Plain

variable {v : Value}

theorem storable (h : v.Plain) : v.storable = true := by
  cases h with
  | uint n => exact storable_uint n
  | bytes bs => rfl
  | text s => rfl

theorem length_wire (h : v.Plain) : v.wire.length = v.plainLength := by
  cases h with
  | uint n => exact length_wireInt n.toNat
  | bytes bs => rw [wire, List.length_append, length_head, plainLength, Nat.add_comm]
  | text s =>
    rw [wire, List.length_append, length_head, plainLength, Nat.add_comm]
    rfl

/-- A plain value has a written form, and its length is known beforehand. -/
theorem exists_wire (h : v.Plain) :
    ∃ wire, v.encode? = some wire ∧ wire.length = v.plainLength :=
  ⟨v.wire, if_pos h.storable, h.length_wire⟩

end Plain

end Cbor.Value

/-! ## Tag maps -/

namespace TagMap

/-- Entries with plain values are as long as their heads and values together. -/
theorem entriesLength_of_plain {es : List (UInt64 × Value)} (h : ∀ e ∈ es, e.2.Plain) :
    entriesLength es = (es.map fun e => headLength e.1.toNat + e.2.plainLength).sum := by
  induction es with
  | nil => rfl
  | cons e es ih =>
    obtain ⟨he, hes⟩ := List.forall_mem_cons.1 h
    rw [entriesLength, he.length_wire, ih hes, List.map_cons, List.sum_cons]

/-- Whatever is written has the length that is known beforehand: an unsigned integer that of its
head, a string its own and that of its head, and a map of these the sum of its parts.  A larger
number never has a shorter head. -/
theorem length_encode_eq_headLengths :
    (∀ n : UInt64, ∃ wire,
      (Value.int n.toNat).encode? = some wire ∧ wire.length = headLength n.toNat) ∧
    (∀ bs : Bytes, ∃ wire,
      (Value.bytes bs).encode? = some wire ∧ wire.length = bs.length + headLength bs.length) ∧
    (∀ s : String, ∃ wire,
      (Value.text s).encode? = some wire ∧
        wire.length = (Utf8.encode s).length + headLength (Utf8.encode s).length) ∧
    (∀ m n : Nat, m ≤ n → headLength m ≤ headLength n) ∧
    ∀ m : TagMap, (∀ e ∈ m.entries, e.2.Plain) → ∃ wire,
      m.encode? = some wire ∧ wire.length =
        headLength m.size +
          (m.entries.map fun e => headLength e.1.toNat + e.2.plainLength).sum := by
  refine ⟨fun n => (Value.Plain.uint n).exists_wire, fun bs => (Value.Plain.bytes bs).exists_wire,
    fun s => (Value.Plain.text s).exists_wire, fun m n => headLength_mono, fun m hplain => ?_⟩
  refine ⟨m.toValue.wire, encode?_of_storable fun e he => (hplain e he).storable, ?_⟩
  rw [length_wire, entriesLength_of_plain hplain]

/-- A text whose letters take two octets each, a byte string that is longer than one octet says,
and a number that fills its head, below tags of one, two and five octets. -/
theorem length_encode_of_wide_heads :
    let m : TagMap := ofList [(3, .text "éé"), (24, .bytes (List.replicate 256 7)),
      (70000, .int 0xffffffffffffffff)]
    (∀ e ∈ m.entries, e.2.Plain) ∧ (255 ≤ 256 ∧ headLength 255 ≤ headLength 256) ∧
      ∃ wire, m.encode? = some wire ∧ wire.length = 1 + (1 + 5) + (2 + 259) + (5 + 9) := by
  intro m
  have hentries : m.entries = [(3, .text "éé"), (24, .bytes (List.replicate 256 7)),
    (70000, .int 0xffffffffffffffff)] := rfl
  have hplain : ∀ e ∈ m.entries, e.2.Plain := by
    simp only [hentries, List.forall_mem_cons, List.not_mem_nil, false_imp_iff, implies_true,
      and_true]
    exact ⟨.text _, .bytes _, .uint 0xffffffffffffffff⟩
  obtain ⟨-, -, -, hmono, hmap⟩ := length_encode_eq_headLengths
  obtain ⟨wire, hwire, hlength⟩ := hmap m hplain
  refine ⟨hplain, ⟨by decide, hmono 255 256 (by decide)⟩, wire, hwire, hlength.trans ?_⟩
  simp only [size, hentries, List.map_cons, List.map_nil, Value.plainLength, List.length_replicate]
  rfl

end TagMap

end Meshway
