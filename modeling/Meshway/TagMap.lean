import Meshway.Cbor.Reader
set_option autoImplicit false

/-!
# Tag maps (SPEC §4.1)

A tag map assigns values to numbered tags.  It is written as one CBOR map with
ascending keys, so that a tag map has a single written form, and read from any
CBOR map whose keys are unsigned integers of sixty-four bits.
-/

namespace Meshway

open Meshway.Cbor

/-- Values by tag, in ascending order of the tags. -/
structure TagMap where
  entries : List (UInt64 × Value)
  ascending : entries.Pairwise fun a b => a.1 < b.1

namespace TagMap

/-- Puts an entry into ascending entries, in place of one with the same tag. -/
def insertEntry (tag : UInt64) (v : Value) : List (UInt64 × Value) → List (UInt64 × Value)
  | [] => [(tag, v)]
  | (t, w) :: es =>
    if tag < t then (tag, v) :: (t, w) :: es
    else if tag = t then (tag, v) :: es
    else (t, w) :: insertEntry tag v es

theorem mem_insertEntry {tag : UInt64} {v : Value} {e : UInt64 × Value} :
    {es : List (UInt64 × Value)} → e ∈ insertEntry tag v es → e = (tag, v) ∨ e ∈ es
  | [], h => by simpa [insertEntry] using h
  | (t, w) :: es, h => by
    unfold insertEntry at h
    split at h
    · simpa using h
    · split at h
      · rcases List.mem_cons.1 h with h | h
        · exact .inl h
        · exact .inr (List.mem_cons_of_mem _ h)
      · rcases List.mem_cons.1 h with h | h
        · exact .inr (h ▸ List.mem_cons_self ..)
        · rcases mem_insertEntry h with h | h
          · exact .inl h
          · exact .inr (List.mem_cons_of_mem _ h)

theorem ascending_insertEntry (tag : UInt64) (v : Value) :
    {es : List (UInt64 × Value)} → es.Pairwise (fun a b => a.1 < b.1) →
      (insertEntry tag v es).Pairwise fun a b => a.1 < b.1
  | [], _ => by simp [insertEntry]
  | (t, w) :: es, h => by
    have ⟨ht, hes⟩ := List.pairwise_cons.1 h
    unfold insertEntry
    split
    · rename_i hlt
      refine List.pairwise_cons.2 ⟨fun e he => ?_, h⟩
      rcases List.mem_cons.1 he with rfl | he
      · exact hlt
      · exact UInt64.lt_trans hlt (ht e he)
    · split
      · rename_i heq
        exact List.pairwise_cons.2 ⟨fun e he => heq ▸ ht e he, hes⟩
      · rename_i hlt hne
        refine List.pairwise_cons.2 ⟨fun e he => ?_, ascending_insertEntry tag v hes⟩
        rcases mem_insertEntry he with rfl | he
        · show t < tag
          exact UInt64.lt_iff_toNat_lt.2 (by
            have h1 : ¬ tag.toNat < t.toNat := fun h => hlt (UInt64.lt_iff_toNat_lt.2 h)
            have h2 : tag.toNat ≠ t.toNat := fun h => hne (UInt64.toNat_inj.1 h)
            omega)
        · exact ht e he

/-- No tags. -/
def empty : TagMap := ⟨[], .nil⟩

/-- Assigns a value to a tag. -/
def insert (m : TagMap) (tag : UInt64) (v : Value) : TagMap :=
  ⟨insertEntry tag v m.entries, ascending_insertEntry tag v m.ascending⟩

/-- The map that holds the given entries, put in one after the other. -/
def ofList (entries : List (UInt64 × Value)) : TagMap :=
  entries.foldl (fun m e => m.insert e.1 e.2) empty

/-- The value of a tag. -/
def get? (m : TagMap) (tag : UInt64) : Option Value := m.entries.lookup tag

/-- Whether a tag has a value. -/
def contains (m : TagMap) (tag : UInt64) : Bool := (m.get? tag).isSome

/-- The tags in ascending order. -/
def tags (m : TagMap) : List UInt64 := m.entries.map (·.1)

/-- The number of tags. -/
def size (m : TagMap) : Nat := m.entries.length

instance : Inhabited TagMap := ⟨empty⟩

/-! ## The written form -/

/-- The map as a CBOR value. -/
def toValue (m : TagMap) : Value := .map (m.entries.map fun e => (.int e.1.toNat, e.2))

/-- The written form, when every value has one. -/
def encode? (m : TagMap) : Option Bytes := m.toValue.encode?

/-- A map whose values have a written form has one: its keys always do. -/
theorem encode?_of_storable {m : TagMap} (h : ∀ e ∈ m.entries, e.2.storable = true) :
    m.encode? = some m.toValue.wire := by
  have hentries : ∀ es : List (UInt64 × Value), (∀ e ∈ es, e.2.storable = true) →
      Value.storableEntries (es.map fun e => (.int e.1.toNat, e.2)) = true := by
    intro es hes
    induction es with
    | nil => rfl
    | cons e es ih =>
      obtain ⟨he, hes⟩ := List.forall_mem_cons.1 hes
      simp [Value.storableEntries, Value.storable_uint, he, ih hes]
  exact if_pos (hentries m.entries h)

/-- The wording when a tag map has no written form. -/
def unencodableMessage : String := s!"cbor encode failed: {Value.unstorableMessage}"

/-- Why a byte string is no tag map. -/
inductive Fault where
  /-- it holds no CBOR value -/
  | cbor (kind : FaultKind)
  /-- the value is no map -/
  | notAMap
  /-- a key is no unsigned integer -/
  | badKey
  deriving DecidableEq, Repr, Inhabited

/-- The wording of a fault. -/
def Fault.message : Fault → String
  | .cbor _ => "cbor decode failed"
  | .notAMap => "top-level item is not a map"
  | .badKey => "map key is not an unsigned integer"

/-- The tag that a key stands for. -/
def tagOf? : Value → Option UInt64
  | .int n => if 0 ≤ n ∧ n < UInt64.size then some (UInt64.ofNat n.toNat) else none
  | _ => none

/-- The tag map with the given entries. -/
def ofEntries? (entries : List (Value × Value)) : Option TagMap :=
  (entries.mapM fun e => (tagOf? e.1).map fun tag => (tag, e.2)).map ofList

/-- Reads a tag map: one CBOR map, and nothing after it. -/
def decode (bs : Bytes) : Except Fault TagMap :=
  match Value.decode bs with
  | .error e => .error (.cbor (e.kind bs.length))
  | .ok (.map entries) =>
    match ofEntries? entries with
    | some m => .ok m
    | none => .error .badKey
  | .ok _ => .error .notAMap

end TagMap

end Meshway
