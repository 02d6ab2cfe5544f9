import Meshway.Stream.Chunk
import Meshway.Transaction.Segment
set_option autoImplicit false

/-!
# Payloads (SPEC §3, §4.1, §10.3 items 3 to 6)

The content of a binary packet: a short message, a chunk of a stream or a
segment of a transaction.  The shape is told by which tags are there.  An
envelope with an identity of one kind and a payload is never read as another
kind.
-/

namespace Meshway

/-- A short message and the phone number it goes to or comes from. -/
structure Sms where
  phone : String
  text : String
  deriving DecidableEq, Repr, Inhabited

namespace Sms

/-- The fields of a short message. -/
def toEnvelope (m : Sms) : Envelope :=
  (Envelope.withText TagMap.empty Tag.phone m.phone).withText Tag.text m.text

/-- The short message with the given fields. -/
def ofEnvelope (env : Envelope) : Except Fault Sms :=
  match env.text Tag.phone with
  | .error e => .error e
  | .ok phone => (env.text Tag.text).map fun text => ⟨phone, text⟩

end Sms

/-- The content of a binary packet. -/
inductive Payload where
  | sms (m : Sms)
  | chunk (c : Chunk)
  | segment (s : TxSegment)
  deriving DecidableEq, Repr, Inhabited

namespace Payload

/-- The fields of a payload. -/
def toEnvelope : Payload → Envelope
  | .sms m => m.toEnvelope
  | .chunk c => c.toEnvelope
  | .segment s => s.toEnvelope

/-- The written form of a payload. -/
def encode (p : Payload) : Bytes := p.toEnvelope.toValue.wire

/-- The payload with the given fields: the shapes of SPEC §4.1 and §10.3 items 3 to 6. -/
def ofEnvelope (env : Envelope) : Except Fault Payload :=
  let has (tag : UInt64) : Bool := env.contains tag
  let unknown : Except Fault Payload := .error (.unknownShape env.tags)
  if has Tag.streamId && has Tag.payload then
    if has Tag.host || has Tag.port || (has Tag.index && has Tag.count) then
      (Chunk.ofEnvelope env).map .chunk
    else unknown
  else if has Tag.shortId && has Tag.payload then
    if has Tag.txId || has Tag.network || has Tag.index then
      (TxSegment.ofEnvelope env).map .segment
    else unknown
  else if has Tag.phone && has Tag.text then (Sms.ofEnvelope env).map .sms
  else unknown

/-- Reads a payload. -/
def decode (bs : Bytes) : Except Fault Payload :=
  match Envelope.decode bs with
  | .error e => .error e
  | .ok env => ofEnvelope env

/-! ## Every payload has a written form

The fields of a payload are strings and numbers of at most two octets. -/

/-- Whether every value of a tag map has a written form. -/
def Storable (env : Envelope) : Prop := ∀ e ∈ env.entries, e.2.storable = true

theorem storable_empty : Storable TagMap.empty := by
  intro e he
  cases he

theorem storable_insert {env : Envelope} {tag : UInt64} {v : Cbor.Value} (h : Storable env)
    (hv : v.storable = true) : Storable (TagMap.insert env tag v) := by
  intro e he
  rcases TagMap.mem_insertEntry he with rfl | he
  · exact hv
  · exact h e he

theorem storable_toEnvelope (p : Payload) : Storable p.toEnvelope := by
  have hb (bs : Bytes) : (Cbor.Value.bytes bs).storable = true := rfl
  have ht (s : String) : (Cbor.Value.text s).storable = true := rfl
  have hn (n : UInt64) : (Cbor.Value.int n.toNat).storable = true := Cbor.Value.storable_uint n
  cases p with
  | sms m => exact storable_insert (storable_insert storable_empty (ht _)) (ht _)
  | chunk c =>
    refine storable_insert (storable_insert ?_ (hn _)) (hb _)
    cases c.destination with
    | some d =>
      exact storable_insert (storable_insert (storable_insert storable_empty (hb _)) (ht _))
        (hn _)
    | none => exact storable_insert (storable_insert storable_empty (hb _)) (hn _)
  | segment s =>
    refine storable_insert ?_ (hb _)
    cases s.opening with
    | some o =>
      exact storable_insert (storable_insert (storable_insert
        (storable_insert storable_empty (hb _)) (hb _)) (hn _)) (hn _)
    | none => exact storable_insert (storable_insert storable_empty (hb _)) (hn _)

/-- The envelope of a payload has a written form, and it is the payload's. -/
theorem encode?_toEnvelope (p : Payload) : p.toEnvelope.encode? = some p.encode :=
  TagMap.encode?_of_storable (storable_toEnvelope p)

end Payload

end Meshway
