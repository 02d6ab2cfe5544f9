import Meshway.TagMap
import Meshway.Text.Quoted
set_option autoImplicit false

/-!
# Envelopes (SPEC §3, §4.1)

An envelope is the tag map that fills one binary packet.  Its tags have fixed
meanings; a field is looked up by its tag alone and has to be of the kind that
the reader expects.
-/

namespace Meshway

open Meshway.Cbor

/-! ## Tags -/

namespace Tag

/-- The octets that a segment carries. -/
def payload : UInt64 := 24
/-- A phone number. -/
def phone : UInt64 := 25
/-- The text of a short message. -/
def text : UInt64 := 26
/-- The network that a transaction is meant for. -/
def network : UInt64 := 27
/-- The number of a segment, counted from zero. -/
def index : UInt64 := 28
/-- How many segments there are. -/
def count : UInt64 := 29
/-- The first octets of a transaction's identity. -/
def shortId : UInt64 := 30
/-- A transaction's identity. -/
def txId : UInt64 := 31
/-- The host of a destination. -/
def host : UInt64 := 32
/-- The port of a destination. -/
def port : UInt64 := 33
/-- The identity of a stream. -/
def streamId : UInt64 := 34

end Tag

/-! ## Faults -/

/-- The kinds of field that a reader may expect. -/
inductive FieldKind where
  | bytes
  | text
  | uint
  deriving DecidableEq, Repr, Inhabited

/-- The name of a kind of field. -/
def FieldKind.name : FieldKind → String
  | .bytes => "byte string"
  | .text => "text"
  | .uint => "unsigned integer"

/-- The name of the kind of a value. -/
def kindName : Value → String
  | .null => "null"
  | .bool _ => "bool"
  | .int _ => "integer"
  | .float _ => "float"
  | .bytes _ => "byte string"
  | .text _ => "text"
  | .array _ => "array"
  | .map _ => "map"

/-- The identities of fixed length. -/
inductive FixedField where
  | streamId
  | shortId
  | txId
  deriving DecidableEq, Repr, Inhabited

/-- The name of an identity. -/
def FixedField.name : FixedField → String
  | .streamId => "stream id"
  | .shortId => "short txid"
  | .txId => "txid"

/-- The number of octets of an identity. -/
def FixedField.size : FixedField → Nat
  | .streamId => 8
  | .shortId => 8
  | .txId => 32

/-- Why octets from the radio are no message. -/
inductive Fault where
  /-- they are no tag map -/
  | tagMap (fault : TagMap.Fault)
  /-- a field is missing -/
  | missing (tag : UInt64)
  /-- a field is of another kind than expected -/
  | mismatch (tag : UInt64) (expected : FieldKind) (found : String)
  /-- a number is not an unsigned integer of sixty-four bits -/
  | negative (tag : UInt64)
  /-- a number does not fit one octet -/
  | tooLarge (tag : UInt64) (value : UInt64)
  /-- an identity has the wrong length -/
  | length (field : FixedField) (size : Nat)
  /-- a port does not fit two octets -/
  | portRange
  /-- the number of a segment is not below the number of segments -/
  | indexOutside (index count : UInt8)
  /-- a transaction of no segments -/
  | noSegments
  /-- a network selector does not fit one octet -/
  | networkRange
  /-- a network selector is neither a number nor a character -/
  | networkKind
  /-- a short message from the gateway whose phone number is no identity -/
  | gatewayPhone (phone : String)
  /-- the tags fit no shape -/
  | unknownShape (tags : List UInt64)
  deriving DecidableEq, Repr, Inhabited

/-- What is said of an envelope whose shape is known but whose content is wrong. -/
def Fault.detail : Fault → String
  | .tagMap fault => fault.message
  | .missing tag => s!"tag {tag}: missing"
  | .mismatch tag expected found => s!"tag {tag}: expected {expected.name}, got {found}"
  | .negative tag => s!"tag {tag}: negative integer"
  | .tooLarge tag value => s!"tag {tag}: {value} exceeds 255"
  | .length field size => s!"{field.name} is {size} bytes, want {field.size}"
  | .portRange => "port out of range"
  | .indexOutside index count => s!"segment index {index} outside count {count}"
  | .noSegments => "segment count 0"
  | .networkRange => "network selector out of range"
  | .networkKind => "network selector has wrong type"
  | .gatewayPhone phone => s!"gateway sms without usable phone number {Text.quote phone}"
  | .unknownShape tags => ", ".intercalate (tags.map toString)

/-- The wording of a fault. -/
def Fault.message : Fault → String
  | .unknownShape tags =>
    s!"unknown envelope shape (tags [{(Fault.unknownShape tags).detail}])"
  | fault => s!"malformed envelope: {fault.detail}"

/-! ## Fields -/

/-- The content of one binary packet. -/
abbrev Envelope := TagMap

namespace Envelope

/-- An envelope with one more field of octets. -/
def withBytes (env : Envelope) (tag : UInt64) (bs : Bytes) : Envelope :=
  TagMap.insert env tag (.bytes bs)

/-- An envelope with one more field of text. -/
def withText (env : Envelope) (tag : UInt64) (s : String) : Envelope :=
  TagMap.insert env tag (.text s)

/-- An envelope with one more number. -/
def withUInt (env : Envelope) (tag : UInt64) (n : UInt64) : Envelope :=
  TagMap.insert env tag (.int n.toNat)

/-- The octets under a tag, if the tag is there. -/
def bytes? (env : Envelope) (tag : UInt64) : Except Fault (Option Bytes) :=
  match TagMap.get? env tag with
  | none => .ok none
  | some (.bytes bs) => .ok (some bs)
  | some v => .error (.mismatch tag .bytes (kindName v))

/-- The text under a tag, if the tag is there. -/
def text? (env : Envelope) (tag : UInt64) : Except Fault (Option String) :=
  match TagMap.get? env tag with
  | none => .ok none
  | some (.text s) => .ok (some s)
  | some v => .error (.mismatch tag .text (kindName v))

/-- The number under a tag, if the tag is there. -/
def uint? (env : Envelope) (tag : UInt64) : Except Fault (Option UInt64) :=
  match TagMap.get? env tag with
  | none => .ok none
  | some (.int n) =>
    if 0 ≤ n ∧ n < UInt64.size then .ok (some (UInt64.ofNat n.toNat)) else .error (.negative tag)
  | some v => .error (.mismatch tag .uint (kindName v))

/-- What an optional field holds, which has to be there. -/
def need {α : Type} (tag : UInt64) : Except Fault (Option α) → Except Fault α
  | .error e => .error e
  | .ok none => .error (.missing tag)
  | .ok (some a) => .ok a

/-- The octets under a tag. -/
def bytes (env : Envelope) (tag : UInt64) : Except Fault Bytes := need tag (env.bytes? tag)

/-- The text under a tag. -/
def text (env : Envelope) (tag : UInt64) : Except Fault String := need tag (env.text? tag)

/-- The number under a tag. -/
def uint (env : Envelope) (tag : UInt64) : Except Fault UInt64 := need tag (env.uint? tag)

/-- The number of one octet under a tag. -/
def octet (env : Envelope) (tag : UInt64) : Except Fault UInt8 :=
  match env.uint tag with
  | .error e => .error e
  | .ok n => if n.toNat < 256 then .ok (UInt8.ofNat n.toNat) else .error (.tooLarge tag n)

/-- Reads an envelope. -/
def decode (bs : Bytes) : Except Fault Envelope :=
  match TagMap.decode bs with
  | .error e => .error (.tagMap e)
  | .ok m => .ok m

end Envelope

end Meshway
