import Meshway.Bytes.Hex
import Meshway.Digest.Sha256
import Meshway.Envelope
set_option autoImplicit false

/-!
# Segments of a transaction (SPEC §3, §4.2, §10.3 items 4, 5 and 8)

A signed transaction travels as numbered segments.  The first names the
transaction, the network it is meant for, and how many segments there are; all
carry the short identity, which is how the others find the first.
-/

namespace Meshway

/-! ## Identities and networks -/

/-- The identity of a transaction. -/
structure TxId where
  octets : Bytes
  length_octets : octets.length = 32
  deriving DecidableEq, Repr

/-- The first eight octets of a transaction's identity. -/
@[ext] structure ShortId where
  octets : Bytes
  length_octets : octets.length = 8
  deriving Repr

instance : DecidableEq ShortId := fun _ _ => decidable_of_decidable_of_iff ShortId.ext_iff.symm

namespace ShortId

/-- The short identity with the given octets, if there are eight. -/
def ofBytes? (bs : Bytes) : Option ShortId :=
  if h : bs.length = 8 then some ⟨bs, h⟩ else none

instance : Inhabited ShortId := ⟨⟨List.replicate 8 0, rfl⟩⟩

end ShortId

namespace TxId

/-- The identity with the given octets, if there are thirty-two. -/
def ofBytes? (bs : Bytes) : Option TxId :=
  if h : bs.length = 32 then some ⟨bs, h⟩ else none

/-- The short form of an identity. -/
def short (id : TxId) : ShortId := ⟨id.octets.take 8, by simp [id.length_octets]⟩

/-- The identity of a raw transaction: its hash, hashed once more, last octet first (SPEC §10.3
item 8). -/
def ofRaw (raw : Bytes) : TxId :=
  ⟨(Sha256.hash (Sha256.hash raw)).reverse, by simp [Sha256.length_hash]⟩

instance : Inhabited TxId := ⟨⟨List.replicate 32 0, rfl⟩⟩

end TxId

/-- The network that a transaction is meant for. -/
inductive Network where
  | mainnet
  | testnet
  deriving DecidableEq, Repr, Inhabited

namespace Network

/-- The octet that stands for a network. -/
def selector : Network → UInt8
  | .mainnet => 0x6d
  | .testnet => 0x74

/-- The network that an octet stands for: every octet but one stands for the test network. -/
def ofSelector (b : UInt8) : Network := if b = selector .mainnet then .mainnet else .testnet

theorem ofSelector_selector (n : Network) : ofSelector n.selector = n := by
  cases n <;> decide

end Network

/-! ## Segments -/

/-- What only the first segment of a transaction says. -/
structure TxOpening where
  txId : TxId
  count : UInt8
  network : Network
  deriving DecidableEq, Repr, Inhabited

/-- A numbered part of a transaction. -/
structure TxSegment where
  shortId : ShortId
  index : UInt8
  opening : Option TxOpening
  payload : Bytes
  deriving DecidableEq, Repr, Inhabited

namespace TxSegment

/-- The fields of a segment. -/
def toEnvelope (s : TxSegment) : Envelope :=
  let env := Envelope.withBytes TagMap.empty Tag.shortId s.shortId.octets
  let env := match s.opening with
    | some o =>
      ((env.withBytes Tag.txId o.txId.octets).withUInt Tag.count o.count.toUInt64).withUInt
        Tag.network o.network.selector.toUInt64
    | none => env.withUInt Tag.index s.index.toUInt64
  env.withBytes Tag.payload s.payload

/-- The short identity in the fields of a segment. -/
def shortIdOf (env : Envelope) : Except Fault ShortId :=
  match env.bytes Tag.shortId with
  | .error e => .error e
  | .ok bs =>
    match ShortId.ofBytes? bs with
    | some id => .ok id
    | none => .error (.length .shortId bs.length)

/-- The identity in the fields of a first segment. -/
def txIdOf (env : Envelope) : Except Fault TxId :=
  match env.bytes Tag.txId with
  | .error e => .error e
  | .ok bs =>
    match TxId.ofBytes? bs with
    | some id => .ok id
    | none => .error (.length .txId bs.length)

/-- The network in the fields of a first segment: a number of one octet or a text of one octet. -/
def networkOf (env : Envelope) : Except Fault Network :=
  match TagMap.get? env Tag.network with
  | some (.int n) =>
    if 0 ≤ n ∧ n < 256 then .ok (.ofSelector (UInt8.ofNat n.toNat)) else .error .networkRange
  | some (.text s) =>
    match Utf8.encode s with
    | [b] => .ok (.ofSelector b)
    | _ => .error .networkKind
  | some _ => .error .networkKind
  | none => .error (.missing Tag.network)

/-- What the fields of a first segment say of its transaction. -/
def openingOf (env : Envelope) : Except Fault TxOpening :=
  match txIdOf env with
  | .error e => .error e
  | .ok txId =>
    match env.octet Tag.count with
    | .error e => .error e
    | .ok count =>
      if count = 0 then .error .noSegments
      else (networkOf env).map fun network => ⟨txId, count, network⟩

/-- The segment with the given fields. -/
def ofEnvelope (env : Envelope) : Except Fault TxSegment :=
  match shortIdOf env with
  | .error e => .error e
  | .ok shortId =>
    match env.bytes Tag.payload with
    | .error e => .error e
    | .ok payload =>
      if env.contains Tag.txId || env.contains Tag.network then
        (openingOf env).map fun o => ⟨shortId, 0, some o, payload⟩
      else (env.octet Tag.index).map fun i => ⟨shortId, i, none, payload⟩

end TxSegment

end Meshway
