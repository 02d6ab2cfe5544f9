import Meshway.Payload
import Meshway.Table
set_option autoImplicit false

/-!
# Reassembly (SPEC §4.3)

Parts arrive in order but may be lost.  The parts of a message are kept until
the last one arrives; the first part of a message drops what is left of the one
before.  Chunks of a stream each state their number and count; the segments of
a transaction after the first rely on the count that the first stated.
-/

namespace Meshway

/-! ## Streams -/

/-- What a chunk leads to (SPEC §4.3). -/
inductive Joined where
  /-- more chunks are expected -/
  | pending
  /-- the message is complete -/
  | complete (message : Bytes)
  /-- the stream has ended -/
  | closed
  deriving DecidableEq, Repr, Inhabited

/-- The octets of messages that have begun to arrive, by stream. -/
structure Reassembler where
  partials : Table StreamId Bytes

namespace Reassembler

/-- Nothing has arrived. -/
def empty : Reassembler := ⟨Table.empty⟩

instance : Inhabited Reassembler := ⟨empty⟩

/-- Drops what has arrived for a stream. -/
def forget (r : Reassembler) (id : StreamId) : Reassembler := ⟨r.partials.erase id⟩

/-- The octets kept for a stream. -/
def held (r : Reassembler) (id : StreamId) : Bytes := (r.partials.get? id).getD []

/-- The number of octets kept for a stream. -/
def buffered (r : Reassembler) (id : StreamId) : Nat := (r.held id).length

/-- Takes a chunk in: the contract of SPEC §4.3. -/
def accept (r : Reassembler) (c : Chunk) : Joined × Reassembler :=
  if c.isClose then (.closed, r.forget c.streamId)
  else if c.index = 0 ∧ c.isLast then (.complete c.payload, r.forget c.streamId)
  else
    let before := if c.index = 0 then [] else r.held c.streamId
    let message := before ++ c.payload
    if c.isLast then (.complete message, r.forget c.streamId)
    else (.pending, ⟨r.partials.insert c.streamId message⟩)

end Reassembler

/-! ## Transactions -/

/-- What a segment leads to (SPEC §4.3). -/
inductive TxJoined where
  /-- more segments are expected -/
  | pending
  /-- the transaction is complete -/
  | complete (txId : TxId) (network : Network) (raw : Bytes)
  /-- the first segment never arrived -/
  | orphan
  deriving DecidableEq, Repr, Inhabited

/-- A transaction that has begun to arrive. -/
structure PendingTx where
  opening : TxOpening
  raw : Bytes
  deriving DecidableEq, Repr, Inhabited

/-- The transactions that have begun to arrive, by short identity. -/
structure TxReassembler where
  waiting : Table ShortId PendingTx

namespace TxReassembler

/-- Nothing has arrived. -/
def empty : TxReassembler := ⟨Table.empty⟩

instance : Inhabited TxReassembler := ⟨empty⟩

/-- The number of transactions that have begun to arrive. -/
def inFlight (r : TxReassembler) : Nat := r.waiting.size

/-- Takes a segment in.  The count is that of the first segment (SPEC §9). -/
def accept (r : TxReassembler) (s : TxSegment) : TxJoined × TxReassembler :=
  match s.opening with
  | some o =>
    if o.count ≤ 1 then (.complete o.txId o.network s.payload, ⟨r.waiting.erase s.shortId⟩)
    else (.pending, ⟨r.waiting.insert s.shortId ⟨o, s.payload⟩⟩)
  | none =>
    match r.waiting.get? s.shortId with
    | none => (.orphan, r)
    | some p =>
      let raw := p.raw ++ s.payload
      if s.index.toNat + 1 < p.opening.count.toNat then
        (.pending, ⟨r.waiting.insert s.shortId { p with raw := raw }⟩)
      else (.complete p.opening.txId p.opening.network raw, ⟨r.waiting.erase s.shortId⟩)

end TxReassembler

end Meshway
