import Meshway.Bytes
import Meshway.IoFault
set_option autoImplicit false

/-!
# Dialogues (SPEC §6)

What a server does with a client is a dialogue: it reads a number of octets,
writes some, asks for a connection elsewhere, and comes to a result.  A
dialogue is data, so it can be held while it waits for the client and taken up
again when more has arrived.
-/

namespace Meshway

/-- What remains to be done until there is a result.  A connection that was asked for may fail with
a fault of type `ε`. -/
inductive Dialogue (ε α : Type) where
  /-- there is the result -/
  | done (result : α)
  /-- read exactly `n` octets -/
  | read (n : Nat) (next : Bytes → Dialogue ε α)
  /-- write octets -/
  | write (octets : Bytes) (next : Dialogue ε α)
  /-- ask for a connection to a host and port -/
  | connect (host : String) (port : UInt16) (next : Except ε Unit → Dialogue ε α)

/-- How far a dialogue has come. -/
inductive Progress (ε α : Type) where
  /-- it has a result -/
  | finished (result : α)
  /-- a read or a write failed -/
  | failed (fault : IoFault)
  /-- it needs more octets -/
  | waiting (rest : Dialogue ε α)

/-- What a dialogue was seen to do. -/
structure Exchange (ε α : Type) where
  progress : Progress ε α
  /-- the octets written -/
  written : Bytes
  /-- the octets left unread -/
  unread : Bytes
  /-- the destinations asked for -/
  targets : List (String × UInt16)

/-- The other side of a dialogue. -/
structure Client where
  /-- what has arrived from it -/
  arrived : Bytes
  /-- whether nothing more will arrive -/
  ended : Bool
  /-- whether it takes octets -/
  listening : Bool

namespace Dialogue

variable {ε α β : Type}

/-- Goes on with what follows a result. -/
def bind : Dialogue ε α → (α → Dialogue ε β) → Dialogue ε β
  | .done a, f => f a
  | .read n next, f => .read n fun bs => (next bs).bind f
  | .write octets next, f => .write octets (next.bind f)
  | .connect host port next, f => .connect host port fun r => (next r).bind f

/-- Reads one octet. -/
def readByte (next : UInt8 → Dialogue ε α) : Dialogue ε α :=
  .read 1 fun bs => next (bs.headD 0)

/-- Reads a number of sixteen bits. -/
def readUInt16 (next : UInt16 → Dialogue ε α) : Dialogue ε α :=
  .read 2 fun bs => next (UInt16.ofNat (Bytes.toNat bs))

/-- Reads octets up to a zero octet, which is not among them; `none` if more than `room` come
before it.  The octets read so far are `before`. -/
def readTerminated : Nat → Bytes → (Option Bytes → Dialogue ε α) → Dialogue ε α
  | 0, before, next => readByte fun b => next (if b = 0 then some before else none)
  | room + 1, before, next => readByte fun b =>
    if b = 0 then next (some before) else readTerminated room (before ++ [b]) next

/-- Carries a dialogue on as far as the client and the destination allow.  A read that finds too
little takes what there is; when nothing more will come, it fails. -/
def run (client : Client) (connect : String → UInt16 → Except ε Unit) :
    Dialogue ε α → Bytes → Exchange ε α
  | .done a, input => ⟨.finished a, [], input, []⟩
  | .read n next, input =>
    if n ≤ input.length then run client connect (next (input.take n)) (input.drop n)
    else if client.ended then ⟨.failed .earlyEnd, [], [], []⟩
    else ⟨.waiting (.read (n - input.length) fun bs => next (input ++ bs)), [], [], []⟩
  | .write octets next, input =>
    if client.listening then
      let e := run client connect next input
      { e with written := octets ++ e.written }
    else ⟨.failed .brokenPipe, [], input, []⟩
  | .connect host port next, input =>
    let e := run client connect (next (connect host port)) input
    { e with targets := (host, port) :: e.targets }

end Dialogue

end Meshway
