import Meshway.Message
set_option autoImplicit false

/-!
# The radio (SPEC §6)

Sending is fire and forget: every packet handed to the radio gets a receipt
that says how it fared, and nothing is sent twice.  A transport is whatever
takes packets and gives receipts; its state is its own.
-/

namespace Meshway

/-- A packet on its way out. -/
structure Outbound where
  receiver : UInt64
  data : Data
  encrypt : Bool
  deriving DecidableEq, Repr, Inhabited

/-- Why a packet was not sent. -/
inductive SendFault where
  /-- the radio refused it -/
  | rejected (reason : String)
  /-- no way leads to the receiver -/
  | notConnected (gid : UInt64)
  /-- the transport never reported -/
  | dropped
  deriving DecidableEq, Repr, Inhabited

/-- The wording of a fault. -/
def SendFault.message : SendFault → String
  | .rejected reason => s!"radio rejected packet: {reason}"
  | .notConnected gid => s!"no route to gid {gid}"
  | .dropped => "transport dropped the packet without reporting"

/-- How a packet fared. -/
abbrev Receipt := Except SendFault Unit

/-- Something that takes packets and reports how they fared. -/
structure Transport (σ : Type) where
  send : σ → Outbound → Receipt × σ

namespace Transport

variable {σ : Type}

/-- Hands packets over one after the other, however the ones before fared. -/
def sendAll (t : Transport σ) : σ → List Outbound → List Receipt × σ
  | s, [] => ([], s)
  | s, p :: ps =>
    let (r, s) := t.send s p
    let (rs, s) := t.sendAll s ps
    (r :: rs, s)

end Transport

/-- A radio that keeps what it is given, latest first, and whose reports are laid down beforehand.
When they are used up, every packet is sent. -/
structure LoggedRadio where
  outcomes : List (Outbound → Receipt)
  sent : List Outbound

/-- The radio that keeps what it is given, as a transport. -/
def LoggedRadio.transport : Transport LoggedRadio where
  send := fun s p =>
    match s.outcomes with
    | [] => (.ok (), { s with sent := p :: s.sent })
    | report :: rest => (report p, ⟨rest, p :: s.sent⟩)

end Meshway
