import Meshway.Radio
import Meshway.Segmentation
import Meshway.Bytes.Hex
import Meshway.Text.Blank
set_option autoImplicit false

/-!
# A node's own messages (SPEC §9, §10.3 items 8, 10, 13 and 19)

What a node sends of its own accord: texts, short messages for the gateway to
pass on, single payloads, and transactions.  Whatever is wrong with a message
is found before anything is handed to the radio.
-/

namespace Meshway

/-- The settings that everything on a node shares. -/
structure MeshConfig where
  /-- the receiver of all chunks and segments -/
  gatewayGid : UInt64
  /-- the packet size for chunks of streams -/
  streamPacketBytes : UInt64
  /-- the packet size for segments of transactions -/
  txPacketBytes : UInt64
  /-- whether packets ask for encryption -/
  encrypt : Bool
  /-- the first loopback port for bridges; zero leaves the choice to the system -/
  loopbackBasePort : UInt16
  /-- how many seconds a bridge waits for its local connection -/
  acceptTimeoutSecs : UInt64
  deriving DecidableEq, Repr

/-- The settings of a node that sets nothing. -/
def MeshConfig.default : MeshConfig where
  gatewayGid := phoneGateway
  streamPacketBytes := .ofNat Segmentation.streamPacketBytes
  txPacketBytes := .ofNat Segmentation.txPacketBytes
  encrypt := false
  loopbackBasePort := 1337
  acceptTimeoutSecs := 10

instance : Inhabited MeshConfig := ⟨.default⟩

/-- A node: its settings, its identity, and how it names transactions. -/
structure Node where
  config : MeshConfig
  gid : UInt64
  txId : Bytes → TxId

/-- Why a short message is not sent. -/
inductive SmsFault where
  | emptyPhone
  | emptyText
  deriving DecidableEq, Repr, Inhabited

/-- The wording of a fault. -/
def SmsFault.message : SmsFault → String
  | .emptyPhone => "sms needs a destination phone number"
  | .emptyText => "sms body is empty"

/-- Why a transaction is not sent. -/
inductive BroadcastFault where
  | hex (fault : Hex.Fault)
  | segmentation (fault : Segmentation.Fault)
  deriving DecidableEq, Repr, Inhabited

/-- The wording of a fault. -/
def BroadcastFault.message : BroadcastFault → String
  | .hex fault => s!"transaction hex is invalid: {fault.message}"
  | .segmentation fault => fault.message

/-- A transaction that was handed to the radio: its identity, and how each segment fared. -/
structure Broadcast where
  txId : TxId
  receipts : List (UInt8 × Receipt)

/-- The segments that were not sent, and why. -/
def Broadcast.failures (b : Broadcast) : List (UInt8 × SendFault) :=
  b.receipts.filterMap fun (index, receipt) =>
    match receipt with
    | .ok () => none
    | .error fault => some (index, fault)

namespace Node

variable {σ : Type}

/-- The packet that takes content to a receiver. -/
def outbound (n : Node) (receiver : UInt64) (data : Data) : Outbound :=
  ⟨receiver, data, n.config.encrypt⟩

/-- The packet that takes a payload to a receiver. -/
def packet (n : Node) (receiver : UInt64) (p : Payload) : Outbound :=
  n.outbound receiver (.binary p.encode)

/-- Sends a text (SPEC §10.3 item 19). -/
def sendText (n : Node) (t : Transport σ) (s : σ) (receiver : UInt64) (text : String) :
    Receipt × σ :=
  t.send s (n.outbound receiver (.text text))

/-- Sends a payload. -/
def submit (n : Node) (t : Transport σ) (s : σ) (receiver : UInt64) (p : Payload) : Receipt × σ :=
  t.send s (n.packet receiver p)

/-- Asks a receiver to pass a short message on to a phone number (SPEC §10.3 item 10). -/
def sendSms (n : Node) (t : Transport σ) (s : σ) (receiver : UInt64) (phone text : String) :
    Except SmsFault (Receipt × σ) :=
  if Text.trim phone = "" then .error .emptyPhone
  else if text = "" then .error .emptyText
  else .ok (n.submit t s receiver (.sms ⟨phone, text⟩))

/-- The segments of a transaction that is given as hexadecimal text, blanks around it aside. -/
def transaction (n : Node) (hex : String) (network : Network) :
    Except BroadcastFault (TxId × List TxSegment) :=
  match Hex.decode (Text.trim hex) with
  | .error e => .error (.hex e)
  | .ok raw =>
    match TxSegment.segments (n.txId raw) network raw n.config.txPacketBytes.toNat with
    | .error e => .error (.segmentation e)
    | .ok segments => .ok (n.txId raw, segments)

/-- Sends a transaction to the gateway, segment by segment (SPEC §10.3 items 8 and 13). -/
def broadcast (n : Node) (t : Transport σ) (s : σ) (hex : String) (network : Network) :
    Except BroadcastFault Broadcast × σ :=
  match n.transaction hex network with
  | .error e => (.error e, s)
  | .ok (txId, segments) =>
    let (receipts, s) :=
      t.sendAll s (segments.map fun g => n.packet n.config.gatewayGid (.segment g))
    (.ok ⟨txId, (segments.map (·.index)).zip receipts⟩, s)

end Node

end Meshway
