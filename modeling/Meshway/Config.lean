import Meshway.Address
import Meshway.Node
import Meshway.Relay
import Meshway.Text.Decimal
import Meshway.Toml.Document
set_option autoImplicit false

/-!
# Configuration of the proxy (SPEC §10.2)

The settings of the proxy come from a file, if there is one, and then from the
variables of the environment.  What the file leaves out has its usual value,
and one unfit value makes the whole file invalid; a variable with an unfit
value is passed over.
-/

namespace Meshway

/-! ## Settings -/

/-- The datagram link to the process that owns the radio. -/
structure RadioLink where
  /-- the address of this end -/
  bind : SocketAddress
  /-- the address of the radio's end -/
  bridge : SocketAddress
  deriving DecidableEq, Repr

/-- The link of a proxy that sets nothing. -/
def RadioLink.default : RadioLink where
  bind := .v4 .loopback 4280
  bridge := .v4 .loopback 4281

instance : Inhabited RadioLink := ⟨.default⟩

/-- The settings of the proxy. -/
structure Config where
  /-- the loopback port that clients connect to -/
  listenPort : UInt16
  /-- how many connections are served at once; zero is no bound either -/
  maxConnections : Option UInt64
  /-- the identity of this node -/
  localGid : UInt64
  /-- how long a client may take to say what it wants -/
  handshakeTimeoutSecs : UInt64
  /-- how long a connection may stay silent; zero is for ever -/
  idleTimeoutSecs : UInt64
  /-- where log files go; they go to standard output otherwise -/
  logDir : Option String
  radio : RadioLink
  mesh : MeshConfig
  deriving DecidableEq, Repr

namespace Config

/-- The settings of a proxy that sets nothing (SPEC §10.2). -/
def default : Config where
  listenPort := 8888
  maxConnections := none
  localGid := 46725174784
  handshakeTimeoutSecs := 30
  idleTimeoutSecs := 600
  logDir := none
  radio := .default
  mesh := .default

instance : Inhabited Config := ⟨.default⟩

/-- The address that clients connect to. -/
def listenAddress (c : Config) : SocketAddress := .v4 .loopback c.listenPort

/-- The settings of each connection. -/
def relay (c : Config) : RelayConfig := ⟨c.handshakeTimeoutSecs, c.idleTimeoutSecs⟩

end Config

/-! ## The file -/

/-- The link that an item of the file describes. -/
def RadioLink.ofItem? (i : Toml.Item) : Option RadioLink :=
  if i.isRecord then do
    let d := RadioLink.default
    let address (i : Toml.Item) : Option SocketAddress := i.text?.bind SocketAddress.parse?
    return {
      bind := ← i.read 0 "bind" d.bind address
      bridge := ← i.read 1 "bridge" d.bridge address }
  else none

/-- The settings of a node that an item of the file describes. -/
def MeshConfig.ofItem? (i : Toml.Item) : Option MeshConfig :=
  if i.isRecord then do
    let d := MeshConfig.default
    return {
      gatewayGid := ← i.read 0 "gateway_gid" d.gatewayGid (·.uint64?)
      streamPacketBytes := ← i.read 1 "stream_packet_bytes" d.streamPacketBytes (·.uint64?)
      txPacketBytes := ← i.read 2 "tx_packet_bytes" d.txPacketBytes (·.uint64?)
      encrypt := ← i.read 3 "encrypt" d.encrypt (·.boolean?)
      loopbackBasePort := ← i.read 4 "loopback_base_port" d.loopbackBasePort (·.uint16?)
      acceptTimeoutSecs := ← i.read 5 "accept_timeout_secs" d.acceptTimeoutSecs (·.uint64?) }
  else none

/-- Why a file cannot be read. -/
inductive FileFault where
  | missing
  | notUtf8
  deriving DecidableEq, Repr, Inhabited

/-- The wording of a fault. -/
def FileFault.message : FileFault → String
  | .missing => "No such file or directory (os error 2)"
  | .notUtf8 => "stream did not contain valid UTF-8"

/-- Why there are no settings. -/
inductive ConfigFault where
  /-- the file cannot be read -/
  | unreadable (path : String) (cause : FileFault)
  /-- the text of the file does not describe settings -/
  | invalid
  deriving DecidableEq, Repr, Inhabited

/-- The wording of a fault. -/
def ConfigFault.message : ConfigFault → String
  | .unreadable path cause => s!"cannot read {path}: {cause.message}"
  | .invalid => "invalid config"

namespace Config

/-- The settings that an item of the file describes. -/
def ofItem? (i : Toml.Item) : Option Config :=
  if i.isRecord then do
    let d := Config.default
    return {
      listenPort := ← i.read 0 "listen_port" d.listenPort (·.uint16?)
      maxConnections := ← i.read 1 "max_connections" d.maxConnections fun i => i.uint64?.map some
      localGid := ← i.read 2 "local_gid" d.localGid (·.uint64?)
      handshakeTimeoutSecs :=
        ← i.read 3 "handshake_timeout_secs" d.handshakeTimeoutSecs (·.uint64?)
      idleTimeoutSecs := ← i.read 4 "idle_timeout_secs" d.idleTimeoutSecs (·.uint64?)
      logDir := ← i.read 5 "log_dir" d.logDir fun i => i.text?.map some
      radio := ← i.read 6 "radio" d.radio RadioLink.ofItem?
      mesh := ← i.read 7 "mesh" d.mesh MeshConfig.ofItem? }
  else none

/-- The settings that the text of a file describes. -/
def parse (text : String) : Except ConfigFault Config :=
  match (Toml.parse? text).bind fun es => ofItem? (.table .header es) with
  | some c => .ok c
  | none => .error .invalid

end Config

/-! ## The environment -/

/-- The variables of the environment that change a setting. -/
inductive Variable where
  | port
  | maxConnections
  | localGid
  | gatewayGid
  | maxPacket
  | loopbackBase
  | encrypt
  | logDir
  | radioBind
  | radioBridge
  deriving DecidableEq, Repr, Inhabited

namespace Variable

/-- All variables, in the order in which they are looked up. -/
def all : List Variable :=
  [.port, .maxConnections, .localGid, .gatewayGid, .maxPacket, .loopbackBase, .encrypt, .logDir,
    .radioBind, .radioBridge]

/-- The name of a variable. -/
def name : Variable → String
  | .port => "MESH_PROXY_PORT"
  | .maxConnections => "MESH_PROXY_MAX_CONNECTIONS"
  | .localGid => "MESH_PROXY_LOCAL_GID"
  | .gatewayGid => "MESH_PROXY_GATEWAY_GID"
  | .maxPacket => "MESH_PROXY_MAX_PACKET"
  | .loopbackBase => "MESH_PROXY_LOOPBACK_BASE"
  | .encrypt => "MESH_PROXY_ENCRYPT"
  | .logDir => "MESH_PROXY_LOG_DIR"
  | .radioBind => "MESH_PROXY_RADIO_BIND"
  | .radioBridge => "MESH_PROXY_RADIO_BRIDGE"

/-- The bound that a value sets on the connections served at once, if it is fit. -/
def bound? (value : String) : Option (Option UInt64) :=
  let s := Text.trim value
  if s = "" ∨ s = "0" ∨ s = "unbounded" then some none
  else (Decimal.uint64? s).map some

/-- Whether a value asks for encryption; every value answers that. -/
def asksEncryption (value : String) : Bool := value == "1" || value.toLower == "true"

/-- The settings changed by the value of a variable.  Blanks around a number or an address do not
count. -/
def set (v : Variable) (value : String) (c : Config) : Config :=
  let word := Text.trim value
  match v with
  | .port => (Decimal.uint16? word).elim c fun n => { c with listenPort := n }
  | .maxConnections => (bound? value).elim c fun n => { c with maxConnections := n }
  | .localGid => (Decimal.uint64? word).elim c fun n => { c with localGid := n }
  | .gatewayGid => (Decimal.uint64? word).elim c fun n => { c with mesh.gatewayGid := n }
  | .maxPacket => (Decimal.uint64? word).elim c fun n => { c with mesh.streamPacketBytes := n }
  | .loopbackBase => (Decimal.uint16? word).elim c fun n => { c with mesh.loopbackBasePort := n }
  | .encrypt => { c with mesh.encrypt := asksEncryption value }
  | .logDir => { c with logDir := if value = "" then none else some value }
  | .radioBind => (SocketAddress.parse? word).elim c fun a => { c with radio.bind := a }
  | .radioBridge => (SocketAddress.parse? word).elim c fun a => { c with radio.bridge := a }

end Variable

/-- What the variables of an environment are set to. -/
abbrev Environment : Type := String → Option String

namespace Config

/-- The settings changed by an environment (SPEC §10.2). -/
def override (env : Environment) (c : Config) : Config :=
  Variable.all.foldl (fun c v => (env v.name).elim c fun value => v.set value c) c

/-- The settings from a file, whose content is given if there is one, and an environment. -/
def load (path : String) (file : Option (Except FileFault Bytes)) (env : Environment) :
    Except ConfigFault Config :=
  match file with
  | none => .ok (override env default)
  | some (.error e) => .error (.unreadable path e)
  | some (.ok content) =>
    match Utf8.decode? content with
    | none => .error (.unreadable path .notUtf8)
    | some text => (parse text).map (override env)

/-- The lines that tell where a proxy with these settings listens and what it is linked to. -/
def summary (c : Config) : List String :=
  let bound : String := c.maxConnections.elim "unbounded" toString
  [s!"config loaded: port {c.listenPort}, gid {c.localGid}",
   s!"radio link {c.radio.bind.text} to {c.radio.bridge.text}",
   s!"SOCKS server on {c.listenAddress.text}, max connections {bound}"]

end Config

end Meshway
