import Meshway.Bridge
import Meshway.Pump
import Meshway.Socks
set_option autoImplicit false

/-!
# The relay (SPEC §4.5, §10.3 items 16, 18 and 20)

A relay serves one client: it negotiates a request, connects to where the
request leads, answers, and then pumps octets both ways.  A client that takes
too long to ask, and a connection that carries nothing for too long, are given
up.  The idle time starts anew whenever something was carried; when its end is
further away than the clock can tell, the relay goes down at that.
-/

namespace Meshway

/-- Why serving a client ended early. -/
inductive RelayFault where
  | handshake (fault : Socks.Fault)
  | handshakeTimeout (secs : UInt64)
  | unsupportedCommand (command : Socks.Command)
  | bridge (fault : BridgeFault)
  | connect (host : String) (port : UInt16) (fault : IoFault)
  | timeout (secs : UInt64)
  | io (fault : IoFault)
  deriving DecidableEq, Repr, Inhabited

namespace RelayFault

/-- The wording of a fault. -/
def message : RelayFault → String
  | .handshake fault => s!"SOCKS handshake failed: {fault.message}"
  | .handshakeTimeout secs => s!"SOCKS handshake timed out after {secs}s"
  | .unsupportedCommand command => s!"SOCKS command {command.name} is not supported"
  | .bridge fault => s!"mesh tunnel: {fault.message}"
  | .connect host port fault => s!"connect to {host}:{port} failed: {fault.message}"
  | .timeout secs => s!"no traffic for {secs}s"
  | .io fault => s!"IO error: {fault.message}"

/-- The answer to a client whose destination could not be reached (SPEC §10.3 item 11). -/
def reply : RelayFault → Socks.Reply
  | .connect _ _ .refused => .connectionRefused
  | .connect .. => .hostUnreachable
  | _ => .generalFailure

end RelayFault

/-- How long a relay waits, in seconds.  An idle time of zero means for ever. -/
structure RelayConfig where
  handshakeTimeoutSecs : UInt64
  idleTimeoutSecs : UInt64
  deriving DecidableEq, Repr, Inhabited

/-- A clock: the moment it shows, and the last one that it can tell, in milliseconds since it was
started. -/
structure Clock where
  now : Nat
  last : Nat
  deriving DecidableEq, Repr, Inhabited

namespace Clock

/-- Milliseconds in a number of seconds. -/
def millis (secs : UInt64) : Nat := secs.toNat * 1000

/-- The clock of a host that was started a second ago.  It counts seconds in 63 bits. -/
def ofHost : Clock := ⟨1000, 0x7fffffffffffffff * 1000 + 999⟩

/-- The clock when some time has passed. -/
def pass (c : Clock) (ms : Nat) : Clock := { c with now := c.now + ms }

/-- The moment in so many milliseconds, if it can be told. -/
def after? (c : Clock) (ms : Nat) : Option Nat :=
  if c.now + ms ≤ c.last then some (c.now + ms) else none

end Clock

/-- Whether the idle time can start anew: there is none, or the clock can tell when it will be
over. -/
def RelayConfig.canWait (config : RelayConfig) (clock : Clock) : Bool :=
  config.idleTimeoutSecs = 0 || (clock.after? (Clock.millis config.idleTimeoutSecs)).isSome

/-- How a relay came out: the octets carried to the server and to the client, or a fault. -/
abbrev RelayResult := Except RelayFault (Nat × Nat)

/-- How far a relay has come. -/
inductive Relay where
  | negotiating (rest : Socks.Negotiation RelayFault)
  | pumping (pump : Pump)
  | finished (result : RelayResult)
  /-- it went down without a result -/
  | crashed

namespace Relay

/-- A relay that has heard nothing. -/
def new : Relay := .negotiating Socks.negotiate

/-- What follows a request: the connection that it asks for, and the answer (SPEC §10.3 items 16
and 20).  A client that asks to
be connected to is told of success twice, as the connection it waits for is there at once. -/
def answer (r : Socks.Request) : Dialogue RelayFault RelayResult :=
  let say (reply : Socks.Reply) (rest : Dialogue RelayFault RelayResult) :
      Dialogue RelayFault RelayResult := .write (reply.octets r.version none) rest
  if r.command = .udpAssociate then
    say .commandNotSupported (.done (.error (.unsupportedCommand r.command)))
  else
    .connect r.host r.port fun
      | .error e => say e.reply (.done (.error e))
      | .ok () =>
        let connected : Dialogue RelayFault RelayResult := .done (.ok (0, 0))
        say .succeeded (if r.command = .bind then say .succeeded connected else connected)

/-- What carrying a relay on was seen to do. -/
structure Turn where
  relay : Relay
  written : Bytes
  unread : Bytes
  targets : List (String × UInt16)

/-- Answers a request that was understood. -/
def conclude (client : Client) (connect : String → UInt16 → Except RelayFault Unit)
    (r : Socks.Request) (input : Bytes) : Turn :=
  let e := (answer r).run client connect input
  let relay : Relay := match e.progress with
    | .finished (.ok _) => .pumping Pump.start
    | .finished (.error fault) => .finished (.error fault)
    | .failed fault => .finished (.error (.io fault))
    | .waiting _ => .finished (.error (.io .earlyEnd))
  ⟨relay, e.written, e.unread, e.targets⟩

/-- Carries a negotiation on as far as what has arrived allows, and answers the request it leads
to. -/
def negotiate (client : Client) (connect : String → UInt16 → Except RelayFault Unit)
    (rest : Socks.Negotiation RelayFault) (input : Bytes) : Turn :=
  let e := rest.run client connect input
  match e.progress with
  | .waiting rest => ⟨.negotiating rest, e.written, e.unread, e.targets⟩
  | .failed fault => ⟨.finished (.error (.handshake (.io fault))), e.written, e.unread, e.targets⟩
  | .finished (.error fault) =>
    ⟨.finished (.error (.handshake fault)), e.written, e.unread, e.targets⟩
  | .finished (.ok r) =>
    let t := conclude client connect r e.unread
    { t with written := e.written ++ t.written, targets := e.targets ++ t.targets }

/-- The result of a relay whose pump stopped. -/
def ofStatus (config : RelayConfig) : Pump.Status → Relay
  | .running p => .pumping p
  | .finished toServer toClient => .finished (.ok (toServer, toClient))
  | .failed (.io fault) => .finished (.error (.io fault))
  | .failed .idle => .finished (.error (.timeout config.idleTimeoutSecs))

/-- What becomes of a relay whose pump has read from a side, and done what that asks for or failed.
If it is done the idle time starts anew, even if both sides have ended (SPEC §10.3 item 18). -/
def ofRead (config : RelayConfig) (clock : Clock) (p : Pump) (source : Side) (octets : Bytes)
    (outcome : Except IoFault Unit) : Relay :=
  let status := p.step (.read source octets outcome)
  match outcome with
  | .ok () => if config.canWait clock then ofStatus config status else .crashed
  | .error _ => ofStatus config status

end Relay

end Meshway
