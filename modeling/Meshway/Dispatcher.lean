import Meshway.Stream.Registry
import Meshway.Message
set_option autoImplicit false

/-!
# The dispatcher (SPEC §5, §10.3 item 21)

Packets from the radio are read one after the other.  Chunks of streams go to
the registry, other messages to a consumer if there is one.  A packet that
cannot be read is passed over.
-/

namespace Meshway

/-- Where the dispatcher takes messages to: the registry, and the queue of a consumer of all that
is not part of a stream, unless there is none or it went away. -/
structure Dispatcher where
  registry : Registry
  consumer : Option (List Message)

namespace Dispatcher

/-- Takes a message to where it belongs (SPEC §10.3 item 21). -/
def route (d : Dispatcher) : Message → Dispatcher
  | .chunk c => { d with registry := (d.registry.deliver c).2 }
  | m => { d with consumer := d.consumer.map (· ++ [m]) }

/-- Reads a packet. -/
def handle (d : Dispatcher) (p : Packet) : Dispatcher :=
  match Message.ofPacket p with
  | .error _ => d
  | .ok m => d.route m

/-- Reads packets one after the other. -/
def run (d : Dispatcher) (packets : List Packet) : Dispatcher := packets.foldl handle d

end Dispatcher

end Meshway
