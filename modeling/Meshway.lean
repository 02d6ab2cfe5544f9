import Meshway.Config
import Meshway.Frame
import Meshway.Link
import Meshway.Main
import Meshway.Relay.Session
import Meshway.Site
import Meshway.Proofs.Cbor.Heads
import Meshway.Proofs.Cbor.RoundTrip
import Meshway.Proofs.Cbor.Floating
import Meshway.Proofs.Cbor.Order
import Meshway.Proofs.Cbor.Regular
import Meshway.Proofs.TagMap
import Meshway.Proofs.Payload
import Meshway.Proofs.PacketSize
import Meshway.Proofs.Segmentation.Partition
import Meshway.Proofs.Reassembly
import Meshway.Proofs.Stream.Transfer
import Meshway.Proofs.Stream.Ledger
import Meshway.Proofs.Stream.Refinement
import Meshway.Proofs.Stream.Delivery
import Meshway.Proofs.Stream.History
import Meshway.Proofs.Dispatcher
import Meshway.Proofs.Bridge
import Meshway.Proofs.Bridge.Capacity
import Meshway.Proofs.Bridge.Turns
import Meshway.Proofs.Bridge.Release
import Meshway.Proofs.Bridge.Opening
import Meshway.Proofs.Cbor.Reading
import Meshway.Proofs.Cbor.Delimited
import Meshway.Proofs.TagMap.Length
import Meshway.Proofs.TagMap.Canonical
import Meshway.Proofs.TagMap.Spelling
import Meshway.Proofs.Payload.Codec
import Meshway.Proofs.Payload.Shape
import Meshway.Proofs.Payload.Whole
import Meshway.Proofs.Payload.Lookup
import Meshway.Proofs.Transaction.Transfer
import Meshway.Proofs.Transaction.History
import Meshway.Proofs.Broadcast
import Meshway.Proofs.Loss
import Meshway.Proofs.Frame.Codec
import Meshway.Proofs.Ports.Overlap
import Meshway.Proofs.Listener
import Meshway.Proofs.Dialogue
import Meshway.Proofs.Socks.Grammar
import Meshway.Proofs.Socks.Refusal
import Meshway.Proofs.Pump
import Meshway.Proofs.Relay.Transcript
import Meshway.Proofs.Relay.Session
import Meshway.Proofs.Config
import Meshway.Proofs.Attribution
import Meshway.Proofs.MemoryMesh
import Meshway.Proofs.Segmentation.Words
import Meshway.Proofs.Stream.Identity
