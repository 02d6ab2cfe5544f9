import Meshway.Bytes.Hex
import Meshway.Digest.Sha256
import Meshway.Text.Utf8
set_option autoImplicit false

/-!
# Stream identities (SPEC §3)

The segments of one connection share an identity of eight octets.  The node
that opens the connection derives it from its own identity and the destination.
-/

namespace Meshway

/-- Eight octets that tell a stream from others. -/
structure StreamId where
  octets : Bytes
  length_octets : octets.length = 8
  deriving DecidableEq, Repr

namespace StreamId

/-- The identity with the given octets, if there are eight. -/
def ofBytes? (bs : Bytes) : Option StreamId :=
  if h : bs.length = 8 then some ⟨bs, h⟩ else none

/-- The text that an identity is the hash of. -/
def preimage (gid : UInt64) (host : String) (port : UInt16) : String := s!"{gid}:{host}:{port}"

/-- The identity of a connection from node `gid` to a host and port: the first octets of a hash
(SPEC §3). -/
def derive (gid : UInt64) (host : String) (port : UInt16) : StreamId where
  octets := (Sha256.hash (Utf8.encode (preimage gid host port))).take 8
  length_octets := by simp [Sha256.length_hash]

/-- The identity as hexadecimal text. -/
def hex (id : StreamId) : String := Hex.encode id.octets

instance : Inhabited StreamId := ⟨⟨[0, 0, 0, 0, 0, 0, 0, 0], rfl⟩⟩

end StreamId

end Meshway
