import Meshway.Proofs.Bridge.Opening
import Meshway.Proofs.Bytes.Hex
import Meshway.Proofs.Text.Decimal
import Meshway.Proofs.Text.Separator
set_option autoImplicit false

/-!
# What a stream's identity stands for (SPEC §3, §10.3 item 11)

The identity of a stream is the beginning of a hash of a text that names the
node and the destination, with a colon before the host and another behind it.
A host may hold colons of its own; numbers do not, so the first colon ends the
number of the node and the last one begins the port.  Main statement: the text
is never that of another node or destination.  Streams that differ share an
identity only where the hashes of different texts begin alike, and a bridge
finds its stream in use only where that or the same destination is to blame.
-/

namespace Meshway

/-- What the identity of a stream is derived from: the node that opens the connection, and where the
connection leads. -/
structure Route where
  gid : UInt64
  destination : Destination
  deriving DecidableEq, Repr, Inhabited

/-- Different octets whose hashes have their first eight octets in common. -/
structure Collide (hash : Bytes → Bytes) (x y : Bytes) : Prop where
  ne : x ≠ y
  take_eq : (hash x).take 8 = (hash y).take 8

namespace Route

/-- The octets that are hashed. -/
def hashed (r : Route) : Bytes :=
  Utf8.encode (StreamId.preimage r.gid r.destination.host r.destination.port)

/-- The identity of the stream. -/
def streamId (r : Route) : StreamId :=
  StreamId.derive r.gid r.destination.host r.destination.port

/-! ## The text is that of one route -/

/-- A number is written without colons. -/
theorem colon_notMem_repr (n : Nat) : ':' ∉ n.repr.toList := fun hmem =>
  absurd (Decimal.isDigit_of_mem_repr hmem) (by decide)

theorem toList_preimage (gid : UInt64) (host : String) (port : UInt16) :
    (StreamId.preimage gid host port).toList =
      gid.toNat.repr.toList ++ ':' :: (host.toList ++ ':' :: port.toNat.repr.toList) := by
  simp [StreamId.preimage, toString]

/-- The first colon ends the node's number, and the last one begins the port. -/
theorem hashed_injective {r r' : Route} (h : r.hashed = r'.hashed) : r = r' := by
  obtain ⟨gid, host, port⟩ := r
  obtain ⟨gid', host', port'⟩ := r'
  have htext := congrArg String.toList (Utf8.encode_injective h)
  simp only [toList_preimage] at htext
  obtain ⟨hgid, hrest⟩ :=
    Text.eq_of_first (colon_notMem_repr _) (colon_notMem_repr _) htext
  obtain ⟨hhost, hport⟩ := Text.eq_of_last (colon_notMem_repr _) (colon_notMem_repr _) hrest
  obtain rfl : gid = gid' := UInt64.toNat_inj.1 (Decimal.eq_of_toList_repr hgid)
  obtain rfl : host = host' := String.toList_inj.1 hhost
  obtain rfl : port = port' := UInt16.toNat_inj.1 (Decimal.eq_of_toList_repr hport)
  rfl

/-! ## Identities in common -/

variable {r r' : Route}

/-- Whatever the hash, two routes have its beginning in common if they are one route, or else by a
collision. -/
theorem take_hash_eq_iff (hash : Bytes → Bytes) :
    (hash r.hashed).take 8 = (hash r'.hashed).take 8 ↔
      r = r' ∨ Collide hash r.hashed r'.hashed := by
  constructor
  · intro htake
    by_cases heq : r = r'
    · exact .inl heq
    · exact .inr ⟨fun hhashed => heq (hashed_injective hhashed), htake⟩
  · rintro (rfl | hcollide)
    · rfl
    · exact hcollide.take_eq

theorem streamId_eq_iff :
    r.streamId = r'.streamId ↔ r = r' ∨ Collide Sha256.hash r.hashed r'.hashed := by
  rw [← take_hash_eq_iff, streamId, streamId, StreamId.derive, StreamId.derive, StreamId.mk.injEq]
  rfl

/-- The texts of two routes are the same only if the routes are.  So two routes share an identity
only by a collision of the hash, whichever hash is taken.  And where all claimed streams are those
of some routes, a bridge that finds its stream in use finds it claimed for its own destination, or
for one whose text collides with its own. -/
theorem streamId_eq_iff_eq_or_collide :
    (∀ r r' : Route, r.hashed = r'.hashed ↔ r = r') ∧
    (∀ (hash : Bytes → Bytes) (r r' : Route),
      (hash r.hashed).take 8 = (hash r'.hashed).take 8 ↔
        r = r' ∨ Collide hash r.hashed r'.hashed) ∧
    (∀ r r' : Route,
      r.streamId = r'.streamId ↔ r = r' ∨ Collide Sha256.hash r.hashed r'.hashed) ∧
    ∀ {α : Type} (n : Node) (listen : PortAllocator → Except IoFault α × PortAllocator)
      (b : Bridge) (h : BridgeHost) (d : Destination) (routes : List Route) (id : StreamId),
      (∀ id', h.registry.isRegistered id' → ∃ r ∈ routes, r.streamId = id') →
      (Bridge.open? n listen b h d.host d.port).1 = .error (.inUse id) →
        h.registry.isRegistered id ∧ id = (Route.mk n.gid d).streamId ∧
          ∃ r ∈ routes, r.streamId = id ∧
            (r = ⟨n.gid, d⟩ ∨ Collide Sha256.hash r.hashed (Route.mk n.gid d).hashed) := by
  refine ⟨fun r r' => ⟨hashed_injective, congrArg hashed⟩, fun hash r r' => take_hash_eq_iff hash,
    fun r r' => streamId_eq_iff, ?_⟩
  intro α n listen b h d routes id hroutes hopen
  cases (Bridge.open?_eq_error_iff n listen b h d.host d.port _).1 hopen with
  | inUse hidle hplan hclaimed =>
    obtain ⟨r, hr, hid⟩ := hroutes _ hclaimed
    exact ⟨hclaimed, rfl, r, hr, hid, streamId_eq_iff.1 hid⟩

/-- Hosts of colons and digits that run into the numbers beside them, and a bridge to one of them
that finds its stream in use. -/
theorem streamId_eq_iff_beside_colons :
    let n : Node := ⟨.default, 7, fun _ => default⟩
    let listen := fun ports : PortAllocator => (Except.ok (), ports)
    let d : Destination := ⟨"::1", 80⟩
    let r : Route := ⟨n.gid, d⟩
    let h : BridgeHost :=
      ⟨{ Registry.empty with streams := Table.empty.insert r.streamId 1 }, .new 0⟩
    (Route.mk 1 ⟨":2", 3⟩).hashed ≠ (Route.mk 1 ⟨"", 23⟩).hashed ∧
      (∀ id', h.registry.isRegistered id' → ∃ r' ∈ [r], r'.streamId = id') ∧
      (Bridge.open? n listen .new h d.host d.port).1 = .error (.inUse r.streamId) ∧
      ∃ r' ∈ [r], r'.streamId = r.streamId ∧
        (r' = r ∨ Collide Sha256.hash r'.hashed r.hashed) := by
  intro n listen d r h
  obtain ⟨htexts, -, -, hinUse⟩ := streamId_eq_iff_eq_or_collide
  have hroutes : ∀ id', h.registry.isRegistered id' → ∃ r' ∈ [r], r'.streamId = id' := by
    intro id' hclaimed
    rcases (Table.contains_insert_iff _ _ _ _).1 hclaimed with rfl | hempty
    · exact ⟨r, List.mem_singleton_self r, rfl⟩
    · cases hempty
  have hclaimed : h.registry.isRegistered r.streamId = true :=
    (Table.contains_insert_iff _ _ _ _).2 (.inl rfl)
  have hplan : Chunk.plan r.streamId (some d) 0 n.config.streamPacketBytes.toNat =
      .ok ⟨120, 126, 1⟩ := by
    simp only [Chunk.plan, Chunk.shapeLength_none, Chunk.shapeLength_some]
    rfl
  have hopen : (Bridge.open? n listen .new h d.host d.port).1 = .error (.inUse r.streamId) :=
    Bridge.open?_of_fails (.inUse rfl hplan hclaimed)
  obtain ⟨-, -, hblamed⟩ := hinUse n listen .new h d [r] r.streamId hroutes hopen
  have htold : (Route.mk 1 ⟨":2", 3⟩).hashed ≠ (Route.mk 1 ⟨"", 23⟩).hashed := fun heq =>
    absurd ((htexts _ _).1 heq) (by decide)
  exact ⟨htold, hroutes, hopen, hblamed⟩

end Route

end Meshway
