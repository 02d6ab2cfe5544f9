import Meshway.Dispatcher
import Meshway.Proofs.Stream.Refinement
import Meshway.Proofs.Stream.Transfer
set_option autoImplicit false

/-!
# What a registration receives through the dispatcher (SPEC §4.3, §5)

While the dispatcher reads packets, owners of registrations use the registry and
the consumer of other messages may go away.  Main statement: when the packets
hold the chunks of messages for a stream, in order but among anything else, the
registration of that stream receives the messages, in order and nothing else,
and the end of the stream just when the packet that says so is among them.
-/

namespace Meshway

/-- What happens on a node while its dispatcher runs. -/
inductive NodeEvent where
  /-- the dispatcher reads a packet -/
  | packet (p : Packet)
  /-- the consumer of what is not part of a stream goes away -/
  | consumerLeft
  /-- somebody uses the registry -/
  | registry (op : RegistryOp)

/-- A dispatcher at work, with the ledger of its registry. -/
structure Intake where
  ledger : Ledger
  consumer : Option (List Message)

/-- What an event brings to the registry. -/
def NodeEvent.ops : NodeEvent → List RegistryOp
  | .packet p =>
    match Message.ofPacket p with
    | .ok (.chunk c) => [.deliver c]
    | _ => []
  | .consumerLeft => []
  | .registry op => [op]

namespace Intake

/-- The dispatcher. -/
def dispatcher (s : Intake) : Dispatcher := ⟨s.ledger.registry, s.consumer⟩

/-- What an event makes of a dispatcher at work. -/
def step (s : Intake) : NodeEvent → Intake
  | .packet p =>
    let d := s.dispatcher.handle p
    ⟨s.ledger.record d.registry, d.consumer⟩
  | .consumerLeft => { s with consumer := none }
  | .registry op => { s with ledger := s.ledger.step op }

/-- What events one after the other make of a dispatcher at work. -/
def run (s : Intake) (events : List NodeEvent) : Intake := events.foldl step s

/-- Where nothing but packets happens, the dispatcher runs over the packets. -/
theorem dispatcher_run_packets (s : Intake) (packets : List Packet) :
    (s.run (packets.map .packet)).dispatcher = s.dispatcher.run packets := by
  induction packets generalizing s with
  | nil => rfl
  | cons p packets ih =>
    have hstep : (s.step (.packet p)).dispatcher = s.dispatcher.handle p := rfl
    rw [Dispatcher.run, List.foldl_cons, ← hstep]
    exact ih (s.step (.packet p))

/-- Nor does a packet give anything to the owner of a registration. -/
theorem given_run_packets (s : Intake) (packets : List Packet) :
    (s.run (packets.map .packet)).ledger.given = s.ledger.given := by
  induction packets generalizing s with
  | nil => rfl
  | cons p packets ih => exact ih (s.step (.packet p))

/-- Of a packet, only a chunk reaches the registry. -/
theorem ledger_step (s : Intake) (e : NodeEvent) : (s.step e).ledger = s.ledger.run e.ops := by
  cases e with
  | packet p =>
    simp only [step, Dispatcher.handle, NodeEvent.ops]
    cases Message.ofPacket p with
    | error fault => exact s.ledger.record_registry
    | ok m =>
      cases m with
      | chunk c => rfl
      | text origin text => exact s.ledger.record_registry
      | sms origin body => exact s.ledger.record_registry
      | segment g => exact s.ledger.record_registry
  | consumerLeft => rfl
  | registry op => rfl

theorem ledger_run (s : Intake) (events : List NodeEvent) :
    (s.run events).ledger = s.ledger.run (events.flatMap NodeEvent.ops) := by
  induction events generalizing s with
  | nil => rfl
  | cons e events ih =>
    rw [List.flatMap_cons, Ledger.run_append, ← ledger_step]
    exact ih (s.step e)

end Intake

/-! ## Packets of a stream among others -/

/-- Events among which are the packets of some chunks, in order.  All other packets hold no chunk of
the stream of the registration, and meanwhile the registration is not given up.  Chunks reach the
registry through packets only. -/
inductive Interleaved (g : Registration) : List Chunk → List NodeEvent → Prop where
  | nil : Interleaved g [] []
  | chunk {c : Chunk} {cs : List Chunk} {p : Packet} {events : List NodeEvent}
      (hdata : p.data = .binary (Payload.encode (.chunk c))) :
      Interleaved g cs events → Interleaved g (c :: cs) (.packet p :: events)
  | foreign {cs : List Chunk} {p : Packet} {events : List NodeEvent}
      (hother : ∀ c, Message.ofPacket p = .ok (.chunk c) → c.streamId ≠ g.id) :
      Interleaved g cs events → Interleaved g cs (.packet p :: events)
  | consumerLeft {cs : List Chunk} {events : List NodeEvent} :
      Interleaved g cs events → Interleaved g cs (.consumerLeft :: events)
  | registry {cs : List Chunk} {op : RegistryOp} {events : List NodeEvent}
      (hdrop : op ≠ .drop g) (hdeliver : ∀ c, op ≠ .deliver c) :
      Interleaved g cs events → Interleaved g cs (.registry op :: events)

/-- A packet that holds a chunk is a message with that chunk. -/
theorem Message.ofPacket_of_chunk {p : Packet} {c : Chunk}
    (hdata : p.data = .binary (Payload.encode (.chunk c)))
    (hread : Payload.decode (Payload.encode (.chunk c)) = .ok (.chunk c)) :
    Message.ofPacket p = .ok (.chunk c) := by
  simp [ofPacket, hdata, hread]

namespace Interleaved

open RegistryOp

variable {g : Registration} {cs : List Chunk} {events : List NodeEvent}

/-- A packet that holds no chunk of the stream brings the registration nothing. -/
theorem ops_foreign {p : Packet}
    (hother : ∀ c, Message.ofPacket p = .ok (.chunk c) → c.streamId ≠ g.id) {op : RegistryOp}
    (hop : op ∈ (NodeEvent.packet p).ops) : op.chunkFor g = [] ∧ op.ends g = false := by
  simp only [NodeEvent.ops] at hop
  split at hop
  · rename_i c hc
    have hid := hother c hc
    rw [List.mem_singleton.1 hop]
    simp [chunkFor, ends, hid]
  · cases hop

/-- Neither does anything that is done with the registry meanwhile. -/
theorem op_registry {op : RegistryOp} (hdrop : op ≠ .drop g) (hdeliver : ∀ c, op ≠ .deliver c) :
    op.chunkFor g = [] ∧ op.ends g = false := by
  cases op with
  | register id => exact ⟨rfl, rfl⟩
  | deliver c => exact absurd rfl (hdeliver c)
  | drop g' =>
    have hne : ¬ g' = g := fun heq => hdrop (by rw [heq])
    simp [chunkFor, ends, hne]
  | receive g' => exact ⟨rfl, rfl⟩

/-- The packet of a chunk brings the registration the chunk. -/
theorem ops_chunk {p : Packet} {c : Chunk} (hdata : p.data = .binary (Payload.encode (.chunk c)))
    (hread : Payload.decode (Payload.encode (.chunk c)) = .ok (.chunk c)) :
    (NodeEvent.packet p).ops = [.deliver c] := by
  simp [NodeEvent.ops, Message.ofPacket_of_chunk hdata hread]

/-- Operations that bring a registration nothing and leave its claim alone can be left out. -/
theorem chunksFor_append_of_foreign {ops ops' : List RegistryOp}
    (h : ∀ op ∈ ops, op.chunkFor g = [] ∧ op.ends g = false) :
    chunksFor g (ops ++ ops') = chunksFor g ops' := by
  induction ops with
  | nil => rfl
  | cons op ops ih =>
    obtain ⟨hop, hops⟩ := List.forall_mem_cons.1 h
    simp [chunksFor, hop, ih hops]

/-- A registration is brought the chunks that the packets hold, as long as none of them but the last
ends the stream. -/
theorem chunksFor_ops (h : Interleaved g cs events)
    (hread : ∀ c ∈ cs, c.streamId = g.id ∧
      Payload.decode (Payload.encode (.chunk c)) = .ok (.chunk c))
    (hopen : ∀ c ∈ cs.dropLast, c.isClose = false) :
    chunksFor g (events.flatMap NodeEvent.ops) = cs := by
  induction h with
  | nil => rfl
  | @chunk c cs p events hdata _ ih =>
    obtain ⟨⟨hid, hc⟩, hcs⟩ := List.forall_mem_cons.1 hread
    rw [List.flatMap_cons, ops_chunk hdata hc]
    -- the last chunk may end the claim, but then no chunk of the stream is left
    cases cs with
    | nil =>
      have hnone := ih hcs (fun _ hmem => by cases hmem)
      simp [chunksFor, chunkFor, hid, hnone]
    | cons d cs =>
      rw [List.dropLast_cons_cons, List.forall_mem_cons] at hopen
      have hrest := ih hcs hopen.2
      simp [chunksFor, chunkFor, ends, hid, hopen.1, hrest]
  | foreign hother _ ih =>
    rw [List.flatMap_cons, chunksFor_append_of_foreign fun op hop => ops_foreign hother hop]
    exact ih hread hopen
  | consumerLeft _ ih => exact ih hread hopen
  | @registry cs op events hdrop hdeliver _ ih =>
    have hforeign : ∀ op' ∈ [op], op'.chunkFor g = [] ∧ op'.ends g = false := by
      intro op' hop'
      rw [List.mem_singleton.1 hop']
      exact op_registry hdrop hdeliver
    rw [List.flatMap_cons]
    exact (chunksFor_append_of_foreign hforeign).trans (ih hread hopen)

/-- The claim of the registration is ended by a chunk that ends the stream, if there is one. -/
theorem ends_ops_iff (h : Interleaved g cs events)
    (hread : ∀ c ∈ cs, c.streamId = g.id ∧
      Payload.decode (Payload.encode (.chunk c)) = .ok (.chunk c)) :
    (∀ op ∈ events.flatMap NodeEvent.ops, op.ends g = false) ↔ ∀ c ∈ cs, c.isClose = false := by
  induction h with
  | nil => simp
  | chunk hdata _ ih =>
    obtain ⟨⟨hid, hc⟩, hcs⟩ := List.forall_mem_cons.1 hread
    rw [List.flatMap_cons, ops_chunk hdata hc, List.singleton_append, List.forall_mem_cons,
      List.forall_mem_cons, ih hcs]
    simp [ends, hid]
  | foreign hother _ ih =>
    rw [List.flatMap_cons, List.forall_mem_append, ih hread]
    exact ⟨And.right, fun hcs => ⟨fun op hop => (ops_foreign hother hop).2, hcs⟩⟩
  | consumerLeft _ ih => exact ih hread
  | registry hdrop hdeliver _ ih =>
    rw [List.flatMap_cons, List.forall_mem_append, ih hread]
    refine ⟨And.right, fun hcs => ⟨fun op hop => ?_, hcs⟩⟩
    rw [List.mem_singleton.1 hop]
    exact (op_registry hdrop hdeliver).2

/-- The registration is not given up. -/
theorem drop_notMem_ops (h : Interleaved g cs events) :
    RegistryOp.drop g ∉ events.flatMap NodeEvent.ops := by
  have hpacket : ∀ p, RegistryOp.drop g ∉ (NodeEvent.packet p).ops := by
    intro p hmem
    simp only [NodeEvent.ops] at hmem
    split at hmem
    · cases List.mem_singleton.1 hmem
    · cases hmem
  induction h with
  | nil => exact List.not_mem_nil
  | chunk _ _ ih =>
    rw [List.flatMap_cons, List.mem_append]
    exact not_or.2 ⟨hpacket _, ih⟩
  | foreign _ _ ih =>
    rw [List.flatMap_cons, List.mem_append]
    exact not_or.2 ⟨hpacket _, ih⟩
  | consumerLeft _ ih => exact ih
  | registry hdrop _ _ ih =>
    rw [List.flatMap_cons, List.mem_append]
    exact not_or.2 ⟨fun hmem => hdrop (List.mem_singleton.1 hmem).symm, ih⟩

end Interleaved

/-! ## Messages of a stream -/

/-- A message sent in a stream: where the stream leads, if the message says so, and the size of the
packets that it is cut for. -/
structure Outgoing where
  destination : Option Destination
  octets : Bytes
  packetBytes : UInt64
  deriving DecidableEq, Repr, Inhabited

namespace Outgoing

/-- Whether a message is cut into the given chunks. -/
def CutInto (id : StreamId) (m : Outgoing) (cs : List Chunk) : Prop :=
  Chunk.segments id m.destination m.octets m.packetBytes.toNat = .ok cs

/-- What a peer sends in a stream: the chunks of messages, and whether it ends the stream then. -/
def sent (id : StreamId) (chunks : Outgoing → List Chunk) (messages : List Outgoing)
    (closes : Bool) : List Chunk :=
  messages.flatMap chunks ++ if closes then [.close id] else []

/-- What the peer should receive of it. -/
def events (messages : List Outgoing) (closes : Bool) : List StreamEvent :=
  messages.map (fun m => .data m.octets) ++ if closes then [.closed] else []

variable {id : StreamId} {chunks : Outgoing → List Chunk} {messages : List Outgoing}

theorem readable_of_mem_sent (hcut : ∀ m ∈ messages, m.CutInto id (chunks m)) {closes : Bool}
    {c : Chunk} (hc : c ∈ sent id chunks messages closes) :
    c.streamId = id ∧ Payload.decode (Payload.encode (.chunk c)) = .ok (.chunk c) := by
  rcases List.mem_append.1 hc with hc | hc
  · obtain ⟨m, hm, hc⟩ := List.mem_flatMap.1 hc
    exact ⟨Chunk.streamId_of_mem_segments (hcut m hm) hc,
      Chunk.decode_encode_of_mem_segments (hcut m hm) hc⟩
  · split at hc
    · rw [List.mem_singleton.1 hc]
      exact ⟨rfl, Chunk.decode_encode_close id⟩
    · cases hc

/-- Only the last chunk can be the end of the stream, since no message is empty. -/
theorem not_isClose_of_mem_chunks (hcut : ∀ m ∈ messages, m.CutInto id (chunks m))
    (hne : ∀ m ∈ messages, m.octets ≠ []) {c : Chunk} (hc : c ∈ messages.flatMap chunks) :
    c.isClose = false := by
  obtain ⟨m, hm, hc⟩ := List.mem_flatMap.1 hc
  exact Chunk.not_isClose_of_mem_segments (hcut m hm) (hne m hm) hc

/-- A reassembler announces the messages, and the end of the stream if it was sent. -/
theorem announced_sent (hcut : ∀ m ∈ messages, m.CutInto id (chunks m))
    (hne : ∀ m ∈ messages, m.octets ≠ []) (closes : Bool) :
    Reassembler.announced [] (sent id chunks messages closes) = events messages closes := by
  induction messages with
  | nil => cases closes <;> rfl
  | cons m messages ih =>
    obtain ⟨hm, hmessages⟩ := List.forall_mem_cons.1 hcut
    obtain ⟨hm', hmessages'⟩ := List.forall_mem_cons.1 hne
    have hjoin := Chunk.joinAll_segments hm hm' []
    have hsplit : sent id chunks (m :: messages) closes =
        chunks m ++ sent id chunks messages closes := by
      simp [sent]
    have hpending : ∀ n, (List.replicate n Joined.pending).filterMap Registry.eventOf = [] := by
      intro n
      rw [List.filterMap_replicate_of_none]
      rfl
    rw [hsplit, Reassembler.announced, Chunk.joinAll_append, hjoin, List.filterMap_append,
      List.filterMap_append, hpending]
    exact congrArg (StreamEvent.data m.octets :: ·) (ih hmessages hmessages')

/-- What comes before the end of the stream and with it is everything. -/
theorem eq_events_of_closed {closes : Bool} {es : List StreamEvent}
    (hes : es <+: events messages closes) (hclosed : StreamEvent.closed ∈ es) :
    closes = true ∧ es = events messages closes := by
  have hdata : StreamEvent.closed ∉ messages.map (fun m => StreamEvent.data m.octets) := by
    intro hmem
    obtain ⟨m, -, hm⟩ := List.mem_map.1 hmem
    cases hm
  cases closes with
  | false =>
    rw [events, if_neg Bool.false_ne_true, List.append_nil] at hes
    exact absurd (hes.subset hclosed) hdata
  | true =>
    rw [events, if_pos rfl, List.prefix_concat_iff] at hes
    rcases hes with heq | hes
    · exact ⟨rfl, heq⟩
    · exact absurd (hes.subset hclosed) hdata

end Outgoing

namespace Intake

open RegistryOp

/-- The state of affairs after packets among which a peer's chunks are. -/
theorem ledger_run_interleaved {l : Ledger} (hs : l.Sound) {id : StreamId} {g : Registration}
    {r : Registry} (hreg : l.registry.register? id = some (g, r)) {chunks : Outgoing → List Chunk}
    {messages : List Outgoing} {closes : Bool} (hcut : ∀ m ∈ messages, m.CutInto id (chunks m))
    (hne : ∀ m ∈ messages, m.octets ≠ []) {events : List NodeEvent}
    (h : Interleaved g (Outgoing.sent id chunks messages closes) events) :
    let l' := l.run (.register id :: events.flatMap NodeEvent.ops)
    g ∈ l'.owned ∧ l'.queued g = Outgoing.events messages closes ∧
      (l'.Claims g ↔ closes = false) := by
  intro l'
  have hid : g.id = id := by
    obtain ⟨-, rfl, -⟩ := Registry.register?_eq_some hreg
    rfl
  have hread : ∀ c ∈ Outgoing.sent id chunks messages closes, c.streamId = g.id ∧
      Payload.decode (Payload.encode (.chunk c)) = .ok (.chunk c) :=
    fun c hc => hid ▸ Outgoing.readable_of_mem_sent hcut hc
  have hopen := fun c hc => Outgoing.not_isClose_of_mem_chunks (c := c) hcut hne hc
  have hlast : ∀ c ∈ (Outgoing.sent id chunks messages closes).dropLast, c.isClose = false := by
    intro c hc
    cases closes with
    | false =>
      rw [Outgoing.sent, if_neg Bool.false_ne_true, List.append_nil] at hc
      exact hopen c (List.dropLast_subset _ hc)
    | true =>
      rw [Outgoing.sent, if_pos rfl, List.dropLast_concat] at hc
      exact hopen c hc
  refine ⟨Ledger.owned_of_register hreg h.drop_notMem_ops, ?_, ?_⟩
  · rw [(Ledger.follows_of_register hs hreg _).queued_eq, h.chunksFor_ops hread hlast]
    exact Outgoing.announced_sent hcut hne closes
  · rw [Ledger.claims_of_register hs hreg, h.ends_ops_iff hread, Outgoing.sent,
      List.forall_mem_append]
    cases closes with
    | false => exact ⟨fun _ => rfl, fun _ => ⟨hopen, fun c hc => by cases hc⟩⟩
    | true =>
      refine ⟨fun hall => ?_, fun hcloses => by cases hcloses⟩
      have hclose := hall.2 (.close id) (List.mem_singleton.2 rfl)
      cases hclose

/-- A stream is claimed in a registry that was used in any way, and the registration is not given
up.  A peer cuts messages that are not empty for packets of any size, and may end the stream then.
Among whatever else the dispatcher reads, and whatever becomes of the consumer, the registration is
given the messages, in order and nothing else, and the end of the stream after them if it was sent.
Only then is its owner told, and it is told for sure, that no more events come.  Where
nothing but packets happens, a plain run of the dispatcher over them leaves all that in the queue of
the registration. -/
theorem receives_messages (earlier : List RegistryOp) (consumer : Option (List Message))
    (id : StreamId) (g : Registration) (r : Registry)
    (hreg : (Ledger.new.run earlier).registry.register? id = some (g, r))
    (chunks : Outgoing → List Chunk) (messages : List Outgoing) (closes : Bool)
    (hcut : ∀ m ∈ messages, m.CutInto id (chunks m)) (hne : ∀ m ∈ messages, m.octets ≠ [])
    (events : List NodeEvent)
    (h : Interleaved g (Outgoing.sent id chunks messages closes) events) :
    let expected := Outgoing.events messages closes
    let l := (run ⟨Ledger.new.run (earlier ++ [.register id]), consumer⟩ events).ledger
    (l.given g).filterMap Received.event? ++ l.registry.inbox g = expected ∧
      (∀ before after, l.given g = before ++ .ended :: after →
        closes = true ∧ before.filterMap Received.event? = expected) ∧
      (∀ k, (l.registry.inbox g).length ≤ k →
        let l := l.run (List.replicate k (.receive g))
        (l.given g).filterMap Received.event? = expected ∧
          (l.registry.receive g).1 = if closes then .ended else .pending) ∧
      ∀ packets, events = packets.map .packet →
        (Dispatcher.run ⟨r, consumer⟩ packets).registry.inbox g = expected := by
  intro expected l
  have hs := Ledger.sound_run Ledger.sound_new earlier
  have hl : l = (Ledger.new.run earlier).run (.register id :: events.flatMap NodeEvent.ops) := by
    rw [Ledger.run_cons]
    exact (ledger_run _ events).trans (by rw [Ledger.run_append]; rfl)
  obtain ⟨howned, hqueued, hclaims⟩ := ledger_run_interleaved hs hreg hcut hne h
  have hserved := Ledger.served_of_register hs hreg (events.flatMap NodeEvent.ops)
  have hsound := Ledger.sound_run hs (.register id :: events.flatMap NodeEvent.ops)
  rw [← hl] at howned hqueued hclaims hserved hsound
  have hall := (hserved.given_append howned).trans hqueued
  refine ⟨hall, ?_, ?_, ?_⟩
  · intro before after hgiven
    have hclosed := hserved.closed_of_ended before after hgiven
    have hprefix := hserved.given_prefix
    rw [hgiven, List.filterMap_append, hqueued] at hprefix
    exact Outgoing.eq_events_of_closed ((List.prefix_append _ _).trans hprefix)
      (List.mem_filterMap.2 ⟨_, hclosed, rfl⟩)
  · intro k hk
    obtain ⟨hgiven, hnext⟩ := Ledger.given_receives hsound hserved howned hk
    refine ⟨hgiven.trans hqueued, ?_⟩
    rw [hnext]
    cases closes with
    | false => exact if_pos (hclaims.2 rfl)
    | true => exact if_neg fun hg => Bool.noConfusion (hclaims.1 hg)
  · rintro packets rfl
    have hclaimed : Ledger.new.run (earlier ++ [.register id]) =
        (Ledger.new.run earlier).step (.register id) := Ledger.run_append ..
    -- nobody has asked for an event yet
    have hnothing : l.given g = [] := by
      rw [given_run_packets, hclaimed]
      exact Ledger.given_register hs hreg
    have hstart : dispatcher ⟨Ledger.new.run (earlier ++ [.register id]), consumer⟩ =
        ⟨r, consumer⟩ := by
      rw [hclaimed]
      simp [dispatcher, Ledger.step, hreg]
    rw [hnothing, List.filterMap_nil, List.nil_append] at hall
    rw [← hstart, ← dispatcher_run_packets]
    exact hall

/-- A message in two chunks and the end of its stream, among a text, a chunk of another stream and a
packet that cannot be read; the consumer goes away in between, and the owner asks too early.  The
stream was closed in the middle of a message before. -/
theorem receives_message_among_others :
    let earlier : List RegistryOp := [.register default, .deliver ⟨default, none, 0, 2, [1]⟩,
      .deliver (.close default)]
    let g : Registration := ⟨default, 2⟩
    let c₀ : Chunk := ⟨default, some ⟨"a", 80⟩, 0, 2, List.replicate 12 7⟩
    let c₁ : Chunk := ⟨default, none, 1, 2, List.replicate 8 7⟩
    let other : Chunk := ⟨⟨List.replicate 8 1, rfl⟩, none, 0, 1, [9]⟩
    let packet (data : Data) : NodeEvent := .packet ⟨1, 2, 0, data⟩
    let events := [packet (.text "hello"), packet (.binary (Payload.encode (.chunk c₀))),
      packet (.binary (Payload.encode (.chunk other))), .consumerLeft, .registry (.receive g),
      packet (.binary (Payload.encode (.chunk c₁))), packet (.binary [255]),
      packet (.binary (Payload.encode (.chunk (.close default)))), packet (.text "bye")]
    let l := (run ⟨Ledger.new.run (earlier ++ [.register default]), some []⟩ events).ledger
    ((l.run (List.replicate 2 (.receive g))).given g).filterMap Received.event? =
        [.data (List.replicate 20 7), .closed] ∧
      ((l.run (List.replicate 2 (.receive g))).registry.receive g).1 = .ended := by
  intro earlier g c₀ c₁ other packet events l
  let m : Outgoing := ⟨some ⟨"a", 80⟩, List.replicate 20 7, 40⟩
  have hsegments : Chunk.segments default m.destination m.octets m.packetBytes.toNat =
      .ok [c₀, c₁] := by
    dsimp only [m, c₀, c₁]
    rfl
  have hcut : ∀ m' ∈ [m], m'.CutInto default [c₀, c₁] := by
    intro m' hm'
    rw [List.mem_singleton.1 hm']
    exact hsegments
  have hne : ∀ m' ∈ [m], m'.octets ≠ [] := by
    intro m' hm'
    rw [List.mem_singleton.1 hm']
    exact List.cons_ne_nil _ _
  have hother : ∀ c, Message.ofPacket ⟨1, 2, 0, .binary (Payload.encode (.chunk other))⟩ =
      .ok (.chunk c) → c.streamId ≠ default := by
    intro c hc
    have hformed : other.WellFormed := ⟨fun hd => absurd rfl hd, fun _ => by decide⟩
    have hsized : other.Sized := ⟨by decide, fun d hd => by cases hd⟩
    have hread := Payload.decode_encode_chunk hformed hsized
    cases (Message.ofPacket_of_chunk rfl hread).symm.trans hc
    decide
  have h : Interleaved g (Outgoing.sent default (fun _ => [c₀, c₁]) [m] true) events :=
    .foreign (fun _ hc => by cases hc) (.chunk rfl (.foreign hother (.consumerLeft
      (.registry (fun he => by cases he) (fun _ he => by cases he) (.chunk rfl
        (.foreign (fun _ hc => by cases hc) (.chunk rfl (.foreign (fun _ hc => by cases hc)
          .nil))))))))
  obtain ⟨hall, -, hdrained, -⟩ := receives_messages earlier (some []) default g _ rfl
    (fun _ => [c₀, c₁]) [m] true hcut hne events h
  have hlength : (l.registry.inbox g).length ≤ 2 := by
    have hlen := congrArg List.length hall
    rw [List.length_append] at hlen
    exact Nat.le.intro ((Nat.add_comm _ _).trans hlen)
  dsimp only [l]
  exact hdrained 2 hlength

end Intake

end Meshway
