import Meshway.Node
import Meshway.Proofs.Bytes.Hex
import Meshway.Proofs.Transaction.Transfer
set_option autoImplicit false

/-!
# A transaction is sent whole or not at all (SPEC §10.3 items 8 and 13)

Whatever is wrong with a transaction is found before the first packet: its text
is read and cut first, and every segment has a written form, so nothing can stop
the sending half way.  Main statement: either nothing is handed to the radio, or
all segments are, in order and however they fare, and what the gateway reads
from them is the transaction.
-/

namespace Meshway

/-! ## A transport with a log -/

namespace Transport

variable {σ : Type}

/-- A transport that also keeps what it was given and what it reported, in order. -/
def logged (t : Transport σ) : Transport (σ × List (Outbound × Receipt)) where
  send := fun (s, log) p => ((t.send s p).1, (t.send s p).2, log ++ [(p, (t.send s p).1)])

/-- Every packet gets a receipt. -/
theorem length_sendAll (t : Transport σ) (s : σ) (ps : List Outbound) :
    (t.sendAll s ps).1.length = ps.length := by
  induction ps generalizing s with
  | nil => rfl
  | cons p ps ih => simp [sendAll, ih]

/-- A log changes nothing else, and it grows by the packets with their receipts. -/
theorem sendAll_logged (t : Transport σ) (s : σ) (log : List (Outbound × Receipt))
    (ps : List Outbound) :
    t.logged.sendAll (s, log) ps =
      ((t.sendAll s ps).1, (t.sendAll s ps).2, log ++ ps.zip (t.sendAll s ps).1) := by
  induction ps generalizing s log with
  | nil => simp [sendAll]
  | cons p ps ih =>
    have hsend : t.logged.send (s, log) p =
        ((t.send s p).1, (t.send s p).2, log ++ [(p, (t.send s p).1)]) := rfl
    simp only [sendAll, hsend, ih, List.zip_cons_cons, List.append_assoc, List.singleton_append]

end Transport

/-! ## Receipts -/

namespace Broadcast

variable {b : Broadcast}

theorem mem_failures {i : UInt8} {e : SendFault} :
    (i, e) ∈ b.failures ↔ (i, .error e) ∈ b.receipts := by
  simp only [failures, List.mem_filterMap]
  constructor
  · rintro ⟨⟨i', receipt⟩, hmem, heq⟩
    cases receipt with
    | ok => cases heq
    | error e' =>
      cases heq
      exact hmem
  · intro hmem
    exact ⟨_, hmem, rfl⟩

/-- When receipts are numbered in order, the receipt of a number stands in its place. -/
theorem mem_receipts (h : b.receipts.map (·.1.toNat) = List.range b.receipts.length) {i : UInt8}
    {receipt : Receipt} :
    (i, receipt) ∈ b.receipts ↔ (b.receipts.map (·.2))[i.toNat]? = some receipt := by
  have hplace : ∀ (k : Nat) (entry : UInt8 × Receipt),
      b.receipts[k]? = some entry → entry.1.toNat = k := by
    intro k entry hk
    have hnumber : (b.receipts.map (·.1.toNat))[k]? = some entry.1.toNat := by
      rw [List.getElem?_map, hk]
      rfl
    have hlt : k < b.receipts.length := (List.getElem?_eq_some_iff.1 hk).1
    rw [h, List.getElem?_range hlt] at hnumber
    exact (Option.some.inj hnumber).symm
  rw [List.getElem?_map, Option.map_eq_some_iff]
  constructor
  · intro hmem
    obtain ⟨k, hk⟩ := List.mem_iff_getElem?.1 hmem
    obtain rfl : i.toNat = k := hplace k _ hk
    exact ⟨_, hk, rfl⟩
  · rintro ⟨⟨i', receipt'⟩, hget, rfl⟩
    obtain rfl : i' = i := UInt8.toNat_inj.1 (hplace _ _ hget)
    exact List.mem_of_getElem? hget

/-- When receipts are numbered in order, so are the failures. -/
theorem pairwise_failures (h : b.receipts.map (·.1.toNat) = List.range b.receipts.length) :
    b.failures.Pairwise fun x y => x.1 < y.1 := by
  have hnumbers : (b.receipts.map (·.1.toNat)).Pairwise (· < ·) := h ▸ List.pairwise_lt_range
  have hreceipts : b.receipts.Pairwise fun x y => x.1.toNat < y.1.toNat :=
    List.pairwise_map.1 hnumbers
  refine List.pairwise_filterMap.2 (hreceipts.imp ?_)
  rintro ⟨i, e | _⟩ ⟨j, e' | _⟩ hlt x hx y hy
  · cases hx
    cases hy
    exact UInt8.lt_iff_toNat_lt.2 hlt
  · cases hy
  · cases hx
  · cases hx

end Broadcast

/-! ## Sending -/

namespace Node

variable {σ : Type}

/-- The packets that take segments to the gateway. -/
def packets (n : Node) (gs : List TxSegment) : List Outbound :=
  gs.map fun g => n.packet n.config.gatewayGid (.segment g)

/-- Hands segments to the radio one after the other, each written when its turn comes, and stops at
one that has no written form. -/
def submitInTurn (n : Node) (t : Transport σ) :
    σ → List TxSegment → Option (List (UInt8 × Receipt)) × σ
  | s, [] => (some [], s)
  | s, g :: gs =>
    match (Payload.segment g).toEnvelope.encode? with
    | none => (none, s)
    | some bs =>
      let (receipt, s) := t.send s (n.outbound n.config.gatewayGid (.binary bs))
      let (receipts, s) := n.submitInTurn t s gs
      (receipts.map ((g.index, receipt) :: ·), s)

/-- Every segment has a written form, so it makes no difference when they are written. -/
theorem submitInTurn_eq (n : Node) (t : Transport σ) (s : σ) (gs : List TxSegment) :
    n.submitInTurn t s gs =
      (some ((gs.map (·.index)).zip (t.sendAll s (n.packets gs)).1),
        (t.sendAll s (n.packets gs)).2) := by
  induction gs generalizing s with
  | nil => rfl
  | cons g gs ih =>
    simp only [submitInTurn, Payload.encode?_toEnvelope, ih]
    rfl

/-- The segments of a transaction that is accepted are those of the octets that its text spells. -/
theorem transaction_eq_ok {n : Node} {hex : String} {network : Network} {txId : TxId}
    {segments : List TxSegment} (h : n.transaction hex network = .ok (txId, segments)) :
    ∃ raw, (Text.trim hex).toLower = Hex.encode raw ∧ txId = n.txId raw ∧
      TxSegment.segments (n.txId raw) network raw n.config.txPacketBytes.toNat = .ok segments := by
  unfold transaction at h
  split at h
  · cases h
  · rename_i raw hraw
    split at h
    · cases h
    · rename_i gs hgs
      cases h
      exact ⟨raw, Hex.toLower_of_decode hraw, rfl, hgs⟩

end Node

/-- What it means that a transaction went out: its segments, numbered from zero, were handed to the
radio one after the other on their way to the gateway, which reads them and joins them to the
transaction, whatever it was in the middle of and whatever arrives of other transactions. -/
structure Broadcast.Carries (b : Broadcast) (n : Node) (network : Network) (raw : Bytes)
    (segments : List TxSegment) (handed : List (Outbound × Receipt)) : Prop where
  txId_eq : b.txId = n.txId raw
  numbered : b.receipts.map (·.1.toNat) = List.range handed.length
  receipts_eq : b.receipts.map (·.2) = handed.map (·.2)
  index_eq : segments.map (·.index) = b.receipts.map (·.1)
  read : ∃ written : List Bytes,
    handed.map (·.1) = written.map (fun bs => n.outbound n.config.gatewayGid (.binary bs)) ∧
      written.map Payload.decode = segments.map fun g => .ok (.segment g)
  shortId_eq : ∀ g ∈ segments, g.shortId = (n.txId raw).short
  joined : ∀ (r : TxReassembler) (arrivals : List TxSegment),
    arrivals.filter (fun g => g.shortId = (n.txId raw).short) = segments →
      TxReassembler.outcomesOf (n.txId raw).short r arrivals =
        List.replicate (handed.length - 1) .pending ++ [.complete (n.txId raw) network raw]

namespace Broadcast.Carries

variable {b : Broadcast} {n : Node} {network : Network} {raw : Bytes} {segments : List TxSegment}
  {handed : List (Outbound × Receipt)}

theorem numbered_receipts (h : b.Carries n network raw segments handed) :
    b.receipts.map (·.1.toNat) = List.range b.receipts.length := by
  have hlen := congrArg List.length h.receipts_eq
  rw [List.length_map, List.length_map] at hlen
  rw [hlen]
  exact h.numbered

/-- The failures are the numbers of the packets that were not sent, each with its cause. -/
theorem mem_failures_iff (h : b.Carries n network raw segments handed) (i : UInt8) (e : SendFault) :
    (i, e) ∈ b.failures ↔ (handed.map (·.2))[i.toNat]? = some (.error e) := by
  rw [Broadcast.mem_failures, Broadcast.mem_receipts h.numbered_receipts, h.receipts_eq]

end Broadcast.Carries

namespace Node

variable {σ : Type}

/-- The segments of a transaction, handed over with whatever receipts, carry it. -/
theorem carries_of_segments {n : Node} {network : Network} {raw : Bytes}
    {segments : List TxSegment} {receipts : List Receipt}
    (h : TxSegment.segments (n.txId raw) network raw n.config.txPacketBytes.toNat = .ok segments)
    (hlen : receipts.length = segments.length) :
    Broadcast.Carries ⟨n.txId raw, (segments.map (·.index)).zip receipts⟩ n network raw segments
      ((n.packets segments).zip receipts) := by
  have hpackets : (n.packets segments).length = segments.length := List.length_map _
  have hhanded : ((n.packets segments).zip receipts).length = segments.length := by
    simp [hlen, hpackets]
  have hfst : ((segments.map (·.index)).zip receipts).map (·.1) = segments.map (·.index) :=
    List.map_fst_zip (by simp [hlen])
  have hsnd : ((segments.map (·.index)).zip receipts).map (·.2) = receipts :=
    List.map_snd_zip (by simp [hlen])
  refine ⟨rfl, ?_, ?_, hfst.symm, ?_, fun g => TxSegment.shortId_of_mem_segments h, ?_⟩
  · have hnumbers := congrArg (List.map UInt8.toNat) hfst
    rw [List.map_map, List.map_map] at hnumbers
    rw [hhanded]
    exact hnumbers.trans (TxSegment.index_segments h)
  · rw [hsnd, List.map_snd_zip (by simp [hlen, hpackets])]
  · refine ⟨segments.map fun g => Payload.encode (.segment g), ?_, ?_⟩
    · rw [List.map_fst_zip (by simp [hlen, hpackets]), List.map_map]
      rfl
    · rw [List.map_map]
      exact List.map_congr_left fun g hg => TxSegment.decode_encode_of_mem_segments h hg
  · intro r arrivals harrivals
    rw [TxReassembler.outcomesOf_eq, harrivals, TxSegment.joinAll_segments h, hhanded]

/-- An accepted transaction is handed over segment by segment, and the log holds the packets with
their receipts. -/
theorem broadcast_of_transaction {n : Node} {hex : String} {network : Network} {txId : TxId}
    {segments : List TxSegment} (h : n.transaction hex network = .ok (txId, segments))
    (t : Transport σ) (s : σ) :
    let sent := t.sendAll s (n.packets segments)
    let b : Broadcast := ⟨txId, (segments.map (·.index)).zip sent.1⟩
    let log := (n.packets segments).zip sent.1
    n.broadcast t s hex network = (.ok b, sent.2) ∧
      n.broadcast t.logged (s, []) hex network = (.ok b, sent.2, log) ∧
      n.submitInTurn t.logged (s, []) segments = (some b.receipts, sent.2, log) := by
  intro sent b log
  have hlogged : t.logged.sendAll (s, []) (n.packets segments) = (sent.1, sent.2, log) :=
    t.sendAll_logged s [] (n.packets segments)
  have hrun : ∀ {τ : Type} (t : Transport τ) (s : τ), n.broadcast t s hex network =
      (.ok ⟨txId, (segments.map (·.index)).zip (t.sendAll s (n.packets segments)).1⟩,
        (t.sendAll s (n.packets segments)).2) := by
    intro τ t s
    simp only [broadcast, h]
    rfl
  refine ⟨hrun t s, ?_, ?_⟩
  · rw [hrun, hlogged]
  · rw [submitInTurn_eq, hlogged]

/-- A transaction that is refused leaves the radio alone: nothing is handed to it.  Of one that is
accepted every segment is handed over, in order and however the ones before fared, also when each
is written only when its turn comes; the gateway joins what it reads to the transaction; and the
failures are the numbers of the packets that were not sent, in order, each with its cause. -/
theorem broadcast_whole_or_nothing (n : Node) (t : Transport σ) (s : σ) (hex : String)
    (network : Network) :
    let run := n.broadcast t.logged (s, []) hex network
    n.broadcast t s hex network = (run.1, run.2.1) ∧
      (∀ e, run.1 = .error e → run.2 = (s, [])) ∧
      ∀ b, run.1 = .ok b → ∃ raw segments,
        raw ≠ [] ∧ (Text.trim hex).toLower = Hex.encode raw ∧
          b.Carries n network raw segments run.2.2 ∧
          n.submitInTurn t.logged (s, []) segments = (some b.receipts, run.2) ∧
          b.failures.Pairwise (fun x y => x.1 < y.1) ∧
          ∀ i e, (i, e) ∈ b.failures ↔ (run.2.2.map (·.2))[i.toNat]? = some (.error e) := by
  intro run
  cases htx : n.transaction hex network with
  | error e =>
    have hrun : run = (.error e, s, []) := by simp only [run, broadcast, htx]
    have hplain : n.broadcast t s hex network = (.error e, s) := by simp only [broadcast, htx]
    rw [hrun, hplain]
    exact ⟨rfl, fun _ _ => rfl, fun b hb => by cases hb⟩
  | ok accepted =>
    obtain ⟨txId, segments⟩ := accepted
    obtain ⟨hplain, hrun, hturn⟩ := broadcast_of_transaction htx t s
    obtain ⟨raw, hhex, rfl, hsegments⟩ := transaction_eq_ok htx
    have hlen : (t.sendAll s (n.packets segments)).1.length = segments.length :=
      (t.length_sendAll s _).trans (List.length_map _)
    have hcarries := carries_of_segments hsegments hlen
    have hrun' : run = _ := hrun
    rw [hrun', hplain]
    refine ⟨rfl, fun e he => (by cases he), fun b hb => ?_⟩
    cases hb
    exact ⟨raw, segments, TxSegment.raw_ne_nil_of_segments hsegments, hhex, hcarries, hturn,
      Broadcast.pairwise_failures hcarries.numbered_receipts, hcarries.mem_failures_iff⟩

/-- Five octets after a blank go out in two packets, the second of which the radio drops; a text of
odd length does not go out. -/
theorem broadcast_whole_of_two_segments :
    let n : Node := ⟨{ MeshConfig.default with txPacketBytes := 64 }, 7, fun _ => default⟩
    let radio : LoggedRadio := ⟨[fun _ => .ok (), fun _ => .error .dropped], []⟩
    let b : Broadcast := ⟨default, [(0, .ok ()), (1, .error .dropped)]⟩
    (n.broadcast LoggedRadio.transport.logged (radio, []) "0a0b0" .testnet).2 = (radio, []) ∧
      (n.broadcast LoggedRadio.transport.logged (radio, []) "\n0A0b0c0D0e" .testnet).1 = .ok b ∧
      (1, .dropped) ∈ b.failures ∧
        ∃ raw segments, raw ≠ [] ∧ "0a0b0c0d0e" = Hex.encode raw ∧
          b.Carries n .testnet raw segments
            (n.broadcast LoggedRadio.transport.logged (radio, []) "\n0A0b0c0D0e" .testnet).2.2 := by
  intro n radio b
  have hodd : Hex.decode (Text.trim "0a0b0") = .error .oddLength := rfl
  have hrefused : (n.broadcast LoggedRadio.transport.logged (radio, []) "0a0b0" .testnet).1 =
      .error (.hex .oddLength) := by
    simp only [broadcast, transaction, hodd]
  have htrim : Text.trim "\n0A0b0c0D0e" = "0A0b0c0D0e" := by decide +kernel
  have hlower : "0A0b0c0D0e".toLower = "0a0b0c0d0e" := by decide +kernel
  have hdecode : Hex.decode "0A0b0c0D0e" = .ok [10, 11, 12, 13, 14] := rfl
  have hsegments : TxSegment.segments default .testnet [10, 11, 12, 13, 14] 64 =
      .ok [⟨default, 0, some ⟨default, 2, .testnet⟩, [10, 11, 12, 13]⟩,
        ⟨default, 1, none, [14]⟩] := rfl
  have hmax : n.config.txPacketBytes.toNat = 64 := rfl
  have htxId : n.txId [10, 11, 12, 13, 14] = default := rfl
  have hsent : (n.broadcast LoggedRadio.transport.logged (radio, []) "\n0A0b0c0D0e"
      .testnet).1 = .ok b := by
    simp only [broadcast, transaction, htrim, hdecode, hmax, htxId, hsegments,
      Transport.sendAll_logged]
    simp only [List.map_cons, List.map_nil, Transport.sendAll, LoggedRadio.transport, radio,
      List.zip_cons_cons, List.zip_nil_left, b]
  obtain ⟨-, hnone, -⟩ := broadcast_whole_or_nothing n LoggedRadio.transport radio "0a0b0" .testnet
  obtain ⟨-, -, hall⟩ :=
    broadcast_whole_or_nothing n LoggedRadio.transport radio "\n0A0b0c0D0e" .testnet
  obtain ⟨raw, segments, hne, hhex, hcarries, -⟩ := hall b hsent
  rw [htrim, hlower] at hhex
  exact ⟨hnone _ hrefused, hsent, List.mem_singleton.2 rfl, raw, segments, hne, hhex, hcarries⟩

end Node

end Meshway
