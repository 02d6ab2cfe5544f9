import Mathlib.Data.List.Induction
import Meshway.Proofs.Reassembly
set_option autoImplicit false

/-!
# What a reassembler remembers (SPEC §4.3)

A reassembler is called with chunks of all streams, in any order and with any
numbers, and is told now and then to forget a stream.  All that it keeps of
these calls is, for each stream, the chunks that are pending: those since the
message of the stream last ended or last began.  Main statement: what it holds
and what it answers is told by the pending chunks of the one stream alone, and
its short way with messages of one chunk is no different from the long way.
-/

namespace Meshway

namespace Reassembler

/-! ## Calls -/

/-- A call of a reassembler. -/
inductive Call where
  /-- takes a chunk in -/
  | chunk (c : Chunk)
  /-- drops what has arrived for a stream -/
  | forget (id : StreamId)
  deriving DecidableEq, Repr

namespace Call

/-- The stream that a call is about. -/
def streamId : Call → StreamId
  | .chunk c => c.streamId
  | .forget id => id

/-- Whether nothing of the message before a call's end is left: the stream is forgotten or closed,
or its message is complete. -/
def ends : Call → Bool
  | .chunk c => c.isClose || c.isLast
  | .forget _ => true

/-- Whether a call brings the first chunk of a message. -/
def begins : Call → Bool
  | .chunk c => c.index == 0
  | .forget _ => false

/-- Whether the chunks of a stream that are pending before a call are so after it. -/
def keeps (id : StreamId) (k : Call) : Bool := k.streamId ≠ id || !(k.ends || k.begins)

end Call

/-- The reassembler after a call. -/
def call (r : Reassembler) : Call → Reassembler
  | .chunk c => (r.accept c).2
  | .forget id => r.forget id

/-- A reassembler that was new before some calls. -/
def after (calls : List Call) : Reassembler := calls.foldl call empty

@[simp] theorem after_nil : after [] = empty := rfl

@[simp] theorem after_append (calls : List Call) (k : Call) :
    after (calls ++ [k]) = (after calls).call k := by
  simp [after]

/-! ## Pending chunks -/

/-- The chunks of a stream that are pending after some calls: those that did not end their message,
and after which no call about the stream ended it or began another. -/
def pending (id : StreamId) : List Call → List Chunk
  | [] => []
  | .forget _ :: later => pending id later
  | .chunk c :: later =>
    if c.streamId = id ∧ (Call.chunk c).ends = false ∧ later.all (·.keeps id) then
      c :: pending id later
    else pending id later

/-- The chunks of the message that a further chunk belongs to, up to that chunk: those pending and
itself, or itself alone if it is the first. -/
def pendingUpTo (calls : List Call) (c : Chunk) : List Chunk :=
  (if c.index = 0 then [] else pending c.streamId calls) ++ [c]

/-- A call about another stream leaves the pending chunks of a stream as they are. -/
theorem pending_append_of_ne (calls : List Call) {k : Call} {id : StreamId} (h : k.streamId ≠ id) :
    pending id (calls ++ [k]) = pending id calls := by
  have hkeeps : k.keeps id = true := by simp [Call.keeps, h]
  induction calls with
  | nil =>
    cases k with
    | chunk c => exact if_neg fun hc => h hc.1
    | forget id' => rfl
  | cons k' calls ih =>
    cases k' with
    | forget id' => exact ih
    | chunk c => simp [pending, ih, hkeeps]

/-- When the message of a stream ends, no chunk of it is pending. -/
theorem pending_append_of_ends (calls : List Call) {k : Call} (h : k.ends = true) :
    pending k.streamId (calls ++ [k]) = [] := by
  have hkeeps : k.keeps k.streamId = false := by simp [Call.keeps, h]
  induction calls with
  | nil =>
    cases k with
    | chunk c => simp [pending, h]
    | forget id => rfl
  | cons k' calls ih =>
    cases k' with
    | forget id => exact ih
    | chunk c => simp [pending, ih, hkeeps]

/-- Any other chunk of a stream is pending, with those before it unless it is the first. -/
theorem pending_append_chunk (calls : List Call) {c : Chunk} (h : (Call.chunk c).ends = false) :
    pending c.streamId (calls ++ [.chunk c]) = pendingUpTo calls c := by
  have hkeeps : (Call.chunk c).keeps c.streamId = !(c.index == 0) := by
    simp [Call.keeps, Call.streamId, h, Call.begins]
  unfold pendingUpTo
  induction calls with
  | nil => simp [pending, h]
  | cons k calls ih =>
    cases k with
    | forget id => exact ih
    | chunk c' =>
      by_cases hfirst : c.index = 0
      · simpa [pending, hkeeps, hfirst] using ih
      · rw [if_neg hfirst] at ih ⊢
        simp only [List.cons_append, pending, ih, List.all_append, List.all_cons, List.all_nil,
          hkeeps, beq_eq_false_iff_ne.2 hfirst, Bool.not_false, Bool.and_true]
        split <;> rfl

/-- Chunks are the last of some calls about one stream, since the latest point at which none was
pending: the start, a call that ended a message, or the first chunk of one. -/
def Since (own : List Call) (cs : List Chunk) : Prop :=
  ∃ earlier, own = earlier ++ cs.map .chunk ∧
    (∀ c ∈ cs, (Call.chunk c).ends = false) ∧ (∀ c ∈ cs.tail, c.index ≠ 0) ∧
    (earlier = [] ∨ (∃ k ∈ earlier.getLast?, k.ends = true) ∨ ∃ c ∈ cs.head?, c.index = 0)

/-- Nothing is pending after the end of a message. -/
theorem Since.of_ends (own : List Call) {k : Call} (h : k.ends = true) : Since (own ++ [k]) [] :=
  ⟨own ++ [k], by simp, by simp, by simp, .inr (.inl ⟨k, by simp, h⟩)⟩

/-- After the first chunk of a message, it alone is pending. -/
theorem Since.of_first (own : List Call) {c : Chunk} (h : (Call.chunk c).ends = false)
    (hfirst : c.index = 0) : Since (own ++ [.chunk c]) [c] :=
  ⟨own, by simp, by simp [h], by simp, .inr (.inr ⟨c, by simp, hfirst⟩)⟩

/-- Any other chunk is pending with those before it. -/
theorem Since.append {own : List Call} {cs : List Chunk} {c : Chunk} (hs : Since own cs)
    (h : (Call.chunk c).ends = false) (hfirst : c.index ≠ 0) :
    Since (own ++ [.chunk c]) (cs ++ [c]) := by
  obtain ⟨earlier, hown, hgoes, hafter, hpoint⟩ := hs
  refine ⟨earlier, by simp [hown], ?_, ?_, hpoint.imp_right (Or.imp_right ?_)⟩
  · simpa [or_imp, forall_and, h] using hgoes
  · cases cs with
    | nil => simp
    | cons c' cs => simpa [or_imp, forall_and, hfirst] using hafter
  · rintro ⟨c', hc', hzero⟩
    exact ⟨c', by simp [List.head?_append, Option.mem_def.1 hc'], hzero⟩

/-- The pending chunks of a stream are those since the latest point at which none was pending. -/
theorem since_pending (id : StreamId) (calls : List Call) :
    Since (calls.filter (·.streamId = id)) (pending id calls) := by
  induction calls using List.reverseRecOn with
  | nil => exact ⟨[], rfl, by simp [pending], by simp [pending], .inl rfl⟩
  | append_singleton calls k ih =>
    rw [List.filter_append]
    by_cases hid : k.streamId = id
    · subst hid
      rw [List.filter_cons_of_pos (by simp), List.filter_nil]
      by_cases hends : k.ends = true
      · rw [pending_append_of_ends calls hends]
        exact .of_ends _ hends
      · cases k with
        | forget id => exact absurd rfl hends
        | chunk c =>
          have hopen : (Call.chunk c).ends = false := Bool.eq_false_iff.2 hends
          change Since (_ ++ _) (pending c.streamId _)
          rw [pending_append_chunk calls hopen, pendingUpTo]
          by_cases hfirst : c.index = 0
          · rw [if_pos hfirst]
            exact .of_first _ hopen hfirst
          · rw [if_neg hfirst]
            exact ih.append hopen hfirst
    · rw [List.filter_cons_of_neg (by simpa using hid), List.filter_nil, List.append_nil,
        pending_append_of_ne calls hid]
      exact ih

/-- Calls about other streams do not count. -/
theorem pending_filter (id : StreamId) (calls : List Call) :
    pending id (calls.filter (·.streamId = id)) = pending id calls := by
  induction calls with
  | nil => rfl
  | cons k calls ih =>
    by_cases hid : k.streamId = id
    · rw [List.filter_cons_of_pos (by simpa using hid)]
      have hall : (calls.filter (·.streamId = id)).all (·.keeps id) = calls.all (·.keeps id) := by
        rw [List.all_filter]
        refine List.all_congr rfl fun k' => ?_
        by_cases hk' : k'.streamId = id <;> simp [Call.keeps, hk']
      cases k with
      | forget id' => exact ih
      | chunk c => simp only [pending, ih, hall]
    · rw [List.filter_cons_of_neg (by simpa using hid), ih]
      cases k with
      | forget id' => rfl
      | chunk c => exact (if_neg fun hc => hid hc.1).symm

/-! ## What is held and answered -/

/-- What is kept of a stream after a chunk of it. -/
theorem snd_join (held : Bytes) (c : Chunk) :
    (c.join held).2 = if (Call.chunk c).ends then []
      else (if c.index = 0 then [] else held) ++ c.payload := by
  unfold Chunk.join
  cases hclose : c.isClose <;> cases hlast : c.isLast <;> simp [Call.ends, hclose, hlast]

/-- What is held of a stream are the octets of its pending chunks. -/
theorem held_after (calls : List Call) (id : StreamId) :
    (after calls).held id = (pending id calls).flatMap (·.payload) := by
  induction calls using List.reverseRecOn with
  | nil => rfl
  | append_singleton calls k ih =>
    rw [after_append]
    by_cases hid : k.streamId = id
    · subst hid
      cases k with
      | forget id =>
        rw [pending_append_of_ends calls rfl]
        simp [call, Call.streamId, held_forget]
      | chunk c =>
        change (after calls).held c.streamId = (pending c.streamId calls).flatMap (·.payload) at ih
        change ((after calls).accept c).2.held c.streamId = _
        rw [held_accept, if_pos rfl, snd_join, ih]
        by_cases hends : (Call.chunk c).ends = true
        · rw [pending_append_of_ends calls hends, if_pos hends]
          rfl
        · rw [if_neg hends]
          have hpending := pending_append_chunk calls (Bool.eq_false_iff.2 hends)
          by_cases hfirst : c.index = 0 <;>
            simp [Call.streamId, hpending, pendingUpTo, hfirst]
    · rw [pending_append_of_ne calls hid, ← ih]
      cases k with
      | forget id' => simp [call, held_forget, show ¬ id = id' from Ne.symm hid]
      | chunk c => simp [call, held_accept, show ¬ id = c.streamId from Ne.symm hid]

/-- A chunk is answered by the chunks of its message up to it. -/
theorem accept_after (calls : List Call) (c : Chunk) :
    ((after calls).accept c).1 =
      if c.payload = [] then .closed
      else if c.count.toNat ≤ c.index.toNat + 1 then
        .complete ((pendingUpTo calls c).flatMap (·.payload))
      else .pending := by
  have hoctets : (pendingUpTo calls c).flatMap (·.payload) =
      (if c.index = 0 then [] else (pending c.streamId calls).flatMap (·.payload)) ++
        c.payload := by
    by_cases hfirst : c.index = 0 <;> simp [pendingUpTo, hfirst]
  rw [accept_fst, held_after, hoctets, Chunk.join]
  by_cases hempty : c.payload = []
  · simp [Chunk.isClose, hempty]
  · simp [Chunk.isClose, Chunk.isLast, hempty, apply_ite Prod.fst]

/-! ## The short way and the long way -/

/-- Takes a chunk in the long way, also if it is all of a message: its octets go behind those that
are kept before the message is taken out. -/
def acceptAtLength (r : Reassembler) (c : Chunk) : Joined × Reassembler :=
  if c.isClose then (.closed, r.forget c.streamId)
  else
    let before := if c.index = 0 then [] else r.held c.streamId
    let joined : Reassembler := ⟨r.partials.insert c.streamId (before ++ c.payload)⟩
    if c.isLast then (.complete (joined.held c.streamId), joined.forget c.streamId)
    else (.pending, joined)

/-- A message of one chunk comes to the same either way. -/
theorem accept_eq_acceptAtLength (r : Reassembler) (c : Chunk) :
    r.accept c = r.acceptAtLength c := by
  have hforget : ∀ message : Bytes,
      (Reassembler.mk (r.partials.insert c.streamId message)).forget c.streamId =
        r.forget c.streamId := by
    intro message
    simp [forget, Table.erase_insert_self]
  have hheld : ∀ message : Bytes,
      (Reassembler.mk (r.partials.insert c.streamId message)).held c.streamId = message := by
    intro message
    simp [held, Table.get?_insert]
  unfold accept acceptAtLength
  cases c.isClose with
  | true => rfl
  | false =>
    by_cases hfirst : c.index = 0 <;> cases c.isLast <;> simp [hfirst, hforget, hheld]

/-! ## Told by history -/

/-- After any calls of a new reassembler, as many octets are buffered of a stream as its pending
chunks have, which are those since the latest point at which none was pending.  A further chunk ends
its stream if it is empty; otherwise it completes the chunks of its message up to it if its number
says that it is the last, and more are expected if not.  Calls about other streams make no
difference to any of this, and a message of one chunk is not treated differently, whatever state the
reassembler is in. -/
theorem accept_eq_of_pending_chunks (calls : List Call) :
    (∀ id, Since (calls.filter (·.streamId = id)) (pending id calls) ∧
      (after calls).buffered id = ((pending id calls).flatMap (·.payload)).length) ∧
    (∀ c : Chunk, ((after calls).accept c).1 =
      if c.payload = [] then .closed
      else if c.count.toNat ≤ c.index.toNat + 1 then
        .complete ((pendingUpTo calls c).flatMap (·.payload))
      else .pending) ∧
    (∀ id others, others.filter (·.streamId = id) = calls.filter (·.streamId = id) →
      (after others).buffered id = (after calls).buffered id ∧
      ∀ c : Chunk, c.streamId = id →
        ((after others).accept c).1 = ((after calls).accept c).1) ∧
    ∀ (r : Reassembler) (c : Chunk), r.accept c = r.acceptAtLength c := by
  refine ⟨fun id => ⟨since_pending id calls, ?_⟩, accept_after calls, fun id others hothers => ?_,
    accept_eq_acceptAtLength⟩
  · rw [buffered, held_after]
  · have hpending : pending id others = pending id calls := by
      rw [← pending_filter id others, hothers, pending_filter]
    have hheld : (after others).held id = (after calls).held id := by
      rw [held_after, held_after, hpending]
    refine ⟨congrArg List.length hheld, ?_⟩
    rintro c rfl
    rw [accept_fst, accept_fst, hheld]

/-- A second chunk without a first, a first chunk, and chunks of another stream, which is forgotten,
among them. -/
theorem accept_eq_of_pending_chunks_of_two_streams :
    let a : StreamId := default
    let b : StreamId := ⟨List.replicate 8 1, rfl⟩
    let own : List Call := [.chunk ⟨a, none, 1, 3, [1]⟩, .chunk ⟨a, none, 0, 3, [2]⟩,
      .chunk ⟨a, none, 1, 3, [3]⟩]
    let all : List Call := [.chunk ⟨a, none, 1, 3, [1]⟩, .chunk ⟨b, none, 0, 2, [9]⟩,
      .chunk ⟨a, none, 0, 3, [2]⟩, .forget b, .chunk ⟨a, none, 1, 3, [3]⟩]
    own.filter (·.streamId = a) = all.filter (·.streamId = a) ∧
      (after all).buffered a = 2 ∧ (after own).buffered a = 2 ∧
      ((after all).accept ⟨a, none, 2, 3, [4]⟩).1 = .complete [2, 3, 4] ∧
      ((after own).accept ⟨a, none, 2, 3, [4]⟩).1 = .complete [2, 3, 4] := by
  intro a b own all
  have hfilter : own.filter (·.streamId = a) = all.filter (·.streamId = a) := by decide
  obtain ⟨hbuffered, hanswer, hothers, -⟩ := accept_eq_of_pending_chunks all
  obtain ⟨hbuffered', hanswer'⟩ := hothers a own hfilter
  have hall : (after all).buffered a = 2 := (hbuffered a).2
  have hcomplete : ((after all).accept ⟨a, none, 2, 3, [4]⟩).1 = .complete [2, 3, 4] := hanswer _
  exact ⟨hfilter, hall, hbuffered'.trans hall, hcomplete, (hanswer' _ rfl).trans hcomplete⟩

end Reassembler

end Meshway
