import Mathlib.Data.List.Induction
import Meshway.MemoryMesh
set_option autoImplicit false

/-!
# What a mesh within one process delivers (SPEC §6, §10.3 item 17)

Identities join the mesh and are taken off it, inboxes are thrown away and
looked into, and nodes send packets, in any order; a node may go on sending when
its own inbox is gone.  Inboxes are numbered as they are given out.  Main
statement: whether a packet is acknowledged is told by what happened before: it
is just when the receiver's latest inbox is neither detached nor thrown away.
Such a packet goes to that inbox and to no other, and any other packet goes
nowhere.  So what was taken from an inbox, and what is still in it, are the
packets that were acknowledged while it was its receiver's, in the order they
were sent.
-/

namespace Meshway

namespace MemoryMesh

/-! ## Histories -/

/-- What happens to a mesh. -/
inductive Event where
  /-- an identity joins, and gets a new inbox -/
  | attach (gid : UInt64)
  /-- an identity is taken off -/
  | detach (gid : UInt64)
  /-- an inbox is thrown away -/
  | drop (inbox : Nat)
  /-- a node sends a packet -/
  | send (sender : UInt64) (nowMs : Int) (p : Outbound)
  /-- somebody looks into an inbox -/
  | receive (inbox : Nat)
  deriving DecidableEq, Repr

/-- Whether an event is an identity's joining. -/
def Event.isAttach : Event → Bool
  | .attach _ => true
  | .detach _ | .drop _ | .send _ _ _ | .receive _ => false

/-- Whether an event is between nodes, and gives no inbox and takes none away. -/
def Event.isExchange : Event → Bool
  | .send _ _ _ | .receive _ => true
  | .attach _ | .detach _ | .drop _ => false

theorem Event.keeps_inboxes {e : Event} (h : e.isExchange = true) :
    e.isAttach = false ∧ (∀ gid, e ≠ .attach gid ∧ e ≠ .detach gid) ∧ ∀ inbox, e ≠ .drop inbox := by
  cases e <;> simp_all [isExchange, isAttach]

/-- How many inboxes were given out.  The next one has this number. -/
def given (history : List Event) : Nat := history.countP Event.isAttach

/-- An identity was given an inbox, and since then nothing happened that would change that. -/
def Lasts (changes : Event → Prop) (history : List Event) (gid : UInt64) (inbox : Nat) : Prop :=
  ∃ before after, history = before ++ .attach gid :: after ∧ inbox = given before ∧
    ∀ e ∈ after, ¬ changes e

/-- An inbox is the latest of an identity, and neither was the identity taken off the mesh since nor
the inbox thrown away. -/
def Current (history : List Event) (gid : UInt64) (inbox : Nat) : Prop :=
  Lasts (fun e => (e = .attach gid ∨ e = .detach gid) ∨ e = .drop inbox) history gid inbox

/-- An inbox was given out and not thrown away since. -/
def Open (history : List Event) (inbox : Nat) : Prop :=
  ∃ gid, Lasts (· = .drop inbox) history gid inbox

section Histories

variable {changes changes' : Event → Prop} {history : List Event} {e : Event} {gid : UInt64}
  {inbox : Nat}

theorem given_append (history : List Event) (e : Event) :
    given (history ++ [e]) = given history + if e.isAttach then 1 else 0 := by
  simp [given, List.countP_append]

theorem not_lasts_nil : ¬ Lasts changes [] gid inbox := by
  rintro ⟨before, after, heq, -⟩
  simp at heq

/-- What an event makes of an identity's having an inbox. -/
theorem lasts_append :
    Lasts changes (history ++ [e]) gid inbox ↔
      e = .attach gid ∧ inbox = given history ∨ Lasts changes history gid inbox ∧ ¬ changes e := by
  constructor
  · rintro ⟨before, after, heq, hinbox, hafter⟩
    rcases List.eq_nil_or_concat after with rfl | ⟨after, last, rfl⟩
    · obtain ⟨rfl, hlast⟩ := List.append_inj' heq rfl
      exact .inl ⟨(List.cons.inj hlast).1, hinbox⟩
    · rw [List.concat_eq_append, ← List.cons_append, ← List.append_assoc] at heq
      obtain ⟨rfl, hlast⟩ := List.append_inj' heq rfl
      obtain rfl : e = last := (List.cons.inj hlast).1
      exact .inr ⟨⟨before, after, rfl, hinbox, fun x hx => hafter x (by simp [hx])⟩,
        hafter e (by simp)⟩
  · rintro (⟨rfl, hinbox⟩ | ⟨⟨before, after, rfl, hinbox, hafter⟩, he⟩)
    · exact ⟨history, [], rfl, hinbox, by simp⟩
    · refine ⟨before, after ++ [e], by simp, hinbox, ?_⟩
      simpa [or_imp, forall_and] using ⟨hafter, he⟩

/-- The event by which an identity got an inbox, by its place. -/
theorem lasts_iff_getElem? :
    Lasts changes history gid inbox ↔
      ∃ k < history.length, history[k]? = some (.attach gid) ∧ inbox = given (history.take k) ∧
        ∀ e ∈ history.drop (k + 1), ¬ changes e := by
  constructor
  · rintro ⟨before, after, rfl, hinbox, hafter⟩
    exact ⟨before.length, by simp, by simp, by simpa using hinbox, by simpa using hafter⟩
  · rintro ⟨k, hk, hattach, hinbox, hafter⟩
    refine ⟨history.take k, history.drop (k + 1), ?_, hinbox, hafter⟩
    have hget : history[k] = .attach gid := by simpa [List.getElem?_eq_getElem hk] using hattach
    rw [← hget, ← List.drop_eq_getElem_cons hk, List.take_append_drop]

instance [DecidablePred changes] (history : List Event) (gid : UInt64) (inbox : Nat) :
    Decidable (Lasts changes history gid inbox) :=
  decidable_of_iff' _ lasts_iff_getElem?

instance (history : List Event) (gid : UInt64) (inbox : Nat) :
    Decidable (Current history gid inbox) :=
  inferInstanceAs (Decidable (Lasts _ _ _ _))

theorem open_append :
    Open (history ++ [e]) inbox ↔
      e.isAttach ∧ inbox = given history ∨ Open history inbox ∧ e ≠ .drop inbox := by
  simp only [Open, lasts_append, exists_or, exists_and_right]
  refine or_congr (and_congr_left fun _ => ?_) Iff.rfl
  cases e <;> simp [Event.isAttach]

theorem Lasts.lt_given (h : Lasts changes history gid inbox) : inbox < given history := by
  obtain ⟨before, after, rfl, rfl, -⟩ := h
  simp only [given, List.countP_append]
  rw [List.countP_cons_of_pos rfl]
  omega

/-- What lasts through changes of two kinds lasts through both at once, whoever got the inbox as to
one of them. -/
theorem lasts_or_iff :
    Lasts (fun x => changes x ∨ changes' x) history gid inbox ↔
      Lasts changes history gid inbox ∧ ∃ gid', Lasts changes' history gid' inbox := by
  induction history using List.reverseRecOn with
  | nil => simp [not_lasts_nil]
  | append_singleton history e ih =>
    simp only [lasts_append, ih, not_or]
    constructor
    · rintro (hgiven | ⟨⟨h, gid', h'⟩, he, he'⟩)
      · exact ⟨.inl hgiven, gid, .inl hgiven⟩
      · exact ⟨.inr ⟨h, he⟩, gid', .inr ⟨h', he'⟩⟩
    · rintro ⟨hgiven | ⟨h, he⟩, gid', hgiven' | ⟨h', he'⟩⟩
      · exact .inl hgiven
      · exact .inl hgiven
      · -- the inbox is not new: the identity had it before
        exact absurd hgiven'.2 (Nat.ne_of_lt h.lt_given)
      · exact .inr ⟨⟨h, gid', h'⟩, he, he'⟩

/-- An identity has one inbox at a time. -/
theorem Current.unique {inbox' : Nat} (h : Current history gid inbox)
    (h' : Current history gid inbox') : inbox = inbox' := by
  unfold Current at h h'
  induction history using List.reverseRecOn with
  | nil => exact absurd h not_lasts_nil
  | append_singleton history e ih =>
    rw [lasts_append] at h h'
    rcases h with ⟨rfl, rfl⟩ | ⟨h, he⟩
    · rcases h' with ⟨-, rfl⟩ | ⟨-, he'⟩
      · rfl
      · exact absurd (.inl (.inl rfl)) he'
    · rcases h' with ⟨rfl, -⟩ | ⟨h', -⟩
      · exact absurd (.inl (.inl rfl)) he
      · exact ih h h'

end Histories

/-! ## Packets that are brought -/

/-- The packet that an event brings to an inbox after some history. -/
def Event.brings (history : List Event) (inbox : Nat) : Event → List Packet
  | .send sender nowMs p =>
    if Current history p.receiver inbox then [⟨sender, p.receiver, nowMs, p.data⟩] else []
  | .attach _ | .detach _ | .drop _ | .receive _ => []

/-- The packets that later events bring to an inbox after a history, each as things stand when it is
sent. -/
def broughtAfter (inbox : Nat) : List Event → List Event → List Packet
  | _, [] => []
  | history, e :: later => e.brings history inbox ++ broughtAfter inbox (history ++ [e]) later

/-- The packets that were sent to an identity while an inbox was its current one. -/
def brought (history : List Event) (inbox : Nat) : List Packet := broughtAfter inbox [] history

section Brought

variable {history : List Event} {e : Event} {inbox : Nat}

theorem broughtAfter_append (history later : List Event) (e : Event) (inbox : Nat) :
    broughtAfter inbox history (later ++ [e]) =
      broughtAfter inbox history later ++ e.brings (history ++ later) inbox := by
  induction later generalizing history with
  | nil => simp [broughtAfter]
  | cons x later ih => simp [broughtAfter, ih]

theorem brought_append (history : List Event) (e : Event) (inbox : Nat) :
    brought (history ++ [e]) inbox = brought history inbox ++ e.brings history inbox :=
  broughtAfter_append [] history e inbox

theorem brought_append_of_nil (h : e.brings history inbox = []) :
    brought (history ++ [e]) inbox = brought history inbox := by
  rw [brought_append, h, List.append_nil]

/-- Nothing is brought to an inbox that was not given out yet. -/
theorem brought_eq_nil (h : given history ≤ inbox) : brought history inbox = [] := by
  induction history using List.reverseRecOn with
  | nil => rfl
  | append_singleton history e ih =>
    rw [given_append] at h
    have hbefore : given history ≤ inbox := Nat.le_trans (Nat.le_add_right _ _) h
    rw [brought_append, ih hbefore, List.nil_append]
    cases e with
    | send sender nowMs p =>
      exact if_neg fun hcurrent : Current _ _ _ => Nat.not_lt.2 hbefore hcurrent.lt_given
    | attach gid => rfl
    | detach gid => rfl
    | drop inbox => rfl
    | receive inbox => rfl

end Brought

/-! ## A mesh in use -/

/-- A mesh, and the packets that were taken from each inbox. -/
structure InUse where
  mesh : MemoryMesh
  taken : Nat → List Packet

namespace InUse

/-- A mesh that nobody has joined. -/
def new : InUse := ⟨.empty, fun _ => []⟩

/-- What an event makes of a mesh. -/
def step (s : InUse) : Event → InUse
  | .attach gid => { s with mesh := (s.mesh.attach gid).2 }
  | .detach gid => { s with mesh := s.mesh.detach gid }
  | .drop inbox => { s with mesh := s.mesh.dropInbox inbox }
  | .send sender nowMs p => { s with mesh := (s.mesh.send sender nowMs p).2 }
  | .receive inbox =>
    match s.mesh.receive inbox with
    | (.packet p, mesh) => ⟨mesh, fun i => if i = inbox then s.taken i ++ [p] else s.taken i⟩
    | (_, mesh) => { s with mesh }

/-- What events make of a mesh, one after the other. -/
def run (s : InUse) (events : List Event) : InUse := events.foldl step s

theorem run_append (s : InUse) (events : List Event) (e : Event) :
    s.run (events ++ [e]) = (s.run events).step e := by
  simp [run]

/-- What a mesh and the packets that were taken owe to what has happened. -/
structure Told (history : List Event) (s : InUse) : Prop where
  inboxes : s.mesh.inboxes = given history
  current : ∀ gid inbox, s.mesh.current.get? gid = some inbox ↔
    Lasts (fun e => e = .attach gid ∨ e = .detach gid) history gid inbox
  contains : ∀ inbox, s.mesh.queues.contains inbox = true ↔ Open history inbox
  held : ∀ inbox queue, s.mesh.queues.get? inbox = some queue →
    s.taken inbox ++ queue = brought history inbox
  taken : ∀ inbox, s.taken inbox <+: brought history inbox

variable {history : List Event} {s : InUse}

theorem told_new : Told [] new where
  inboxes := rfl
  current gid inbox := by simp [new, empty, not_lasts_nil]
  contains inbox := by simp [new, empty, Table.contains, Open, not_lasts_nil]
  held inbox queue h := by simp [new, empty] at h
  taken inbox := List.nil_prefix

theorem Told.attach (h : Told history s) (gid : UInt64) :
    Told (history ++ [.attach gid]) (s.step (.attach gid)) where
  inboxes := by simp [step, MemoryMesh.attach, given_append, Event.isAttach, h.inboxes]
  current gid' inbox := by
    simp only [step, MemoryMesh.attach, Table.get?_insert, lasts_append, ← h.current, h.inboxes]
    by_cases hgid : gid' = gid
    · simp [hgid, eq_comm]
    · simp [hgid, Ne.symm hgid]
  contains inbox := by
    simp only [step, MemoryMesh.attach, Table.contains_insert_iff, open_append, h.contains,
      h.inboxes]
    simp [Event.isAttach]
  held inbox queue hqueue := by
    simp only [step, MemoryMesh.attach, Table.get?_insert, h.inboxes] at hqueue
    rw [brought_append_of_nil rfl]
    split at hqueue
    · -- nothing was brought to the new inbox, and so nothing was taken from it
      rename_i hnew
      cases hqueue
      have hnone := brought_eq_nil (Nat.le_of_eq hnew.symm)
      have htaken := h.taken inbox
      rw [hnone, List.prefix_nil] at htaken
      rw [hnone, List.append_nil]
      exact htaken
    · exact h.held inbox queue hqueue
  taken inbox := by
    rw [brought_append_of_nil rfl]
    exact h.taken inbox

theorem Told.detach (h : Told history s) (gid : UInt64) :
    Told (history ++ [.detach gid]) (s.step (.detach gid)) where
  inboxes := by simpa [step, MemoryMesh.detach, given_append, Event.isAttach] using h.inboxes
  current gid' inbox := by
    simp only [step, MemoryMesh.detach, Table.get?_erase, lasts_append, ← h.current]
    by_cases hgid : gid' = gid
    · simp [hgid]
    · simp [hgid, Ne.symm hgid]
  contains inbox := by
    simp [step, MemoryMesh.detach, open_append, h.contains, Event.isAttach]
  held inbox queue hqueue := by
    rw [brought_append_of_nil rfl]
    exact h.held inbox queue hqueue
  taken inbox := by
    rw [brought_append_of_nil rfl]
    exact h.taken inbox

theorem Told.drop (h : Told history s) (inbox : Nat) :
    Told (history ++ [.drop inbox]) (s.step (.drop inbox)) where
  inboxes := by simpa [step, MemoryMesh.dropInbox, given_append, Event.isAttach] using h.inboxes
  current gid inbox' := by
    simp [step, MemoryMesh.dropInbox, lasts_append, h.current]
  contains inbox' := by
    simp only [step, MemoryMesh.dropInbox, Table.contains_erase_iff, open_append, h.contains]
    simp [Event.isAttach, and_comm, eq_comm]
  held inbox' queue hqueue := by
    rw [brought_append_of_nil rfl]
    simp only [step, MemoryMesh.dropInbox, Table.get?_erase] at hqueue
    split at hqueue
    · cases hqueue
    · exact h.held inbox' queue hqueue
  taken inbox' := by
    rw [brought_append_of_nil rfl]
    exact h.taken inbox'

/-! ## Sending and receiving -/

section Sending

variable {p : Outbound} {inbox : Nat}

theorem Told.current_iff (h : Told history s) {gid : UInt64} :
    Current history gid inbox ↔
      s.mesh.current.get? gid = some inbox ∧ s.mesh.queues.contains inbox = true := by
  rw [h.current, h.contains]
  exact lasts_or_iff

/-- A packet whose receiver has a current inbox is acknowledged, and goes there. -/
theorem Told.send_of_current (h : Told history s) (sender : UInt64) (nowMs : Int)
    (hcurrent : Current history p.receiver inbox) :
    ∃ queue, s.mesh.queues.get? inbox = some queue ∧
      s.mesh.send sender nowMs p = (.ok (), { s.mesh with
        queues := s.mesh.queues.insert inbox
          (queue ++ [⟨sender, p.receiver, nowMs, p.data⟩]) }) := by
  obtain ⟨hget, hcontains⟩ := h.current_iff.1 hcurrent
  obtain ⟨queue, hqueue⟩ := Option.isSome_iff_exists.1 hcontains
  refine ⟨queue, hqueue, ?_⟩
  simp only [MemoryMesh.send, hget, Option.bind_some, hqueue, Option.map_some]

/-- Any other packet is refused, and nothing changes. -/
theorem Told.send_of_not_current (h : Told history s) (sender : UInt64) (nowMs : Int)
    (hcurrent : ∀ inbox, ¬ Current history p.receiver inbox) :
    s.mesh.send sender nowMs p = (.error (.notConnected p.receiver), s.mesh) := by
  have hnone : (s.mesh.current.get? p.receiver).bind (fun inbox =>
      (s.mesh.queues.get? inbox).map fun queue => (inbox, queue)) = none := by
    refine Option.bind_eq_none_iff.2 fun inbox hget => Option.map_eq_none_iff.2 ?_
    refine Option.not_isSome_iff_eq_none.1 fun hcontains => ?_
    exact hcurrent inbox (h.current_iff.2 ⟨hget, hcontains⟩)
  simp only [MemoryMesh.send, hnone]

/-- What an exchange leaves as it was. -/
theorem Told.exchange {e : Event} {s' : InUse} (h : Told history s) (he : e.isExchange = true)
    (hinboxes : s'.mesh.inboxes = s.mesh.inboxes) (hcurrent : s'.mesh.current = s.mesh.current)
    (hcontains : ∀ i, s'.mesh.queues.contains i = s.mesh.queues.contains i)
    (hheld : ∀ i queue', s'.mesh.queues.get? i = some queue' →
      ∃ queue, s.mesh.queues.get? i = some queue ∧
        s'.taken i ++ queue' = s.taken i ++ queue ++ e.brings history i)
    (htaken : ∀ i, s'.taken i <+: brought history i) : Told (history ++ [e]) s' where
  inboxes := by simp [hinboxes, h.inboxes, given_append, (Event.keeps_inboxes he).1]
  current gid i := by
    simp [hcurrent, h.current, lasts_append, (Event.keeps_inboxes he).2.1 gid]
  contains i := by
    simp [hcontains, h.contains, open_append, (Event.keeps_inboxes he).1,
      (Event.keeps_inboxes he).2.2 i]
  held i queue' hqueue' := by
    obtain ⟨queue, hqueue, heq⟩ := hheld i queue' hqueue'
    rw [brought_append, heq, h.held i queue hqueue]
  taken i := by
    rw [brought_append]
    exact (htaken i).trans (List.prefix_append _ _)

/-- An exchange that brings nothing and changes nothing. -/
theorem Told.same {e : Event} (h : Told history s) (he : e.isExchange = true)
    (hbrings : ∀ i, e.brings history i = []) : Told (history ++ [e]) s :=
  h.exchange he rfl rfl (fun _ => rfl)
    (fun i queue hqueue => ⟨queue, hqueue, by rw [hbrings, List.append_nil]⟩) h.taken

/-- An exchange by which one inbox changes. -/
theorem Told.overwrite {e : Event} {queue queue' : List Packet} {taken' : Nat → List Packet}
    (h : Told history s) (he : e.isExchange = true)
    (hqueue : s.mesh.queues.get? inbox = some queue)
    (hothers : ∀ i ≠ inbox, taken' i = s.taken i ∧ e.brings history i = [])
    (hthis : taken' inbox ++ queue' = s.taken inbox ++ queue ++ e.brings history inbox)
    (htaken : taken' inbox <+: s.taken inbox ++ queue) :
    Told (history ++ [e])
      ⟨{ s.mesh with queues := s.mesh.queues.insert inbox queue' }, taken'⟩ := by
  refine h.exchange he rfl rfl (fun i => ?_) (fun i queue'' hqueue'' => ?_) fun i => ?_
  · rw [Bool.eq_iff_iff, Table.contains_insert_iff]
    refine or_iff_right_of_imp ?_
    rintro rfl
    exact Option.isSome_iff_exists.2 ⟨queue, hqueue⟩
  · rw [Table.get?_insert] at hqueue''
    by_cases hi : i = inbox
    · rw [if_pos hi] at hqueue''
      cases hqueue''
      exact ⟨queue, hi ▸ hqueue, hi ▸ hthis⟩
    · rw [if_neg hi] at hqueue''
      obtain ⟨htaken, hbrings⟩ := hothers i hi
      exact ⟨queue'', hqueue'', by rw [hbrings, List.append_nil]; exact congrArg (· ++ _) htaken⟩
  · by_cases hi : i = inbox
    · rw [hi, ← h.held inbox queue hqueue]
      exact htaken
    · have hsame : taken' i = s.taken i := (hothers i hi).1
      change taken' i <+: _
      rw [hsame]
      exact h.taken i

/-- A packet is sent: it is brought to the current inbox of its receiver, or nowhere. -/
theorem Told.send (h : Told history s) (sender : UInt64) (nowMs : Int) (p : Outbound) :
    Told (history ++ [.send sender nowMs p]) (s.step (.send sender nowMs p)) := by
  by_cases hcurrent : ∃ inbox, Current history p.receiver inbox
  · obtain ⟨inbox, hcurrent⟩ := hcurrent
    obtain ⟨queue, hqueue, hsend⟩ := h.send_of_current sender nowMs hcurrent
    rw [step, hsend]
    refine h.overwrite rfl hqueue (fun i hi => ⟨rfl, ?_⟩) ?_ (List.prefix_append _ _)
    · -- no other inbox is current for the receiver
      exact if_neg fun h' : Current history p.receiver i => hi (h'.unique hcurrent)
    · rw [Event.brings, if_pos hcurrent, List.append_assoc]
  · have hnone (inbox : Nat) : ¬ Current history p.receiver inbox := fun h' => hcurrent ⟨inbox, h'⟩
    rw [step, h.send_of_not_current sender nowMs hnone]
    exact h.same rfl fun i => if_neg (hnone i)

/-- Looking into an inbox takes the first packet out, if there is one. -/
theorem step_receive (s : InUse) (inbox : Nat) :
    (∃ p queue, s.mesh.queues.get? inbox = some (p :: queue) ∧
      s.step (.receive inbox) = ⟨{ s.mesh with queues := s.mesh.queues.insert inbox queue },
        fun i => if i = inbox then s.taken i ++ [p] else s.taken i⟩) ∨
      s.step (.receive inbox) = s := by
  rcases hqueue : s.mesh.queues.get? inbox with _ | _ | ⟨p, queue⟩
  case some.cons => exact .inl ⟨p, queue, rfl, by simp only [step, MemoryMesh.receive, hqueue]⟩
  all_goals
    right
    simp only [step, MemoryMesh.receive, hqueue]
    cases s.mesh.current.entries.any fun e => e.2 == inbox <;> rfl

theorem Told.receive (h : Told history s) (inbox : Nat) :
    Told (history ++ [.receive inbox]) (s.step (.receive inbox)) := by
  rcases step_receive s inbox with ⟨p, queue, hqueue, hstep⟩ | hstep
  · rw [hstep]
    refine h.overwrite rfl hqueue (fun i hi => ⟨if_neg hi, rfl⟩) ?_ ?_
    · simp [Event.brings]
    · simp
  · rw [hstep]
    exact h.same rfl fun _ => rfl

end Sending

/-! ## Runs -/

theorem Told.step (h : Told history s) (e : Event) : Told (history ++ [e]) (s.step e) := by
  cases e with
  | attach gid => exact h.attach gid
  | detach gid => exact h.detach gid
  | drop inbox => exact h.drop inbox
  | send sender nowMs p => exact h.send sender nowMs p
  | receive inbox => exact h.receive inbox

theorem told_run (history : List Event) : Told history (new.run history) := by
  induction history using List.reverseRecOn with
  | nil => exact told_new
  | append_singleton history e ih =>
    rw [run_append]
    exact ih.step e

/-- What a mesh does with a packet after some history, and what its inboxes hold. -/
structure Delivers (history : List Event) (s : InUse) : Prop where
  /-- A packet is acknowledged just when its receiver has a current inbox. -/
  acknowledged : ∀ sender nowMs p, (s.mesh.send sender nowMs p).1 = .ok () ↔
    ∃ inbox, Current history p.receiver inbox
  /-- It is then added to that inbox, which is there, and to no other. -/
  added : ∀ sender nowMs p inbox, Current history p.receiver inbox →
    ∃ queue, s.mesh.queues.get? inbox = some queue ∧
      ∀ i, (s.mesh.send sender nowMs p).2.queues.get? i =
        if i = inbox then some (queue ++ [⟨sender, p.receiver, nowMs, p.data⟩])
        else s.mesh.queues.get? i
  /-- Any other packet is refused, and nothing changes. -/
  refused : ∀ sender nowMs p, (∀ inbox, ¬ Current history p.receiver inbox) →
    s.mesh.send sender nowMs p = (.error (.notConnected p.receiver), s.mesh)
  /-- The inboxes that are there were given out and not thrown away. -/
  contains : ∀ inbox, s.mesh.queues.contains inbox = true ↔ Open history inbox
  /-- Each holds what was brought to it while it was current, but for what was taken from it. -/
  held : ∀ inbox queue, s.mesh.queues.get? inbox = some queue →
    s.taken inbox ++ queue = brought history inbox
  /-- What was taken from an inbox was brought to it, and first what was brought first. -/
  taken : ∀ inbox, s.taken inbox <+: brought history inbox
  /-- Looking into an inbox that holds packets takes out the first of them, which is the next of
  those that were brought to it. -/
  received : ∀ inbox p queue, s.mesh.queues.get? inbox = some (p :: queue) →
    s.mesh.receive inbox =
        (.packet p, { s.mesh with queues := s.mesh.queues.insert inbox queue }) ∧
      s.taken inbox ++ [p] <+: brought history inbox

theorem delivers_once_in_order (history : List Event) :
    Delivers history (new.run history) := by
  have h : Told history (new.run history) := told_run history
  constructor
  case acknowledged =>
    intro sender nowMs p
    constructor
    · intro hok
      by_contra hnone
      rw [h.send_of_not_current sender nowMs fun inbox h' => hnone ⟨inbox, h'⟩] at hok
      cases hok
    · rintro ⟨inbox, hcurrent⟩
      obtain ⟨queue, -, hsend⟩ := h.send_of_current sender nowMs hcurrent
      rw [hsend]
  case added =>
    intro sender nowMs p inbox hcurrent
    obtain ⟨queue, hqueue, hsend⟩ := h.send_of_current sender nowMs hcurrent
    refine ⟨queue, hqueue, fun i => ?_⟩
    rw [hsend]
    exact Table.get?_insert ..
  case refused => exact fun sender nowMs p hnone => h.send_of_not_current sender nowMs hnone
  case contains => exact h.contains
  case held => exact h.held
  case taken => exact h.taken
  case received =>
    intro inbox p queue hqueue
    refine ⟨by simp only [MemoryMesh.receive, hqueue], queue, ?_⟩
    rw [List.append_assoc]
    exact h.held inbox (p :: queue) hqueue

/-- An identity that joins again goes on with an empty inbox.  The packets sent before stay in the
old one, and none follows them. -/
example :
    let sent (text : String) : Event := .send 7 0 ⟨3, .text text, false⟩
    let history := [.attach 3, sent "a", sent "b", .attach 3, sent "c", .receive 0, .detach 3,
      sent "d"]
    let packet (text : String) : Packet := ⟨7, 3, 0, .text text⟩
    ((new.run history).mesh.queues.get? 0, (new.run history).mesh.queues.get? 1) =
        (some [packet "b"], some [packet "c"]) ∧
      brought history 0 = [packet "a", packet "b"] := by
  decide

end InUse

end MemoryMesh

end Meshway
