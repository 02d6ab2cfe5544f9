import Meshway.Proofs.Stream.Ledger
import Meshway.Site
set_option autoImplicit false

/-!
# Bridges, one turn after the other (SPEC §4.4)

A node with numbered bridges in the middle of anything: the task of a bridge may
have more to do before it waits again, and whatever comes next may concern
another bridge, or be somebody else's use of the registry.  Each turn is one
change of what others can see.  Main statement: what a site does is a run of
turns, in which every task does all that it has to do before anything else
happens.
-/

namespace Meshway

open Tunnel

/-- What an operation makes of a registry. -/
def RegistryOp.apply (r : Registry) : RegistryOp → Registry
  | .register id => ((r.register? id).map Prod.snd).getD r
  | .deliver c => (r.deliver c).2
  | .drop g => r.release g
  | .receive g => (r.receive g).2

namespace Tunnel

/-- The stage that others see after a thing that a task does. -/
def Effect.state (state : BridgeState) : Effect → BridgeState
  | .become state => state
  | .send _ | .write _ | .release | .shutdown => state

/-- The registry after a thing that a task with this registration does. -/
def Effect.registry (r : Registry) (g : Registration) : Effect → Registry
  | .release => r.release g
  | .become _ | .send _ | .write _ | .shutdown => r

end Tunnel

/-! ## Bridges at work -/

/-- A bridge, its task once it was opened, and what the task is to do before it waits again. -/
structure BridgeAtWork where
  bridge : Bridge
  task : Option Tunnel
  ahead : List Effect

/-- A node with numbered bridges. -/
structure HostAtWork where
  shared : BridgeHost
  bridges : Nat → BridgeAtWork

/-- What comes next on a node. -/
inductive Turn where
  /-- a bridge is opened; that others see it streaming is a turn of its own -/
  | opening (k : Nat) (listen : PortAllocator → Except IoFault BoundPort × PortAllocator)
      (host : String) (port : UInt16)
  /-- something happens to the task of a bridge, which waits for it -/
  | event (k : Nat) (e : Event)
  /-- the task of a bridge does the next thing -/
  | effect (k : Nat)
  /-- somebody uses the registry -/
  | registry (op : RegistryOp)

namespace HostAtWork

/-- A node on which nothing was opened. -/
def new (ports : PortAllocator) : HostAtWork := ⟨⟨.empty, ports⟩, fun _ => ⟨.new, none, []⟩⟩

/-- The node with another registry. -/
def withRegistry (s : HostAtWork) (registry : Registry) : HostAtWork :=
  { s with shared := { s.shared with registry } }

/-- The node with one of its bridges changed. -/
def put (s : HostAtWork) (k : Nat) (b : BridgeAtWork) : HostAtWork :=
  { s with bridges := fun j => if j = k then b else s.bridges j }

/-- What a turn makes of a node.  A bridge is not opened while it is being opened, and nothing
happens to a task that is not waiting. -/
def step (n : Node) (s : HostAtWork) : Turn → HostAtWork
  | .opening k listen host port =>
    let b := s.bridges k
    if b.ahead ≠ [] then s
    else
      match Bridge.open? n listen b.bridge s.shared host port with
      | (.error _, bridge, shared) => { s with shared }.put k { b with bridge }
      | (.ok (_, t), bridge, shared) =>
        { s with shared }.put k
          ⟨{ bridge with state := b.bridge.state }, some t, [.become bridge.state]⟩
  | .event k e =>
    let b := s.bridges k
    match b.task, b.ahead with
    | some t, [] =>
      let (t, ahead) := t.step n e
      s.put k { b with task := some t, ahead }
    | _, _ => s
  | .effect k =>
    let b := s.bridges k
    match b.task, b.ahead with
    | some t, effect :: ahead =>
      (s.withRegistry (effect.registry s.shared.registry t.registration)).put k
        { b with bridge.state := effect.state b.bridge.state, ahead }
    | _, _ => s
  | .registry op => s.withRegistry (op.apply s.shared.registry)

/-- What turns one after the other make of a node. -/
def run (n : Node) (s : HostAtWork) (turns : List Turn) : HostAtWork := turns.foldl (step n) s

variable {n : Node} {s : HostAtWork} {k : Nat} {b : BridgeAtWork}

theorem run_append (turns turns' : List Turn) :
    s.run n (turns ++ turns') = (s.run n turns).run n turns' := List.foldl_append

@[simp] theorem put_bridges_self : (s.put k b).bridges k = b := if_pos rfl

theorem put_bridges_of_ne {j : Nat} (h : j ≠ k) : (s.put k b).bridges j = s.bridges j := if_neg h

@[simp] theorem put_put (b' : BridgeAtWork) : (s.put k b).put k b' = s.put k b' := by
  simp only [put, mk.injEq, true_and]
  funext j
  split <;> rfl

/-- Nothing changes where a bridge is put in its own place. -/
theorem put_self (h : s.bridges k = b) : s.put k b = s := by
  subst h
  cases s with
  | mk shared bridges =>
    simp only [put, mk.injEq, true_and]
    funext j
    split
    · rename_i hj
      rw [hj]
    · rfl

theorem step_event {t : Tunnel} (htask : (s.bridges k).task = some t)
    (hahead : (s.bridges k).ahead = []) (e : Event) :
    s.step n (.event k e) =
      s.put k { s.bridges k with task := some (t.step n e).1, ahead := (t.step n e).2 } := by
  simp only [step, htask, hahead]

theorem step_effect {t : Tunnel} {effect : Effect} {ahead : List Effect}
    (htask : (s.bridges k).task = some t) (hahead : (s.bridges k).ahead = effect :: ahead) :
    s.step n (.effect k) =
      (s.withRegistry (effect.registry s.shared.registry t.registration)).put k
        ⟨{ (s.bridges k).bridge with state := effect.state (s.bridges k).bridge.state }, some t,
          ahead⟩ := by
  simp only [step, htask, hahead]

theorem step_effect_put (bridge : Bridge) (t : Tunnel) (effect : Effect) (ahead : List Effect) :
    (s.put k ⟨bridge, some t, effect :: ahead⟩).step n (.effect k) =
      (s.withRegistry (effect.registry s.shared.registry t.registration)).put k
        ⟨{ bridge with state := effect.state bridge.state }, some t, ahead⟩ := by
  rw [step_effect (congrArg _ put_bridges_self) (congrArg _ put_bridges_self), put_bridges_self]
  exact put_put (s := s.withRegistry _) _

end HostAtWork

/-! ## Sites -/

namespace Site

/-- A site as a node all of whose tasks are waiting. -/
def atWork (s : Site) : HostAtWork where
  shared := ⟨s.dispatcher.registry, s.ports⟩
  bridges k := ⟨(s.localEnd k).bridge, (s.localEnd k).task, []⟩

theorem localEnd_change (s : Site) (k j : Nat) (f : LocalEnd → LocalEnd) :
    (s.change k f).localEnd j = if j = k then f (s.localEnd k) else s.localEnd j := by
  simp only [change, localEnd, Table.get?_insert]
  split <;> rfl

/-- What happens to the client of a bridge is not seen on the mesh. -/
theorem atWork_change (s : Site) (k : Nat) (f : LocalEnd → LocalEnd) :
    (s.change k f).atWork =
      s.atWork.put k ⟨(f (s.localEnd k)).bridge, (f (s.localEnd k)).task, []⟩ := by
  simp only [atWork, HostAtWork.put, HostAtWork.mk.injEq]
  refine ⟨rfl, funext fun j => ?_⟩
  rw [localEnd_change]
  split <;> rfl

/-- The site while the task of a bridge has more to do. -/
def inside (s : Site) (k : Nat) (ahead : List Effect) : HostAtWork :=
  s.atWork.put k ⟨(s.localEnd k).bridge, (s.localEnd k).task, ahead⟩

section

variable {s s' s'' : Site} {k : Nat} {t : Tunnel}

theorem inside_change (s : Site) (k : Nat) (f : LocalEnd → LocalEnd) (ahead : List Effect) :
    (s.change k f).inside k ahead =
      s.atWork.put k ⟨(f (s.localEnd k)).bridge, (f (s.localEnd k)).task, ahead⟩ := by
  rw [inside, atWork_change, HostAtWork.put_put, localEnd_change, if_pos rfl]

theorem perform_keeps (htask : (s.localEnd k).task = some t) (effect : Effect) :
    (s.perform k effect).node = s.node ∧ ((s.perform k effect).localEnd k).task = some t := by
  cases effect with
  | become state => exact ⟨rfl, by simp [perform, localEnd_change, htask]⟩
  | send p => exact ⟨rfl, htask⟩
  | write octets => exact ⟨rfl, by simp [perform, localEnd_change, htask]⟩
  | release =>
    simp only [perform, htask]
    exact ⟨trivial, htask⟩
  | shutdown => exact ⟨rfl, by simp [perform, localEnd_change, htask]⟩

/-- A thing that a task does is a turn. -/
theorem step_inside (htask : (s.localEnd k).task = some t) (effect : Effect)
    (ahead : List Effect) :
    (s.inside k (effect :: ahead)).step s.node (.effect k) =
      (s.perform k effect).inside k ahead := by
  rw [inside, htask, HostAtWork.step_effect_put]
  cases effect with
  | become state =>
    rw [perform, inside_change, htask]
    rfl
  | send p =>
    rw [inside, (perform_keeps htask _).2]
    rfl
  | write octets =>
    rw [perform, inside_change, htask]
    rfl
  | release =>
    rw [inside, (perform_keeps htask _).2]
    simp only [perform, htask]
    rfl
  | shutdown =>
    rw [perform, inside_change, htask]
    rfl

/-- All that a task does before it waits again is done in as many turns. -/
theorem run_inside (htask : (s.localEnd k).task = some t) (effects : List Effect) :
    (s.inside k effects).run s.node (List.replicate effects.length (.effect k)) =
        (effects.foldl (fun s effect => s.perform k effect) s).atWork ∧
      (effects.foldl (fun s effect => s.perform k effect) s).node = s.node := by
  induction effects generalizing s with
  | nil => exact ⟨HostAtWork.put_self rfl, rfl⟩
  | cons effect effects ih =>
    obtain ⟨hnode, htask'⟩ := perform_keeps htask effect
    obtain ⟨hrun, hrest⟩ := ih htask'
    rw [hnode] at hrun hrest
    refine ⟨?_, hrest⟩
    rw [List.length_cons, List.replicate_succ, HostAtWork.run, List.foldl_cons,
      step_inside htask]
    exact hrun

/-! ## What a site does -/

/-- Whether one site becomes the other in a run of turns. -/
def Leads (s s' : Site) : Prop :=
  s'.node = s.node ∧ ∃ turns, s.atWork.run s.node turns = s'.atWork

theorem Leads.refl (s : Site) : s.Leads s := ⟨rfl, [], rfl⟩

theorem Leads.trans (h : s.Leads s') (h' : s'.Leads s'') : s.Leads s'' := by
  obtain ⟨hnode, turns, hrun⟩ := h
  obtain ⟨hnode', turns', hrun'⟩ := h'
  refine ⟨hnode'.trans hnode, turns ++ turns', ?_⟩
  rw [HostAtWork.run_append, hrun, ← hnode, hrun']

/-- One thing after the other. -/
theorem leads_foldl {α : Type} {f : Site → α → Site} (hf : ∀ (s : Site) a, s.Leads (f s a))
    (s : Site) (as : List α) : s.Leads (as.foldl f s) := by
  induction as generalizing s with
  | nil => exact .refl s
  | cons a as ih => exact (hf s a).trans (ih (f s a))

/-- What concerns neither bridges nor the registry is no turn at all. -/
theorem leads_of_atWork (hnode : s'.node = s.node) (hwork : s'.atWork = s.atWork) : s.Leads s' :=
  ⟨hnode, [], hwork.symm⟩

/-- What concerns the client of a bridge only is no turn either. -/
theorem leads_change {f : LocalEnd → LocalEnd}
    (hf : ∀ e, (f e).bridge = e.bridge ∧ (f e).task = e.task) (s : Site) (k : Nat) :
    s.Leads (s.change k f) := by
  refine leads_of_atWork rfl ?_
  rw [atWork_change, (hf _).1, (hf _).2]
  exact HostAtWork.put_self rfl

theorem leads_registry (s : Site) (op : RegistryOp) :
    s.Leads { s with dispatcher.registry := op.apply s.dispatcher.registry } :=
  ⟨rfl, [.registry op], rfl⟩

theorem leads_react (s : Site) (k : Nat) (e : Event) : s.Leads (s.react k e) := by
  cases htask : (s.localEnd k).task with
  | none =>
    simp only [react, htask]
    exact .refl s
  | some t =>
    simp only [react, htask]
    obtain ⟨hrun, hnode⟩ := run_inside
      (s := s.change k fun e' => { e' with task := some (t.step s.node e).1 })
      (by rw [localEnd_change, if_pos rfl]) (t.step s.node e).2
    refine ⟨hnode, .event k e :: List.replicate (t.step s.node e).2.length (.effect k), ?_⟩
    have hevent : s.atWork.step s.node (.event k e) =
        (s.change k fun e' => { e' with task := some (t.step s.node e).1 }).inside k
          (t.step s.node e).2 := by
      rw [inside_change]
      exact HostAtWork.step_event htask rfl e
    rw [← hrun, ← hevent]
    rfl

theorem leads_hear (k fuel : Nat) (s : Site) : s.Leads (hear k fuel s) := by
  induction fuel generalizing s with
  | zero => exact .refl s
  | succ fuel ih =>
    unfold hear
    split
    · exact .refl s
    · rename_i t _
      split
      · exact .refl s
      · have hreceive := leads_registry s (.receive t.registration)
        simp only
        split
        · exact hreceive.trans ((leads_react _ k _).trans (ih _))
        · exact hreceive.trans (leads_react _ k _)
        · exact hreceive.trans (leads_react _ k _)
        · exact hreceive

theorem leads_settle (s : Site) (k : Nat) : s.Leads (s.settle k) := by
  unfold settle
  split
  · exact .refl s
  · exact leads_hear k _ s

/-- Of a packet, only a chunk reaches the registry. -/
theorem leads_handle (s : Site) (p : Packet) :
    s.Leads { s with dispatcher := s.dispatcher.handle p } := by
  unfold Dispatcher.handle Dispatcher.route
  split
  · exact .refl s
  · split
    · exact ⟨rfl, [.registry (.deliver _)], rfl⟩
    · exact leads_of_atWork rfl rfl

theorem leads_dispatcher_run (s : Site) (packets : List Packet) :
    s.Leads { s with dispatcher := s.dispatcher.run packets } := by
  induction packets generalizing s with
  | nil => exact .refl s
  | cons p packets ih => exact (leads_handle s p).trans (ih _)

theorem leads_dispatch (s : Site) : s.Leads s.dispatch := by
  have hdrained : s.Leads { s with mesh := (s.mesh.drain s.inbox).2 } := leads_of_atWork rfl rfl
  have hread := hdrained.trans (leads_dispatcher_run _ (s.mesh.drain s.inbox).1)
  exact hread.trans (leads_foldl (fun s (e : Nat × LocalEnd) => leads_settle s e.1) _ _)

/-- A bridge that opens is seen streaming in a turn of its own. -/
theorem leads_openBridge (s : Site) (k : Nat) (host : String) (port : UInt16) :
    s.Leads (s.openBridge k host port).2 := by
  rcases hopen : Bridge.open? s.node (·.bind s.isTaken) (s.localEnd k).bridge
    ⟨s.dispatcher.registry, s.ports⟩ host port with ⟨e | ⟨a, t⟩, bridge, shared⟩
  · have hstep : s.atWork.step s.node (.opening k (·.bind s.isTaken) host port) =
        { s.atWork with shared }.put k ⟨bridge, (s.localEnd k).task, []⟩ := by
      simp only [HostAtWork.step, atWork, ne_eq, not_true_eq_false, if_false, hopen]
    refine ⟨?_, [.opening k (·.bind s.isTaken) host port], ?_⟩ <;> simp only [openBridge, hopen]
    · rfl
    · rw [atWork_change]
      exact hstep
  · have hstep : s.atWork.step s.node (.opening k (·.bind s.isTaken) host port) =
        { s.atWork with shared }.put k
          ⟨{ bridge with state := (s.localEnd k).bridge.state }, some t,
            [.become bridge.state]⟩ := by
      simp only [HostAtWork.step, atWork, ne_eq, not_true_eq_false, if_false, hopen]
    refine ⟨?_, [.opening k (·.bind s.isTaken) host port, .effect k], ?_⟩ <;>
      simp only [openBridge, hopen]
    · rfl
    · rw [HostAtWork.run, List.foldl_cons, hstep, List.foldl_cons, HostAtWork.step_effect_put,
        atWork_change]
      rfl

theorem leads_connect (h : s.connect k = .ok s') : s.Leads s' := by
  unfold connect at h
  split at h
  · cases h
  · cases h
    have hclient := leads_change (f := fun e => { e with client := some ⟨[], false⟩ })
      (fun _ => ⟨rfl, rfl⟩) s k
    exact (hclient.trans (leads_react _ k _)).trans (leads_settle _ k)

theorem leads_write (s : Site) (k : Nat) (octets : Bytes) : s.Leads (s.write k octets) :=
  leads_foldl (fun s _ => leads_react s k _) s _

theorem leads_finish (s : Site) (k : Nat) : s.Leads (s.finish k) := leads_react s k _

theorem leads_leave (s : Site) (k : Nat) : s.Leads (s.leave k) := by
  unfold leave
  split
  · exact .refl s
  · exact (leads_react s k _).trans
      (leads_change (f := fun e => { e with client := none }) (fun _ => ⟨rfl, rfl⟩) _ k)

theorem leads_elapse (s : Site) : s.Leads s.elapse := by
  refine leads_foldl (fun s e => ?_) s _
  split
  · exact leads_react s e.1 _
  · exact .refl s

theorem leads_gatewaySend (s : Site) (receiver : UInt64) (data : Data) :
    s.Leads (s.gatewaySend receiver data).2 :=
  have hsent : s.Leads
      { s with mesh := (s.mesh.send s.node.config.gatewayGid 0 ⟨receiver, data, false⟩).2 } :=
    leads_of_atWork rfl rfl
  hsent.trans (leads_dispatch _)

theorem leads_read? {count : Nat} {octets : Bytes} (h : s.read? k count = some (octets, s')) :
    s.Leads s' := by
  unfold read? at h
  obtain ⟨c, -, h⟩ := Option.bind_eq_some_iff.1 h
  split at h
  · cases h
    let taken : LocalClient := { c with unread := c.unread.drop count }
    exact leads_change (f := fun e => { e with client := some taken }) (fun _ => ⟨rfl, rfl⟩) s k
  · cases h

theorem leads_gatewayReceive? {goal : Option Nat} {packets : List Packet}
    (h : s.gatewayReceive? goal = some (packets, s')) : s.Leads s' := by
  obtain ⟨⟨before, after⟩, -, h⟩ := Option.map_eq_some_iff.1 h
  cases h
  exact leads_of_atWork rfl rfl

end

/-- The sites that a new one becomes when it is used. -/
inductive InUse (node : Node) (network : LocalNetwork) : Site → Prop where
  | new : InUse node network (.new node network)
  | openBridge {s : Site} (k : Nat) (host : String) (port : UInt16) :
      InUse node network s → InUse node network (s.openBridge k host port).2
  | connect {s s' : Site} {k : Nat} (hconnect : s.connect k = .ok s') :
      InUse node network s → InUse node network s'
  | write {s : Site} (k : Nat) (octets : Bytes) :
      InUse node network s → InUse node network (s.write k octets)
  | read {s s' : Site} {k count : Nat} {octets : Bytes}
      (hread : s.read? k count = some (octets, s')) :
      InUse node network s → InUse node network s'
  | finish {s : Site} (k : Nat) : InUse node network s → InUse node network (s.finish k)
  | leave {s : Site} (k : Nat) : InUse node network s → InUse node network (s.leave k)
  | elapse {s : Site} : InUse node network s → InUse node network s.elapse
  | gatewaySend {s : Site} (receiver : UInt64) (data : Data) :
      InUse node network s → InUse node network (s.gatewaySend receiver data).2
  | gatewayReceive {s s' : Site} {goal : Option Nat} {packets : List Packet}
      (hreceive : s.gatewayReceive? goal = some (packets, s')) :
      InUse node network s → InUse node network s'

/-- What a site in use has come to, a node comes to in turns, and no task has more to do. -/
theorem InUse.exists_run {node : Node} {network : LocalNetwork} {s : Site}
    (h : InUse node network s) :
    ∃ turns,
      (HostAtWork.new (.new node.config.loopbackBasePort)).run node turns = s.atWork := by
  have hleads : (Site.new node network).Leads s := by
    induction h with
    | new => exact .refl _
    | openBridge k host port _ ih => exact ih.trans (leads_openBridge _ k host port)
    | connect hconnect _ ih => exact ih.trans (leads_connect hconnect)
    | write k octets _ ih => exact ih.trans (leads_write _ k octets)
    | read hread _ ih => exact ih.trans (leads_read? hread)
    | finish k _ ih => exact ih.trans (leads_finish _ k)
    | leave k _ ih => exact ih.trans (leads_leave _ k)
    | elapse _ ih => exact ih.trans (leads_elapse _)
    | gatewaySend receiver data _ ih => exact ih.trans (leads_gatewaySend _ receiver data)
    | gatewayReceive hreceive _ ih => exact ih.trans (leads_gatewayReceive? hreceive)
  exact hleads.2

end Site

end Meshway
