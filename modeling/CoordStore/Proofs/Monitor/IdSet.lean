import CoordStore.Proofs.Service.Watched
import CoordStore.Entity.Monitor
import Mathlib.Data.Finset.Basic

/-!
# The id-set monitor follows the root's children

An id-set monitor is followed along a run: operations on the service through any handles, the
watchers each operation calls, and calls of `start` and `stop` (`IdSetRun`). The manager's root
is a node `r` that stays in place, and no read names the monitor's watcher.

Along every such run (`idSetMonitor_follows_root`): a started monitor knows exactly the ids its
root's children read as; replaying the events it sent gives what it knows; each call sends
nothing or the events of one refresh, the new ids in ascending order of their names; its
watcher waits only on the root's children, once, and while the monitor is started it waits
there. The reason is that a watcher an operation does not call still waits and sees what it saw
(`Action.keeps_watched`), and a refresh makes the known ids the listed ones.

The events of a refresh are not always ones the replayed set can take. Two names such as `007`
and `7` read as the same number, and a refresh that lists both sends `created 7` twice
(`idSetMonitor_sends_created_twice`). When no two children read as one id, every creation comes
for an id the set lacks, and every deletion for one it holds.
-/

namespace CoordStore

/-! ## Replaying events -/

namespace IdSetEvent

/-- The set of ids after an event: a creation adds its id, a deletion takes it away. -/
def apply (s : Finset EntityId) : IdSetEvent → Finset EntityId
  | created x => insert x s
  | deleted x => s.erase x

/-- The set after an event that it can take, a creation of an id it lacks or a deletion of one
it holds; nothing after any other event. -/
def accept? (s : Finset EntityId) : IdSetEvent → Option (Finset EntityId)
  | created x => if x ∈ s then none else some (insert x s)
  | deleted x => if x ∈ s then some (s.erase x) else none

/-- The set a list of events leads to from `s`. -/
def replay (s : Finset EntityId) (evs : List IdSetEvent) : Finset EntityId :=
  evs.foldl apply s

/-- The same, refusing the whole list if one event comes when the set cannot take it. -/
def replay? (s : Finset EntityId) (evs : List IdSetEvent) : Option (Finset EntityId) :=
  evs.foldlM accept? s

@[simp] theorem replay_nil (s : Finset EntityId) : replay s [] = s := rfl

@[simp] theorem replay_cons (s : Finset EntityId) (e : IdSetEvent) (evs : List IdSetEvent) :
    replay s (e :: evs) = replay (apply s e) evs := rfl

@[simp] theorem replay_append (s : Finset EntityId) (evs evs' : List IdSetEvent) :
    replay s (evs ++ evs') = replay (replay s evs) evs' :=
  List.foldl_append

@[simp] theorem replay?_nil (s : Finset EntityId) : replay? s [] = some s := rfl

theorem replay?_cons (s : Finset EntityId) (e : IdSetEvent) (evs : List IdSetEvent) :
    replay? s (e :: evs) = (accept? s e).bind fun t => replay? t evs := rfl

theorem replay?_append (s : Finset EntityId) (evs evs' : List IdSetEvent) :
    replay? s (evs ++ evs') = (replay? s evs).bind fun t => replay? t evs' :=
  List.foldlM_append

theorem replay_created (s : Finset EntityId) (ids : List EntityId) :
    replay s (ids.map created) = s ∪ ids.toFinset := by
  induction ids generalizing s with
  | nil => simp
  | cons x ids ih =>
    rw [List.map_cons, replay_cons, apply, ih]
    ext y
    simp

theorem replay_deleted (s : Finset EntityId) (ids : List EntityId) :
    replay s (ids.map deleted) = s \ ids.toFinset := by
  induction ids generalizing s with
  | nil => simp
  | cons x ids ih =>
    rw [List.map_cons, replay_cons, apply, ih]
    ext y
    simp only [Finset.mem_sdiff, Finset.mem_erase, List.toFinset_cons, Finset.mem_insert,
      List.mem_toFinset, not_or]
    tauto

/-- Creations of ids the set lacks, each once, all come when the set can take them. -/
theorem replay?_created {s : Finset EntityId} {ids : List EntityId} (hnew : ∀ x ∈ ids, x ∉ s)
    (hnd : ids.Nodup) : replay? s (ids.map created) = some (s ∪ ids.toFinset) := by
  induction ids generalizing s with
  | nil => simp
  | cons x ids ih =>
    obtain ⟨hx, hnd⟩ := List.nodup_cons.1 hnd
    have hxs : x ∉ s := hnew x List.mem_cons_self
    have hrest : ∀ y ∈ ids, y ∉ insert x s := by
      intro y hy
      rw [Finset.mem_insert, not_or]
      exact ⟨fun h => hx (h ▸ hy), hnew y (List.mem_cons_of_mem x hy)⟩
    rw [List.map_cons, replay?_cons, accept?, if_neg hxs, Option.bind_some, ih hrest hnd]
    congr 1
    ext y
    simp

/-- Deletions of ids the set holds, each once, all come when the set can take them. -/
theorem replay?_deleted {s : Finset EntityId} {ids : List EntityId} (hold : ∀ x ∈ ids, x ∈ s)
    (hnd : ids.Nodup) : replay? s (ids.map deleted) = some (s \ ids.toFinset) := by
  induction ids generalizing s with
  | nil => simp
  | cons x ids ih =>
    obtain ⟨hx, hnd⟩ := List.nodup_cons.1 hnd
    have hrest : ∀ y ∈ ids, y ∈ s.erase x := fun y hy =>
      Finset.mem_erase.2 ⟨fun h => hx (h ▸ hy), hold y (List.mem_cons_of_mem x hy)⟩
    rw [List.map_cons, replay?_cons, accept?, if_pos (hold x List.mem_cons_self),
      Option.bind_some, ih hrest hnd]
    congr 1
    ext y
    simp only [Finset.mem_sdiff, Finset.mem_erase, List.toFinset_cons, Finset.mem_insert,
      List.mem_toFinset, not_or]
    tauto

end IdSetEvent

/-- A listing only registers the watcher it is given. -/
theorem Manager.tree_listAndWatch {m : Manager} {sv sv' : Service} {v : Option Nat}
    {ids : List EntityId} (h : m.listAndWatch sv v = .ok (ids, sv')) :
    sv'.store.tree = sv.store.tree := by
  unfold Manager.listAndWatch at h
  split at h
  · rename_i names sv'' hch
    obtain ⟨id, rn, -, -, heq⟩ := (Handle.children_eq_ok _).1 hch
    simp only [Except.ok.injEq, Prod.mk.injEq] at h heq
    rw [← h.2, heq.2]
    exact Store.tree_arm _ _ _ _
  · cases h

namespace IdSetMonitor

open IdSetEvent

/-- The ids a refresh leads to from the known ones: those known, with the new ones added and
the ones gone taken away, are the listed ones. -/
theorem changes_toFinset (known ids : List EntityId) :
    (known.toFinset ∪ (ids.filter (!known.contains ·)).toFinset) \
      (known.filter (!ids.contains ·)).toFinset = ids.toFinset := by
  ext x
  by_cases hx : x ∈ ids <;> by_cases hk : x ∈ known <;> simp [hx, hk]

/-- Replaying the events of a refresh from the known ids gives the listed ones. -/
theorem replay_changes (known ids : List EntityId) :
    replay known.toFinset (changes known ids) = ids.toFinset := by
  rw [changes, replay_append, replay_created, replay_deleted, changes_toFinset]

/-- When neither the known ids nor the listed ones repeat, each event of a refresh comes when
the set replayed from the known ids can take it. -/
theorem replay?_changes {known ids : List EntityId} (hk : known.Nodup) (hi : ids.Nodup) :
    replay? known.toFinset (changes known ids) = some ids.toFinset := by
  have hnew : ∀ x ∈ ids.filter (!known.contains ·), x ∉ known.toFinset := by
    intro x hx
    simpa using (List.mem_filter.1 hx).2
  have hold : ∀ x ∈ known.filter (!ids.contains ·),
      x ∈ known.toFinset ∪ (ids.filter (!known.contains ·)).toFinset := fun x hx =>
    Finset.mem_union_left _ (List.mem_toFinset.2 (List.mem_filter.1 hx).1)
  rw [changes, replay?_append, replay?_created hnew (hi.filter _), Option.bind_some,
    replay?_deleted hold (hk.filter _), changes_toFinset]

/-- The ids below a root node: the names of its children that read as ids, in ascending order
of name. -/
def idsBelow (m : Manager) (rn : Node) : List EntityId :=
  rn.childNames.filterMap m.ids.parse

variable {mon : IdSetMonitor} {sv : Service} {r : Nat} {rn : Node}

theorem toFinset_eraseDups (ids : List EntityId) : ids.eraseDups.toFinset = ids.toFinset := by
  ext x
  simp [List.mem_eraseDups]

theorem refresh_watcher (mon : IdSetMonitor) (sv : Service) :
    (mon.refresh sv).2.1.watcher = mon.watcher := by
  simp only [refresh]
  split_ifs <;> (try split) <;> rfl

/-- A refresh changes no node: listing only registers the watcher. -/
theorem tree_refresh (mon : IdSetMonitor) (sv : Service) :
    (mon.refresh sv).2.2.store.tree = sv.store.tree := by
  simp only [refresh]
  split_ifs with hopen hstop hstop'
  · rfl
  · split
    · rfl
    · exact Manager.tree_listAndWatch ‹_›
  · rfl
  · simp at hstop'

/-- A stopped monitor with a reader lists nothing and sends nothing. -/
theorem refresh_of_stopped (hopen : mon.isOpen = true) (hstop : mon.stopped = true) :
    mon.refresh sv = (.ok ([], []), mon, sv) := by
  simp [refresh, hopen, hstop]

/-- A running monitor with a reader, whose root is the node `r`, lists the ids below `r`, arms
its watcher on the children of `r`, and sends the changes from what it knew. -/
theorem refresh_of_root (hopen : mon.isOpen = true) (hstop : mon.stopped = false)
    (hroot : sv.store.resolve mon.manager.handle.root mon.manager.root = .ok r)
    (hr : sv.store.tree.nodes[r]? = some rn) :
    mon.refresh sv =
      (.ok (idsBelow mon.manager rn, changes mon.known (idsBelow mon.manager rn)),
        { mon with known := (idsBelow mon.manager rn).eraseDups },
        { sv with store := sv.store.arm r .children (some mon.watcher) }) := by
  have hch : mon.manager.handle.children sv mon.manager.root (some mon.watcher) =
      .ok (rn.childNames, { sv with store := sv.store.arm r .children (some mon.watcher) }) :=
    (Handle.children_eq_ok _).2 ⟨r, rn, hroot, hr, rfl⟩
  simp [refresh, hopen, hstop, Manager.listAndWatch, hch, idsBelow]

/-- The service a refresh leaves is the one a read of the root's children with the monitor's
watcher leaves. -/
theorem refreshed_service (hroot : sv.store.resolve mon.manager.handle.root mon.manager.root = .ok r)
    (hr : sv.store.tree.nodes[r]? = some rn) :
    { sv with store := sv.store.arm r .children (some mon.watcher) } =
      ((Action.children mon.manager.handle mon.manager.root (some mon.watcher)).step sv).1 := by
  simp [Action.step, (Handle.children_eq_ok _).2 ⟨r, rn, hroot, hr, rfl⟩]

end IdSetMonitor

/-! ## Runs of a monitor -/

/-- A service with an id-set monitor following it: the events the monitor has sent, oldest
first, and whether `start` was called and not followed by `stop`. -/
structure IdSetRun where
  service : Service
  monitor : IdSetMonitor
  events : List IdSetEvent
  started : Bool

namespace IdSetRun

/-- What a run does next: an operation on the service, through any handle, or a call of the
monitor. -/
inductive Call where
  | op (a : Action)
  | start
  | stop

/-- A call that does not name the watcher `w`: only a read names a watcher. -/
def Call.Avoids (w : Nat) : Call → Prop
  | .op a => a.watcher? ≠ some w
  | _ => True

/-- The events a refresh sends: its events if it listed, none if it failed. -/
def sent : Except Failure (List EntityId × List IdSetEvent) → List IdSetEvent
  | .ok (_, evs) => evs
  | .error _ => []

/-- The run after a refresh: the service and monitor it left, and the events it sent. -/
def took (s : IdSetRun) (res : IdSetMonitor.Refreshed) : IdSetRun :=
  { s with service := res.2.2, monitor := res.2.1, events := s.events ++ sent res.1 }

/-- The run after its monitor refreshed. -/
def refreshed (s : IdSetRun) : IdSetRun :=
  s.took (s.monitor.refresh s.service)

/-- Calls a watcher: the monitor's own refreshes it, and any other changes nothing the monitor
sees. -/
def call (s : IdSetRun) (v : Nat) : IdSetRun :=
  if v = s.monitor.watcher then s.refreshed else s

/-- Calls watchers in turn. -/
def deliver (s : IdSetRun) (vs : List Nat) : IdSetRun :=
  vs.foldl call s

/-- The run after a call: an operation followed by the watchers it calls, or a call of the
monitor. -/
def step (s : IdSetRun) : Call → IdSetRun
  | .op a => { s with service := (a.step s.service).1 }.deliver (a.step s.service).2
  | .start => { s.took (s.monitor.start s.service) with started := true }
  | .stop => { s with monitor := s.monitor.stop, started := false }

/-- The runs from a new monitor of `m` with the watcher `w`, over a reachable service where `w`
waits nowhere, through services that satisfy `P` after every call, with no read naming `w`. -/
inductive Reachable (m : Manager) (w : Nat) (P : Service → Prop) : IdSetRun → Prop
  | init {sv : Service} : sv.Reachable → P sv → (∀ n k, w ∉ sv.store.watches.waiting n k) →
      Reachable m w P
        { service := sv, monitor := IdSetMonitor.make m w, events := [], started := false }
  | step {s : IdSetRun} (c : Call) : Reachable m w P s → c.Avoids w → P (s.step c).service →
      Reachable m w P (s.step c)

/-! ## Delivering watchers -/

theorem watcher_refreshed (s : IdSetRun) : s.refreshed.monitor.watcher = s.monitor.watcher :=
  IdSetMonitor.refresh_watcher s.monitor s.service

theorem deliver_of_not_mem {s : IdSetRun} {vs : List Nat} (hw : s.monitor.watcher ∉ vs) :
    s.deliver vs = s := by
  induction vs with
  | nil => rfl
  | cons v vs ih =>
    have hv : v ≠ s.monitor.watcher := fun h => hw (h ▸ List.mem_cons_self)
    simp only [deliver, List.foldl_cons, call, if_neg hv]
    exact ih fun h => hw (List.mem_cons_of_mem v h)

/-- Watchers called once each refresh the monitor once if its own is among them. -/
theorem deliver_of_mem {s : IdSetRun} {vs : List Nat} (hnd : vs.Nodup)
    (hw : s.monitor.watcher ∈ vs) : s.deliver vs = s.refreshed := by
  induction vs with
  | nil => cases hw
  | cons v vs ih =>
    obtain ⟨hv, hnd⟩ := List.nodup_cons.1 hnd
    simp only [deliver, List.foldl_cons, call]
    by_cases hvw : v = s.monitor.watcher
    · rw [if_pos hvw]
      subst hvw
      exact deliver_of_not_mem (by rwa [watcher_refreshed])
    · rw [if_neg hvw]
      exact ih hnd ((List.mem_cons.1 hw).resolve_left (Ne.symm hvw))

/-! ## What holds along a run -/

theorem tree_refreshed (s : IdSetRun) :
    s.refreshed.service.store.tree = s.service.store.tree :=
  IdSetMonitor.tree_refresh s.monitor s.service

theorem tree_deliver (s : IdSetRun) (vs : List Nat) :
    (s.deliver vs).service.store.tree = s.service.store.tree := by
  induction vs generalizing s with
  | nil => rfl
  | cons v vs ih =>
    rw [deliver, List.foldl_cons, ← deliver, ih]
    unfold call
    split_ifs
    · exact tree_refreshed s
    · rfl

variable {m : Manager} {w r : Nat} {s : IdSetRun} {rn : Node}

theorem refreshed_of_stopped (hopen : s.monitor.isOpen = true)
    (hstop : s.monitor.stopped = true) : s.refreshed = s := by
  simp [refreshed, took, IdSetMonitor.refresh_of_stopped hopen hstop, sent]

theorem refreshed_of_root (hopen : s.monitor.isOpen = true) (hstop : s.monitor.stopped = false)
    (hroot : s.service.store.resolve s.monitor.manager.handle.root s.monitor.manager.root =
      .ok r)
    (hr : s.service.store.tree.nodes[r]? = some rn) :
    s.refreshed =
      { s with
        service := { s.service with
          store := s.service.store.arm r .children (some s.monitor.watcher) }
        monitor := { s.monitor with
          known := (IdSetMonitor.idsBelow s.monitor.manager rn).eraseDups }
        events := s.events ++
          IdSetMonitor.changes s.monitor.known (IdSetMonitor.idsBelow s.monitor.manager rn) } := by
  simp [refreshed, took, IdSetMonitor.refresh_of_root hopen hstop hroot hr, sent]

/-- What holds along a run of the monitor of `m` with the watcher `w` whose root is the node
`r`, started or not. -/
structure Base (m : Manager) (w r : Nat) (s : IdSetRun) : Prop where
  reachable : s.service.Reachable
  manager : s.monitor.manager = m
  watcher : s.monitor.watcher = w
  isOpen : s.monitor.isOpen = true
  /-- The watcher waits on the root's children, if anywhere. -/
  only : ∀ n k, w ∈ s.service.store.watches.waiting n k → n = r ∧ k = .children
  nodup : s.monitor.known.Nodup
  /-- Replaying the events gives the known ids. -/
  replay : IdSetEvent.replay ∅ s.events = s.monitor.known.toFinset

/-- The monitor runs, its watcher waits on the root's children, and it knows the ids below the
root. -/
def Current (m : Manager) (w r : Nat) (s : IdSetRun) : Prop :=
  s.monitor.stopped = false ∧ w ∈ s.service.store.watches.waiting r .children ∧
    ∃ rn, s.service.store.tree.nodes[r]? = some rn ∧
      s.monitor.known = (IdSetMonitor.idsBelow m rn).eraseDups

/-- The invariant of a run: a started monitor is current. -/
structure Inv (m : Manager) (w r : Nat) (s : IdSetRun) : Prop extends Base m w r s where
  started : s.started = true → Current m w r s

/-- What a call did to the events and the known ids: nothing, or one refresh that listed the
ids below the root node `rn`. -/
def Sent (m : Manager) (rn : Node) (s s' : IdSetRun) : Prop :=
  (s'.events = s.events ∧ s'.monitor.known = s.monitor.known) ∨
    (s'.events = s.events ++ IdSetMonitor.changes s.monitor.known (IdSetMonitor.idsBelow m rn) ∧
      s'.monitor.known = (IdSetMonitor.idsBelow m rn).eraseDups)

/-- A refresh of a running monitor whose root is `r` makes it current, and sends the changes
from what it knew to the ids below the root. -/
theorem Base.refreshed (hb : s.Base m w r) (hstop : s.monitor.stopped = false)
    (hroot : s.service.store.resolve m.handle.root m.root = .ok r) :
    ∃ rn, s.service.store.tree.nodes[r]? = some rn ∧ s.refreshed.Base m w r ∧
      Current m w r s.refreshed ∧ Sent m rn s s.refreshed := by
  obtain ⟨rn, hr⟩ := Store.get_of_resolve_eq_ok hroot
  have hroot' := hroot
  rw [← hb.manager] at hroot'
  rw [refreshed_of_root hb.isOpen hstop hroot' hr, hb.manager, hb.watcher]
  refine ⟨rn, hr, ⟨?_, hb.manager, hb.watcher, hb.isOpen, ?_, nodup_eraseDups _, ?_⟩,
    ⟨hstop, Store.waiting_arm _ _ _ _ |>.2 (.inr ⟨rfl, rfl, rfl⟩), rn, hr, rfl⟩,
    .inr ⟨rfl, rfl⟩⟩
  · -- the refresh read the root's children with the monitor's watcher
    have hstep := IdSetMonitor.refreshed_service hroot' hr
    rw [hb.watcher, hb.manager] at hstep
    rw [hstep]
    exact .step _ hb.reachable
  · intro n k hw
    rcases (Store.waiting_arm _ _ _ _).1 hw with hw | ⟨-, rfl, rfl⟩
    · exact hb.only n k hw
    · exact ⟨rfl, rfl⟩
  · rw [IdSetEvent.replay_append, hb.replay, IdSetMonitor.replay_changes,
      IdSetMonitor.toFinset_eraseDups]

/-- A new monitor over a service where its watcher waits nowhere. -/
theorem inv_init {sv : Service} (hsv : sv.Reachable)
    (hfresh : ∀ n k, w ∉ sv.store.watches.waiting n k) :
    Inv m w r { service := sv, monitor := IdSetMonitor.make m w, events := [], started := false } :=
  { reachable := hsv, manager := rfl, watcher := rfl, isOpen := rfl,
    only := fun n k hw => absurd hw (hfresh n k), nodup := List.nodup_nil, replay := rfl,
    started := fun h => absurd h Bool.false_ne_true }

/-- An operation keeps the invariant: its watchers refresh a running monitor whose watcher it
called, and a started monitor whose watcher it did not call still knows the root's children. -/
theorem Inv.op (hi : s.Inv m w r) {a : Action} (ha : a.watcher? ≠ some w)
    (hroot : (s.step (.op a)).service.store.resolve m.handle.root m.root = .ok r) :
    (s.step (.op a)).Inv m w r ∧ ∃ rn, (s.step (.op a)).service.store.tree.nodes[r]? = some rn ∧
      Sent m rn s (s.step (.op a)) := by
  have hwf := hi.reachable.wf
  have hstep : s.step (.op a) =
      ({ s with service := (a.step s.service).1 } : IdSetRun).deliver (a.step s.service).2 := rfl
  -- right after the operation, before any watcher runs
  have htb : ({ s with service := (a.step s.service).1 } : IdSetRun).Base m w r :=
    { hi.toBase with
      reachable := .step a hi.reachable
      only := fun n k hw => hi.only n k ((a.waiting_step hwf hw).resolve_right ha) }
  have htroot : (a.step s.service).1.store.resolve m.handle.root m.root = .ok r := by
    rw [← hroot, hstep]
    exact Store.resolve_congr_tree
      (tree_deliver { s with service := (a.step s.service).1 } (a.step s.service).2).symm
  obtain ⟨rn', hr'⟩ := Store.get_of_resolve_eq_ok htroot
  by_cases hcall : w ∈ (a.step s.service).2
  · rw [hstep, deliver_of_mem (a.nodup_notify hwf) (by rwa [htb.watcher])]
    cases hstop : s.monitor.stopped
    · -- a running monitor refreshes
      obtain ⟨rn, hr, hb', hcur, hsent⟩ := htb.refreshed hstop htroot
      exact ⟨⟨hb', fun _ => hcur⟩, rn, (tree_refreshed _).symm ▸ hr, hsent⟩
    · -- a stopped one does nothing, and was not started
      rw [refreshed_of_stopped htb.isOpen hstop]
      refine ⟨⟨htb, fun hst => ?_⟩, rn', hr', .inl ⟨rfl, rfl⟩⟩
      have hrun := (hi.started hst).1
      rw [hstop] at hrun
      cases hrun
  · rw [hstep, deliver_of_not_mem (by rwa [htb.watcher])]
    refine ⟨⟨htb, fun hst => ?_⟩, rn', hr', .inl ⟨rfl, rfl⟩⟩
    -- the watcher was not called, so the root's children are the ones the monitor knows
    obtain ⟨hstop, harmed, rn, hr, hknown⟩ := hi.started hst
    obtain ⟨harmed', hsame⟩ := a.keeps_watched hwf harmed hcall hr hr'
    refine ⟨hstop, harmed', rn', hr', ?_⟩
    rw [hknown, IdSetMonitor.idsBelow, IdSetMonitor.idsBelow, Node.childNames, Node.childNames,
      show rn.children = rn'.children from hsame]

/-- Starting refreshes the monitor, told to run, and makes it current. -/
theorem Inv.start (hi : s.Inv m w r)
    (hroot : (s.step .start).service.store.resolve m.handle.root m.root = .ok r) :
    (s.step .start).Inv m w r ∧ ∃ rn, (s.step .start).service.store.tree.nodes[r]? = some rn ∧
      Sent m rn s (s.step .start) := by
  have hstep : s.step .start =
      { ({ s with monitor := { s.monitor with stopped := false } } : IdSetRun).refreshed with
        started := true } := rfl
  have htb : ({ s with monitor := { s.monitor with stopped := false } } : IdSetRun).Base m w r :=
    ⟨hi.reachable, hi.manager, hi.watcher, hi.isOpen, hi.only, hi.nodup, hi.replay⟩
  have htroot : s.service.store.resolve m.handle.root m.root = .ok r := by
    rw [← hroot, hstep]
    exact Store.resolve_congr_tree
      (tree_refreshed { s with monitor := { s.monitor with stopped := false } }).symm
  obtain ⟨rn, hr, hb', hcur, hsent⟩ := htb.refreshed rfl htroot
  rw [hstep]
  exact ⟨⟨⟨hb'.1, hb'.2, hb'.3, hb'.4, hb'.5, hb'.6, hb'.7⟩, fun _ => hcur⟩, rn,
    (tree_refreshed _).symm ▸ hr, hsent⟩

/-- Stopping changes what the monitor will do, and nothing it knows. -/
theorem Inv.stop (hi : s.Inv m w r)
    (hroot : (s.step .stop).service.store.resolve m.handle.root m.root = .ok r) :
    (s.step .stop).Inv m w r ∧ ∃ rn, (s.step .stop).service.store.tree.nodes[r]? = some rn ∧
      Sent m rn s (s.step .stop) := by
  obtain ⟨rn, hr⟩ := Store.get_of_resolve_eq_ok hroot
  exact ⟨⟨⟨hi.reachable, hi.manager, hi.watcher, hi.isOpen, hi.only, hi.nodup, hi.replay⟩,
    fun h => absurd h Bool.false_ne_true⟩, rn, hr, .inl ⟨rfl, rfl⟩⟩

/-- One call keeps the invariant, and sends nothing or the events of one refresh of the ids
below the root as it is after the call. -/
theorem Inv.step (hi : s.Inv m w r) {c : Call} (hc : c.Avoids w)
    (hroot : (s.step c).service.store.resolve m.handle.root m.root = .ok r) :
    (s.step c).Inv m w r ∧ ∃ rn, (s.step c).service.store.tree.nodes[r]? = some rn ∧
      Sent m rn s (s.step c) := by
  cases c with
  | op a => exact hi.op hc hroot
  | start => exact hi.start hroot
  | stop => exact hi.stop hroot

variable {P : Service → Prop}

/-- Every run through services where the root is `r` keeps the invariant. -/
theorem Reachable.inv (hP : ∀ sv, P sv → sv.store.resolve m.handle.root m.root = .ok r)
    (hs : s.Reachable m w P) : s.Inv m w r := by
  induction hs with
  | init hsv _ hfresh => exact inv_init hsv hfresh
  | step c _ hc hPc ih => exact (ih.step hc (hP _ hPc)).1

/-- Along a run through services where no two children of the root read as one id, every event
comes when the replayed set can take it. -/
theorem Reachable.replay? (hP : ∀ sv, P sv → sv.store.resolve m.handle.root m.root = .ok r)
    (hnd : ∀ sv, P sv → ∀ rn, sv.store.tree.nodes[r]? = some rn →
      (IdSetMonitor.idsBelow m rn).Nodup)
    (hs : s.Reachable m w P) : IdSetEvent.replay? ∅ s.events = some s.monitor.known.toFinset := by
  induction hs with
  | init => rfl
  | step c hs hc hPc ih =>
    obtain ⟨-, rn, hr, hsent⟩ := (hs.inv hP).step hc (hP _ hPc)
    rcases hsent with ⟨hev, hkn⟩ | ⟨hev, hkn⟩
    · rw [hev, hkn, ih]
    · rw [hev, hkn, IdSetEvent.replay?_append, ih, Option.bind_some,
        IdSetMonitor.replay?_changes (hs.inv hP).nodup (hnd _ hPc rn hr),
        IdSetMonitor.toFinset_eraseDups]

end IdSetRun

/-! ## The monitor follows the root's children -/

open IdSetRun in
/-- Along every run of an id-set monitor whose root stays the node `r` and whose watcher no
read names: a started monitor knows exactly the ids its root's children read as; replaying its
events gives what it knows, and every event comes when the replayed set can take it if no two
children of the root read as one id; each call sends nothing or the events of one refresh,
whose new ids come in the ascending order of the root's child names; and the watcher waits on
the root's children only, at most once, and does so while the monitor is started. -/
theorem idSetMonitor_follows_root {m : Manager} {w r : Nat} {P : Service → Prop}
    (hP : ∀ sv, P sv → sv.store.resolve m.handle.root m.root = .ok r)
    {s : IdSetRun} (hs : s.Reachable m w P) :
    (s.started = true → ∃ rn, s.service.store.tree.nodes[r]? = some rn ∧
      ∀ x, x ∈ s.monitor.known ↔ ∃ name ∈ rn.childNames, m.ids.parse name = some x) ∧
    IdSetEvent.replay ∅ s.events = s.monitor.known.toFinset ∧
    ((∀ sv, P sv → ∀ rn, sv.store.tree.nodes[r]? = some rn →
        (IdSetMonitor.idsBelow m rn).Nodup) →
      IdSetEvent.replay? ∅ s.events = some s.monitor.known.toFinset) ∧
    (∀ c, c.Avoids w → P (s.step c).service →
      ∃ rn, (s.step c).service.store.tree.nodes[r]? = some rn ∧
        rn.childNames.Pairwise (fun a b => compare a b = .lt) ∧ Sent m rn s (s.step c)) ∧
    (∀ n k, w ∈ s.service.store.watches.waiting n k → n = r ∧ k = .children) ∧
    (s.service.store.watches.waiting r .children).count w ≤ 1 ∧
    (s.started = true → w ∈ s.service.store.watches.waiting r .children) := by
  have hi := hs.inv hP
  refine ⟨fun hst => ?_, hi.replay, fun hnd => hs.replay? hP hnd, fun c hc hPc => ?_, hi.only,
    ?_, fun hst => (hi.started hst).2.1⟩
  · obtain ⟨-, -, rn, hr, hknown⟩ := hi.started hst
    refine ⟨rn, hr, fun x => ?_⟩
    rw [hknown, List.mem_eraseDups, IdSetMonitor.idsBelow, List.mem_filterMap]
  · obtain ⟨-, rn, hr, hsent⟩ := hi.step hc (hP _ hPc)
    exact ⟨rn, hr, Std.ExtTreeMap.ordered_keys, hsent⟩
  · -- a registry keeps each watcher once per set
    exact List.nodup_iff_count_le_one.1
      (Registry.nodup_waiting hi.reachable.wf.sound r .children) w

/-! ## Two names, one id -/

/-- The manager of `u64` ids below `/hosts`, through the top handle of session 0. -/
def hostsManager : Manager :=
  { handle := Handle.top 0, root := "/hosts", ids := .u64, kind := .u64,
    rootNames := ["hosts"], segments_root := by decide }

/-- The service where `/hosts` has the children `007` and `7`. -/
def hostsService : Service :=
  Action.run [.add (Handle.top 0) "/hosts" none .persistent,
    .add (Handle.top 0) "/hosts/007" none .persistent,
    .add (Handle.top 0) "/hosts/7" none .persistent] Service.empty

/-- The run where a new monitor of `/hosts`, with the watcher 0, was started. -/
def hostsStarted : IdSetRun :=
  IdSetRun.step
    { service := hostsService, monitor := IdSetMonitor.make hostsManager 0, events := [],
      started := false } .start

theorem hostsStarted_reachable :
    hostsStarted.Reachable hostsManager 0
      (fun sv => sv.store.resolve Tree.rootId "/hosts" = .ok 1) := by
  have hfresh : ∀ n k, 0 ∉ hostsService.store.watches.waiting n k := by
    intro n k hw
    have h := Action.waiting_run 0 _ Service.wf_empty (by decide) hw
    cases k <;> simp [Service.empty, Store.empty, Registry.empty, Registry.waiting,
      Registry.table] at h
  exact .step .start (.init (Service.reachable_run _ .empty) rfl hfresh) trivial rfl

/-- At `/hosts` with children `007` and `7`, the replayed events are the known ids. -/
theorem idSetMonitor_follows_root_at_hosts :
    IdSetEvent.replay ∅ hostsStarted.events = hostsStarted.monitor.known.toFinset :=
  (idSetMonitor_follows_root (fun _ h => h) hostsStarted_reachable).2.1

/-- Starting a monitor of `/hosts` whose children `007` and `7` both read as the id 7 sends
`created 7` twice: the second comes when 7 is already in the replayed set. -/
theorem idSetMonitor_sends_created_twice :
    ∃ s : IdSetRun, s.Reachable hostsManager 0
        (fun sv => sv.store.resolve Tree.rootId "/hosts" = .ok 1) ∧
      s.events = [.created (.nat 7), .created (.nat 7)] ∧ IdSetEvent.replay? ∅ s.events = none :=
  ⟨hostsStarted, hostsStarted_reachable, by decide, by decide⟩

end CoordStore
