import CoordStore.Proofs.Service.Place
import CoordStore.Proofs.Monitor.EntityRefresh

/-!
# The entity monitor reports each change once

An entity monitor watches single ids of a manager: each watched id has one watcher of the
monitor's own, armed on the id's node, and when it is called the monitor reads the node again,
arms the watcher again and reports what it read. Unwatching an id only marks it; its watcher
lapses the next time it is called.

A run (`EntityRun`) is a service with one entity monitor on it: operations on the service,
each followed by the calls of the watchers it delivers, and watch and unwatch calls on the
monitor. The monitor's watchers are numbers that nothing else in the run uses, each new one
waiting nowhere when it is taken, and watched ids are ids the manager's kind reads.

The main statement, `entityMonitor_reports_changes`, says of every state such a run reaches:
(a) at most one of the monitor's watchers waits on any node; (b) while an id is watched,
an operation that goes through and replaces the payload of its node or deletes the node is
followed by exactly what the node then shows: the entity read from its payload, nothing for a
node without payload, or the id's deletion, after which the id is no longer watched, and any
other operation by nothing for the id; (c) nothing is reported for an id that is not watched;
and a watch that fails leaves the id unwatched.

The argument is one invariant (`EntityRun.Holds`): every watcher of the monitor that waits, waits
on the data of the node its id's path finds, and is that id's watcher; every watched id's
watcher waits there. Operations keep it because a watcher not called keeps waiting on a node
that is still found by its path (`Action.keeps_waiting_data`, `Action.resolve_step`), and a
watcher called waits nowhere until the monitor arms it again.
-/

namespace CoordStore

/-! ## Runs -/

/-- A service with an entity monitor on it, the events the monitor sent so far, and the
watchers the monitor took, each with the id it refreshes when called. -/
structure EntityRun where
  service : Service
  monitor : EntityMonitor
  events : List EntityEvent
  owners : List (Nat × EntityId)

namespace EntityRun

/-- What happens in a run: an operation on the service, or a watch or unwatch call. -/
inductive Call where
  | op (a : Action)
  | watch (id : EntityId) (fresh : Nat)
  | unwatch (id : EntityId)

variable (s : EntityRun)

/-- The watchers the monitor took. -/
def watchers : List Nat :=
  s.owners.map Prod.fst

/-- A called watcher the monitor took refreshes its id and sends what the refresh gives; any
other watcher does nothing here. -/
def call (v : Nat) : EntityRun :=
  match s.owners.lookup v with
  | none => s
  | some x =>
    let r := s.monitor.refresh s.service x true
    { s with
      service := r.2.2
      monitor := r.2.1
      events := match r.1 with
        | .ok (_, evs) => s.events ++ evs
        | .error _ => s.events }

/-- Calls watchers in turn. -/
def deliver (vs : List Nat) : EntityRun :=
  vs.foldl call s

/-- One call of a run: an operation followed by the calls of the watchers it delivers, or a
watch, which takes `fresh` as the id's watcher if the id has no watch, or an unwatch. -/
def step : Call → EntityRun
  | .op a => { s with service := (a.step s.service).1 }.deliver (a.step s.service).2
  | .watch x fresh =>
    let r := s.monitor.watch s.service x fresh
    { s with
      service := r.2.2
      monitor := r.2.1
      owners := if (s.monitor.entry? x).isNone then (fresh, x) :: s.owners else s.owners }
  | .unwatch x => { s with monitor := (s.monitor.unwatch x).2 }

/-- What a run promises of a call: an operation's read names none of the monitor's watchers,
and a watch takes a new watcher that waits nowhere, for an id the manager's kind reads. -/
def Allows : Call → Prop
  | .op a => ∀ v ∈ s.watchers, a.watcher? ≠ some v
  | .watch x fresh => fresh ∉ s.watchers ∧
      (∀ p k, fresh ∉ s.service.store.watches.waiting p k) ∧ s.monitor.manager.ids.Reads x
  | .unwatch _ => True

/-- The states of runs from a reachable service with a new monitor of a manager. -/
inductive Reachable (m : Manager) : EntityRun → Prop where
  | init {sv : Service} : sv.Reachable → Reachable m ⟨sv, .make m, [], []⟩
  | step {s : EntityRun} (c : Call) : Reachable m s → s.Allows c → Reachable m (s.step c)

/-! ## The invariant -/

variable (m : Manager)

/-- The invariant of a run, `ps` being the called watchers not yet delivered: the monitor's
watchers that wait are their ids' watchers, waiting on the data of the nodes their ids' paths
find, and every watched id's watcher not yet delivered waits there. -/
structure Holds (ps : List Nat) (s : EntityRun) : Prop where
  reachable : s.service.Reachable
  manager : s.monitor.manager = m
  isOpen : s.monitor.isOpen = true
  nodup : s.watchers.Nodup
  owned : ∀ x e, s.monitor.entry? x = some e → (e.watcher, x) ∈ s.owners
  reads : ∀ v x, (v, x) ∈ s.owners → m.ids.Reads x
  waits : ∀ v x, (v, x) ∈ s.owners → ∀ p k, v ∈ s.service.store.watches.waiting p k →
    k = .data ∧ (∃ e, s.monitor.entry? x = some e ∧ e.watcher = v) ∧
      s.service.store.resolve m.handle.root (m.entityPath x) = .ok p
  pending : ∀ v ∈ ps, ∀ x, (v, x) ∈ s.owners →
    ∃ e, s.monitor.entry? x = some e ∧ e.watcher = v
  armed : ∀ x e, s.monitor.entry? x = some e → e.active = true → e.watcher ∉ ps →
    ∃ N, s.service.store.resolve m.handle.root (m.entityPath x) = .ok N ∧
      e.watcher ∈ s.service.store.watches.waiting N .data

/-- The called watchers of the monitor still to be delivered wait nowhere, and their ids'
paths are paths. -/
def Called (ps : List Nat) (s : EntityRun) : Prop :=
  ∀ v ∈ ps, ∀ x, (v, x) ∈ s.owners →
    (∀ p k, v ∉ s.service.store.watches.waiting p k) ∧
      ∃ names, Path.segments (m.entityPath x) = .ok names

variable {m} {s}

theorem holds_init {sv : Service} (hsv : sv.Reachable) : Holds m [] ⟨sv, .make m, [], []⟩ where
  reachable := hsv
  manager := rfl
  isOpen := rfl
  nodup := List.nodup_nil
  owned := by simp [EntityMonitor.entry?, EntityMonitor.make]
  reads := by simp
  waits := by simp
  pending := by simp
  armed := by simp [EntityMonitor.entry?, EntityMonitor.make]

namespace Holds

variable {ps : List Nat} {v w : Nat}

/-- A watcher the monitor took refreshes one id. -/
theorem owner_eq (h : Holds m ps s) {v : Nat} {x y : EntityId} (hx : (v, x) ∈ s.owners)
    (hy : (v, y) ∈ s.owners) : x = y :=
  (Prod.mk.inj (List.inj_on_of_nodup_map h.nodup hx hy rfl)).2

/-- Two ids with one watcher are one id. -/
theorem entry_eq (h : Holds m ps s) {x y : EntityId} {e e' : EntityWatch}
    (hx : s.monitor.entry? x = some e) (hy : s.monitor.entry? y = some e')
    (hw : e.watcher = e'.watcher) : x = y :=
  h.owner_eq (h.owned x e hx) (hw ▸ h.owned y e' hy)

theorem lookup_eq_some (h : Holds m ps s) {v : Nat} {x : EntityId} (hx : (v, x) ∈ s.owners) :
    s.owners.lookup v = some x := by
  cases hl : s.owners.lookup v with
  | none =>
    have hne := List.lookup_eq_none_iff.1 hl (v, x) hx
    simp at hne
  | some y =>
    obtain ⟨l₁, l₂, hsplit, -⟩ := List.lookup_eq_some_iff.1 hl
    exact congrArg some (h.owner_eq (by simp [hsplit]) hx)

theorem mem_of_lookup {v : Nat} {x : EntityId} (hl : s.owners.lookup v = some x) :
    (v, x) ∈ s.owners := by
  obtain ⟨l₁, l₂, hsplit, -⟩ := List.lookup_eq_some_iff.1 hl
  simp [hsplit]

/-- The one node a watcher of the monitor waits on: where its id's path leads. -/
theorem waits_at (h : Holds m ps s) {v : Nat} {x : EntityId} (hx : (v, x) ∈ s.owners) {p p' : Nat}
    {k k' : WatchKind} (hw : v ∈ s.service.store.watches.waiting p k)
    (hw' : v ∈ s.service.store.watches.waiting p' k') : p' = p ∧ k' = k := by
  obtain ⟨hk, -, hp⟩ := h.waits v x hx p k hw
  obtain ⟨hk', -, hp'⟩ := h.waits v x hx p' k' hw'
  rw [hp] at hp'
  exact ⟨(Except.ok.inj hp').symm, hk'.trans hk.symm⟩

/-- The invariant does not look at the events. -/
theorem events (h : Holds m ps s) (E : List EntityEvent) : Holds m ps { s with events := E } :=
  ⟨h.reachable, h.manager, h.isOpen, h.nodup, h.owned, h.reads, h.waits, h.pending, h.armed⟩

/-- A watcher that no longer belongs to the monitor's ids needs no delivery. -/
theorem drop (h : Holds m (v :: ps) s) (hv : ∀ x, (v, x) ∉ s.owners) : Holds m ps s :=
  { h with
    pending := fun v' hv' => h.pending v' (List.mem_cons_of_mem v hv')
    armed := fun x e he hact hps => h.armed x e he hact (by
      simp only [List.mem_cons, not_or]
      exact ⟨fun hw => hv x (hw ▸ h.owned x e he), hps⟩) }

/-- The last watcher to deliver needs no delivery once no active watch has it. -/
theorem settle (h : Holds m [w] s)
    (hw : ∀ y e, s.monitor.entry? y = some e → e.watcher = w → e.active = false) :
    Holds m [] s :=
  { h with
    pending := by simp
    armed := fun y e he hact _ => h.armed y e he hact (by
      intro hmem
      rw [hw y e he (List.mem_singleton.1 hmem)] at hact
      cases hact) }

/-- Making a watch inactive keeps the invariant. -/
theorem deactivate (h : Holds m ps s) (x : EntityId) :
    Holds m ps { s with monitor := s.monitor.deactivate x } where
  reachable := h.reachable
  manager := by simpa using h.manager
  isOpen := by simpa using h.isOpen
  nodup := h.nodup
  owned y e' he' := by
    obtain ⟨e, he, hw, -⟩ := EntityMonitor.entry?_deactivate_eq_some s.monitor x y he'
    exact hw ▸ h.owned y e he
  reads := h.reads
  waits v y hy p k hw := by
    obtain ⟨hk, ⟨e, he, rfl⟩, hp⟩ := h.waits v y hy p k hw
    obtain ⟨e', he', hw'⟩ := EntityMonitor.entry?_deactivate_of_eq_some s.monitor x y he
    exact ⟨hk, ⟨e', he', hw'⟩, hp⟩
  pending v hv y hy := by
    obtain ⟨e, he, rfl⟩ := h.pending v hv y hy
    obtain ⟨e', he', hw'⟩ := EntityMonitor.entry?_deactivate_of_eq_some s.monitor x y he
    exact ⟨e', he', hw'⟩
  armed y e' he' hact hps := by
    obtain ⟨-, -, -, hkept⟩ := EntityMonitor.entry?_deactivate_eq_some s.monitor x y he'
    exact h.armed y e' (hkept hact).2 hact hps

section Refresh

variable {x : EntityId} {e : EntityWatch}

/-- Forgetting an id whose watcher waits nowhere delivers that watcher. -/
theorem forget (h : Holds m (v :: ps) s) (he : s.monitor.entry? x = some e) (hv : e.watcher = v)
    (hidle : ∀ p k, v ∉ s.service.store.watches.waiting p k) (hps : v ∉ ps) :
    Holds m ps { s with monitor := s.monitor.forget x } where
  reachable := h.reachable
  manager := h.manager
  isOpen := h.isOpen
  nodup := h.nodup
  owned y e' he' := by
    rw [EntityMonitor.entry?_forget] at he'
    split_ifs at he'
    exact h.owned y e' he'
  reads := h.reads
  waits v' y hy p k hw := by
    obtain ⟨hk, ⟨e', he', rfl⟩, hp⟩ := h.waits v' y hy p k hw
    refine ⟨hk, ⟨e', ?_, rfl⟩, hp⟩
    rw [EntityMonitor.entry?_forget, if_neg]
    · exact he'
    · -- the forgotten id's watcher waits nowhere
      rintro rfl
      rw [he] at he'
      cases he'
      exact hidle p k (hv ▸ hw)
  pending v' hv' y hy := by
    obtain ⟨e', he', rfl⟩ := h.pending v' (List.mem_cons_of_mem v hv') y hy
    refine ⟨e', ?_, rfl⟩
    rw [EntityMonitor.entry?_forget, if_neg]
    · exact he'
    · rintro rfl
      rw [he] at he'
      cases he'
      exact hps (hv ▸ hv')
  armed y e' he' hact hps' := by
    rw [EntityMonitor.entry?_forget] at he'
    split_ifs at he' with hy
    refine h.armed y e' he' hact ?_
    simp only [List.mem_cons, not_or]
    exact ⟨fun hw => hy (h.entry_eq he' he (hw.trans hv.symm)), hps'⟩

/-- Arming an id's watcher on the node its path finds delivers that watcher. -/
theorem arm (h : Holds m (v :: ps) s) (he : s.monitor.entry? x = some e) (hv : e.watcher = v)
    {N : Nat}
    (hr : s.service.store.resolve m.handle.root (m.entityPath x) = .ok N) :
    Holds m ps { s with service := { s.service with
      store := s.service.store.arm N .data (some v) } } := by
  have hres : ∀ {path : String},
      (s.service.store.arm N .data (some v)).resolve m.handle.root path =
        s.service.store.resolve m.handle.root path :=
    Store.resolve_congr_tree (Store.tree_arm _ _ _ _)
  exact {
    reachable := h.reachable.arm hr (some v)
    manager := h.manager
    isOpen := h.isOpen
    nodup := h.nodup
    owned := h.owned
    reads := h.reads
    waits := by
      intro v' y hy p k hw
      rcases (Store.waiting_arm _ _ _ _).1 hw with hw | ⟨hv', rfl, rfl⟩
      · obtain ⟨hk, hent, hp⟩ := h.waits v' y hy p k hw
        exact ⟨hk, hent, hres.trans hp⟩
      · -- the armed watcher is the id's own
        obtain rfl := Option.some.inj hv'
        obtain rfl := h.owner_eq hy (hv ▸ h.owned x e he)
        exact ⟨rfl, ⟨e, he, hv⟩, hres.trans hr⟩
    pending := fun v' hv' => h.pending v' (List.mem_cons_of_mem v hv')
    armed := by
      intro y e' he' hact hps'
      by_cases hw : e'.watcher = v
      · obtain rfl := h.entry_eq he' he (hw.trans hv.symm)
        rw [he] at he'
        cases he'
        exact ⟨N, hres.trans hr,
          (Store.waiting_arm _ _ _ _).2 (.inr ⟨hw ▸ rfl, rfl, rfl⟩)⟩
      · obtain ⟨N', hN', hwN'⟩ := h.armed y e' he' hact (by simp [hw, hps'])
        exact ⟨N', hres.trans hN', (Store.waiting_arm _ _ _ _).2 (.inl hwN')⟩ }

/-- Taking a new watcher for an id without a watch: the new watcher is to be delivered. -/
theorem take (h : Holds m [] s) {x : EntityId} {fresh : Nat} (hnone : s.monitor.entry? x = none)
    (hfresh : fresh ∉ s.watchers) (hidle : ∀ p k, fresh ∉ s.service.store.watches.waiting p k)
    (hreads : m.ids.Reads x) :
    Holds m [fresh] { s with
      monitor := s.monitor.setEntry x ⟨fresh, true⟩
      owners := (fresh, x) :: s.owners } where
  reachable := h.reachable
  manager := by simpa using h.manager
  isOpen := by simpa using h.isOpen
  nodup := by
    simp only [watchers, List.map_cons]
    exact List.nodup_cons.2 ⟨hfresh, h.nodup⟩
  owned y e he := by
    rw [EntityMonitor.entry?_setEntry] at he
    split_ifs at he with hy
    · cases he
      simp [hy]
    · exact List.mem_cons_of_mem _ (h.owned y e he)
  reads v y hy := by
    rcases List.mem_cons.1 hy with heq | hy
    · obtain ⟨-, rfl⟩ := Prod.mk.inj heq
      exact hreads
    · exact h.reads v y hy
  waits v y hy p k hw := by
    rcases List.mem_cons.1 hy with heq | hy
    · obtain ⟨rfl, -⟩ := Prod.mk.inj heq
      exact absurd hw (hidle p k)
    · obtain ⟨hk, ⟨e, he, rfl⟩, hp⟩ := h.waits v y hy p k hw
      refine ⟨hk, ⟨e, ?_, rfl⟩, hp⟩
      rw [EntityMonitor.entry?_setEntry, if_neg]
      · exact he
      · rintro rfl
        rw [hnone] at he
        cases he
  pending v hv y hy := by
    obtain rfl := List.mem_singleton.1 hv
    rcases List.mem_cons.1 hy with heq | hy
    · obtain ⟨-, rfl⟩ := Prod.mk.inj heq
      exact ⟨⟨v, true⟩, by simp [EntityMonitor.entry?_setEntry], rfl⟩
    · exact absurd (List.mem_map.2 ⟨(v, y), hy, rfl⟩) hfresh
  armed y e he hact hps := by
    rw [EntityMonitor.entry?_setEntry] at he
    split_ifs at he with hy
    · cases he
      simp at hps
    · exact h.armed y e he hact List.not_mem_nil

/-- Making an inactive watch active again: its watcher is to be delivered. -/
theorem reactivate (h : Holds m [] s) {x : EntityId} {e : EntityWatch}
    (he : s.monitor.entry? x = some e) :
    Holds m [e.watcher] { s with monitor := s.monitor.setEntry x { e with active := true } } where
  reachable := h.reachable
  manager := by simpa using h.manager
  isOpen := by simpa using h.isOpen
  nodup := h.nodup
  owned y e' he' := by
    rw [EntityMonitor.entry?_setEntry] at he'
    split_ifs at he' with hy
    · cases he'
      exact hy ▸ h.owned x e he
    · exact h.owned y e' he'
  reads := h.reads
  waits v y hy p k hw := by
    obtain ⟨hk, ⟨e', he', rfl⟩, hp⟩ := h.waits v y hy p k hw
    refine ⟨hk, ?_, hp⟩
    by_cases hyx : y = x
    · subst hyx
      rw [he] at he'
      cases he'
      exact ⟨{ e with active := true }, by simp [EntityMonitor.entry?_setEntry], rfl⟩
    · exact ⟨e', by rw [EntityMonitor.entry?_setEntry, if_neg hyx]; exact he', rfl⟩
  pending v hv y hy := by
    obtain rfl := List.mem_singleton.1 hv
    obtain rfl := h.owner_eq hy (h.owned x e he)
    exact ⟨{ e with active := true }, by simp [EntityMonitor.entry?_setEntry], rfl⟩
  armed y e' he' hact hps := by
    rw [EntityMonitor.entry?_setEntry] at he'
    split_ifs at he' with hy
    · cases he'
      simp at hps
    · exact h.armed y e' he' hact List.not_mem_nil

end Refresh


/-- Delivering the next called watcher keeps the invariant. -/
theorem call (h : Holds m (v :: ps) s) (hc : Called m (v :: ps) s) (hv : v ∉ ps) :
    Holds m ps (s.call v) ∧ Called m ps (s.call v) := by
  have hcalled : Called m ps s := fun v' hv' => hc v' (List.mem_cons_of_mem v hv')
  cases hl : s.owners.lookup v with
  | none =>
    -- not a watcher of the monitor
    simp only [EntityRun.call, hl]
    refine ⟨h.drop fun x hx => ?_, hcalled⟩
    rw [h.lookup_eq_some hx] at hl
    cases hl
  | some x =>
    have hx := mem_of_lookup hl
    obtain ⟨e, he, rfl⟩ := h.pending _ List.mem_cons_self x hx
    obtain ⟨hidle, names, hseg⟩ := hc _ List.mem_cons_self x hx
    cases hact : e.active
    · -- an id no longer watched is forgotten
      simp only [EntityRun.call, hl, EntityMonitor.refresh_of_inactive true h.isOpen he hact]
      exact ⟨(h.forget he rfl hidle hv).events _, hcalled⟩
    · rw [← h.manager] at hseg
      cases hr : s.service.store.resolve s.monitor.manager.handle.root
          (s.monitor.manager.entityPath x) with
      | ok N =>
        -- the node is there: the watcher is armed on it again, and the others still wait nowhere
        obtain ⟨n, hn⟩ := Store.get_of_resolve_eq_ok hr
        simp only [EntityRun.call, hl, EntityMonitor.refresh_of_found true h.isOpen he hact hr hn]
        refine ⟨(h.arm he rfl (h.manager ▸ hr)).events _, fun v' hv' y hy => ?_⟩
        obtain ⟨hidle', hseg'⟩ := hcalled v' hv' y hy
        refine ⟨fun p k hwait => ?_, hseg'⟩
        rcases (Store.waiting_arm _ _ _ _).1 hwait with hwait | ⟨hv'', -, -⟩
        · exact hidle' p k hwait
        · exact hv (Option.some.inj hv'' ▸ hv')
      | error err =>
        -- the node is gone: the id is forgotten
        have hnf := Store.isNotFound_of_resolve hseg hr
        simp only [EntityRun.call, hl, EntityMonitor.refresh_of_gone true h.isOpen he hact hr hnf]
        exact ⟨(h.forget he rfl hidle hv).events _, hcalled⟩

/-- Delivering called watchers in turn, each once, keeps the invariant. -/
theorem deliver : ∀ (ps : List Nat) {s : EntityRun}, ps.Nodup → Holds m ps s →
    Called m ps s →
    Holds m [] (s.deliver ps)
  | [], _, _, h, _ => h
  | v :: ps, s, hnd, h, hc => by
    obtain ⟨h', hc'⟩ := h.call hc (List.nodup_cons.1 hnd).1
    exact deliver ps (List.nodup_cons.1 hnd).2 h' hc'

/-- After an operation, before its deliveries: a watcher of the monitor that still waits was
not called, so it waits on a node its path still finds, and a called one waits nowhere. -/
theorem op_start (h : Holds m [] s) {a : Action} (ha : s.Allows (.op a)) :
    Holds m (a.step s.service).2 { s with service := (a.step s.service).1 } ∧
      Called m (a.step s.service).2 { s with service := (a.step s.service).1 } := by
  have hwf := h.reachable.wf
  have hwf' := a.wf_step hwf
  -- a node a watcher waits on after the operation is found by the paths that found it
  have hstill : ∀ {N : Nat} {v : Nat} {k : WatchKind} {x : EntityId},
      s.service.store.resolve m.handle.root (m.entityPath x) = .ok N →
      v ∈ (a.step s.service).1.store.watches.waiting N k →
      (a.step s.service).1.store.resolve m.handle.root (m.entityPath x) = .ok N := by
    intro N v k x hN hw
    exact a.resolve_step hwf hN (hwf'.present (List.ne_nil_of_mem hw))
  refine ⟨{ h with
    reachable := Service.Reachable.step a h.reachable
    waits := ?_
    pending := ?_
    armed := ?_ }, ?_⟩
  · intro v x hx p k hw
    have hv : v ∈ s.watchers := List.mem_map.2 ⟨(v, x), hx, rfl⟩
    obtain ⟨hk, hent, hp⟩ :=
      h.waits v x hx p k ((a.waiting_step hwf hw).resolve_right (ha v hv))
    exact ⟨hk, hent, hstill hp hw⟩
  · intro v hv x hx
    obtain ⟨-, r, k, -, hwas⟩ := (a.mem_notify_iff hwf).1 hv
    exact (h.waits v x hx r k hwas).2.1
  · intro x e he hact hcall
    obtain ⟨N, hN, hwN⟩ := h.armed x e he hact List.not_mem_nil
    have hkeep := a.keeps_waiting_data hwf hwN hcall
    exact ⟨N, hstill hN hkeep, hkeep⟩
  · intro v hv x hx
    obtain ⟨-, r, k, -, hwas⟩ := (a.mem_notify_iff hwf).1 hv
    have hvw : v ∈ s.watchers := List.mem_map.2 ⟨(v, x), hx, rfl⟩
    refine ⟨a.idle_of_called hwf (fun r' k' hw' => h.waits_at hx hwas hw') hv (ha v hvw), ?_⟩
    exact Store.segments_of_resolve (h.waits v x hx r k hwas).2.2

/-- An operation and its deliveries keep the invariant. -/
theorem op (h : Holds m [] s) {a : Action} (ha : s.Allows (.op a)) :
    Holds m [] (s.step (.op a)) := by
  obtain ⟨h₀, hc₀⟩ := h.op_start ha
  exact deliver _ (a.nodup_notify h.reachable.wf) h₀ hc₀

/-- A watch makes the id's watch inactive again when its refresh failed. -/
theorem finish {sv : Service} {mon : EntityMonitor}
    (h : Holds m [] { s with service := sv, monitor := mon }) (x : EntityId) (ok : Bool) :
    Holds m [] { s with service := sv, monitor := if ok then mon else mon.deactivate x } := by
  cases ok
  · exact h.deactivate x
  · exact h

/-- A watch refreshes the id from a watch set active, with the watcher to be delivered; the
invariant holds after it, whether the refresh went through or the watch was made inactive
again. -/
theorem refreshed {w : Nat} (h : Holds m [w] s) {x : EntityId} {e : EntityWatch}
    (he : s.monitor.entry? x = some e) (hw : e.watcher = w) (hact : e.active = true) :
    Holds m [] { s with
      service := (s.monitor.refresh s.service x false).2.2
      monitor := if (s.monitor.refresh s.service x false).1.toBool
        then (s.monitor.refresh s.service x false).2.1
        else (s.monitor.refresh s.service x false).2.1.deactivate x } := by
  subst hw
  have hx := h.owned x e he
  cases hr : s.service.store.resolve s.monitor.manager.handle.root
      (s.monitor.manager.entityPath x) with
  | ok N =>
    obtain ⟨n, hn⟩ := Store.get_of_resolve_eq_ok hr
    rw [EntityMonitor.refresh_of_found false h.isOpen he hact hr hn]
    exact finish (h.arm he rfl (h.manager ▸ hr)) x _
  | error err =>
    -- the id's watcher waited only where the path led, so now it waits nowhere
    have hidle : ∀ p k, e.watcher ∉ s.service.store.watches.waiting p k := by
      intro p k hwait
      have hp := (h.waits e.watcher x hx p k hwait).2.2
      rw [← h.manager, hr] at hp
      cases hp
    cases hnf : err.isNotFound
    · rw [EntityMonitor.refresh_of_badPath false h.isOpen he hact hr hnf]
      refine (h.deactivate x).settle fun y e' he' hw' => ?_
      obtain ⟨e₀, he₀, hw₀, hkept⟩ :=
        EntityMonitor.entry?_deactivate_eq_some s.monitor x y he'
      cases hact' : e'.active
      · rfl
      · obtain ⟨hyx, -⟩ := hkept hact'
        exact absurd (h.entry_eq he₀ he (hw₀.trans hw')) hyx
    · rw [EntityMonitor.refresh_of_gone false h.isOpen he hact hr hnf]
      exact h.forget he rfl hidle List.not_mem_nil

/-- A watch keeps the invariant. -/
theorem watch (h : Holds m [] s) {x : EntityId} {fresh : Nat} (ha : s.Allows (.watch x fresh)) :
    Holds m [] (s.step (.watch x fresh)) := by
  obtain ⟨hfresh, hidle, hreads⟩ := ha
  cases hx : s.monitor.entry? x with
  | none =>
    have h₁ := h.take hx hfresh hidle (h.manager ▸ hreads)
    have h₂ := h₁.refreshed (EntityMonitor.entry?_setEntry_self _ _ _) rfl rfl
    simp only [EntityRun.step, hx, Option.isNone_none, if_true,
      (EntityMonitor.watch_of_refresh fresh s.service (.inl ⟨hx, rfl⟩)).2]
    exact h₂
  | some e =>
    cases hact : e.active
    · have h₁ := h.reactivate hx
      have h₂ := h₁.refreshed (EntityMonitor.entry?_setEntry_self _ _ _) rfl rfl
      simp only [EntityRun.step, hx, Option.isNone_some, Bool.false_eq_true, if_false,
        (EntityMonitor.watch_of_refresh fresh s.service (.inr ⟨e, hx, hact, rfl⟩)).2]
      exact h₂
    · simp only [EntityRun.step, hx, Option.isNone_some, Bool.false_eq_true, if_false,
        EntityMonitor.watch_snd_of_active fresh s.service hx hact]
      exact h

/-- An unwatch keeps the invariant. -/
theorem unwatch (h : Holds m [] s) (x : EntityId) : Holds m [] (s.step (.unwatch x)) := by
  simp only [EntityRun.step, EntityMonitor.unwatch_snd]
  split_ifs
  · exact h.deactivate x
  · exact h

end Holds

/-- Every state a run reaches satisfies the invariant. -/
theorem Reachable.holds (hs : s.Reachable m) : Holds m [] s := by
  induction hs with
  | init hsv => exact holds_init hsv
  | step c _ hallow ih =>
    cases c with
    | op a => exact ih.op hallow
    | watch x fresh => exact ih.watch hallow
    | unwatch x => exact ih.unwatch x

/-! ## What a delivery sends -/

section Events

variable {s : EntityRun} {x : EntityId}

theorem call_of_none {v : Nat} (hl : s.owners.lookup v = none) : s.call v = s := by
  rw [call, hl]

theorem call_of_some {v : Nat} (hl : s.owners.lookup v = some x) :
    s.call v = { s with
      service := (s.monitor.refresh s.service x true).2.2
      monitor := (s.monitor.refresh s.service x true).2.1
      events := match (s.monitor.refresh s.service x true).1 with
        | .ok (_, evs) => s.events ++ evs
        | .error _ => s.events } := by
  rw [call, hl]

theorem owners_call (v : Nat) : (s.call v).owners = s.owners := by
  unfold call
  split <;> rfl

theorem manager_call (v : Nat) : (s.call v).monitor.manager = s.monitor.manager := by
  unfold call
  split
  · rfl
  · exact EntityMonitor.manager_refresh true

theorem deliver_cons (v : Nat) (ps : List Nat) : s.deliver (v :: ps) = (s.call v).deliver ps :=
  rfl

theorem deliver_append_cons (pre post : List Nat) (w : Nat) :
    s.deliver (pre ++ w :: post) = ((s.deliver pre).call w).deliver post := by
  simp [deliver, List.foldl_append]

theorem owners_deliver : ∀ (ps : List Nat) {s : EntityRun}, (s.deliver ps).owners = s.owners
  | [], _ => rfl
  | v :: ps, _ => (owners_deliver ps).trans (owners_call v)

theorem manager_deliver : ∀ (ps : List Nat) {s : EntityRun},
    (s.deliver ps).monitor.manager = s.monitor.manager
  | [], _ => rfl
  | v :: ps, _ => (manager_deliver ps).trans (manager_call v)

/-- A call of a watcher leaves alone every id other than the one it refreshes, and sends
nothing about them; it keeps the monitor open and the tree as it was. -/
theorem call_apart (hopen : s.monitor.isOpen = true) (v : Nat) :
    (s.call v).monitor.isOpen = true ∧ (s.call v).service.store.tree = s.service.store.tree ∧
      ∃ evs, (s.call v).events = s.events ++ evs ∧ ∀ y, s.owners.lookup v ≠ some y →
        (s.call v).monitor.entry? y = s.monitor.entry? y ∧ evs.filter (·.id == y) = [] := by
  cases hl : s.owners.lookup v with
  | none =>
    rw [call_of_none hl]
    exact ⟨hopen, rfl, [], by simp, fun y _ => ⟨rfl, rfl⟩⟩
  | some x =>
    obtain ⟨hmon, htree, hids⟩ := @EntityMonitor.refresh_shape s.monitor s.service x true hopen
    have hkeep : ∀ y, some x ≠ some y →
        EntityMonitor.entry? (s.monitor.refresh s.service x true).2.1 y = s.monitor.entry? y := by
      intro y hyx
      rcases hmon with hmon | hmon <;> rw [hmon]
      rw [EntityMonitor.entry?_forget, if_neg (fun (h : y = x) => hyx (by rw [h]))]
    rw [call_of_some hl]
    refine ⟨by rcases hmon with hmon | hmon <;> rw [hmon] <;> simpa using hopen, htree, ?_⟩
    cases hres : (s.monitor.refresh s.service x true).1 with
    | error err => exact ⟨[], by simp, fun y hy => ⟨hkeep y hy, rfl⟩⟩
    | ok r =>
      refine ⟨r.2, rfl, fun y hy => ⟨hkeep y hy, ?_⟩⟩
      rw [List.filter_eq_nil_iff]
      intro ev hev
      rw [hids r.1 r.2 hres ev hev]
      have hxy : x ≠ y := fun h => hy (by rw [h])
      simpa using hxy

/-- Calling the watcher of an id that is not watched sends nothing and leaves it unwatched. -/
theorem call_of_not_watching (hopen : s.monitor.isOpen = true) {v : Nat}
    (hl : s.owners.lookup v = some x) (hw : s.monitor.isWatching x = false) :
    (s.call v).events = s.events ∧ (s.call v).monitor.isWatching x = false := by
  obtain ⟨hres, hw'⟩ :=
    @EntityMonitor.refresh_of_not_watching s.monitor s.service x true hopen hw
  rw [call_of_some hl]
  refine ⟨?_, hw'⟩
  simp only [hres, List.append_nil]

/-- Calls none of which refreshes `x` send nothing about it and leave its watch alone. -/
theorem deliver_apart : ∀ (ps : List Nat) {s : EntityRun}, s.monitor.isOpen = true →
    (∀ v ∈ ps, s.owners.lookup v ≠ some x) →
    ∃ E, (s.deliver ps).events = s.events ++ E ∧ E.filter (·.id == x) = [] ∧
      (s.deliver ps).monitor.entry? x = s.monitor.entry? x ∧
      (s.deliver ps).monitor.isOpen = true ∧
      (s.deliver ps).service.store.tree = s.service.store.tree ∧ (s.deliver ps).owners = s.owners
  | [], _, hopen, _ => ⟨[], by simp [deliver], rfl, rfl, hopen, rfl, rfl⟩
  | v :: ps, s, hopen, hps => by
    obtain ⟨hopen', htree, evs, hevs, hapart⟩ := call_apart hopen v
    obtain ⟨hent, hfilter⟩ := hapart x (hps v List.mem_cons_self)
    obtain ⟨E, hE, hEf, hent', hopen'', htree', howners⟩ := deliver_apart ps hopen' (by
      intro v' hv'
      rw [owners_call]
      exact hps v' (List.mem_cons_of_mem v hv'))
    refine ⟨evs ++ E, ?_, ?_, hent'.trans hent, hopen'', htree'.trans htree,
      howners.trans (owners_call v)⟩
    · rw [deliver_cons, hE, hevs, List.append_assoc]
    · rw [List.filter_append, hfilter, hEf, List.nil_append]

/-- Calls made while `x` is not watched send nothing about it and leave it unwatched. -/
theorem deliver_of_not_watching : ∀ (ps : List Nat) {s : EntityRun}, s.monitor.isOpen = true →
    s.monitor.isWatching x = false →
    ∃ E, (s.deliver ps).events = s.events ++ E ∧ E.filter (·.id == x) = [] ∧
      (s.deliver ps).monitor.isWatching x = false
  | [], _, _, hw => ⟨[], by simp [deliver], rfl, hw⟩
  | v :: ps, s, hopen, hw => by
    obtain ⟨hopen', -, evs, hevs, hapart⟩ := call_apart hopen v
    -- the call either refreshes `x`, silently, or leaves it alone
    have hcall : evs.filter (·.id == x) = [] ∧ (s.call v).monitor.isWatching x = false := by
      by_cases hl : s.owners.lookup v = some x
      · obtain ⟨hsame, hw'⟩ := call_of_not_watching hopen hl hw
        rw [hsame] at hevs
        refine ⟨?_, hw'⟩
        rw [List.self_eq_append_right.1 hevs]
        rfl
      · obtain ⟨hent, hfilter⟩ := hapart x hl
        exact ⟨hfilter, by simpa [EntityMonitor.isWatching, hent] using hw⟩
    obtain ⟨E, hE, hEf, hw''⟩ := deliver_of_not_watching ps hopen' hcall.2
    refine ⟨evs ++ E, ?_, ?_, hw''⟩
    · rw [deliver_cons, hE, hevs, List.append_assoc]
    · rw [List.filter_append, hcall.1, hEf, List.nil_append]

/-- A step of a run sends nothing about an id that is not watched. -/
theorem step_of_not_watching (hopen : s.monitor.isOpen = true) (hw : s.monitor.isWatching x = false)
    (c : Call) : ∃ E, (s.step c).events = s.events ++ E ∧ E.filter (·.id == x) = [] := by
  cases c with
  | op a =>
    obtain ⟨E, hE, hEf, -⟩ :=
      deliver_of_not_watching (s := { s with service := (a.step s.service).1 })
        (a.step s.service).2 hopen hw
    exact ⟨E, hE, hEf⟩
  | watch y fresh => exact ⟨[], by simp [step], rfl⟩
  | unwatch y => exact ⟨[], by simp [step], rfl⟩

end Events

/-! ## What a refresh reports -/

/-- What a sending refresh of an id should send, read off the store it reads, and whether the
id is still watched after it: the entity its node's payload holds, nothing for a node without
payload, or the id's deletion when its path finds no node, after which it is not watched. -/
inductive Reported (m : Manager) (st : Store) (x : EntityId) :
    List EntityEvent → Bool → Prop where
  | updated {N : Nat} {n : Node} {bs : List UInt8} {ent : Entity} :
      st.resolve m.handle.root (m.entityPath x) = .ok N → st.tree.nodes[N]? = some n →
      n.data = some bs → m.kind.decode bs = .ok ent → Reported m st x [.updated x ent] true
  | empty {N : Nat} {n : Node} :
      st.resolve m.handle.root (m.entityPath x) = .ok N → st.tree.nodes[N]? = some n →
      n.data = none → Reported m st x [] true
  | deleted {err : DirError} :
      st.resolve m.handle.root (m.entityPath x) = .error err → err.isNotFound = true →
      Reported m st x [.deleted x] false

namespace Reported

variable {m : Manager} {st : Store} {x : EntityId} {evs : List EntityEvent} {b : Bool}

/-- What is reported for an id only depends on the tree. -/
theorem congr_tree {st' : Store} (h : st.tree = st'.tree) (hrep : Reported m st x evs b) :
    Reported m st' x evs b := by
  cases hrep with
  | updated hr hn hd hdec =>
    exact .updated (Store.resolve_congr_tree h ▸ hr) (h ▸ hn) hd hdec
  | empty hr hn hd => exact .empty (Store.resolve_congr_tree h ▸ hr) (h ▸ hn) hd
  | deleted hr hnf => exact .deleted (Store.resolve_congr_tree h ▸ hr) hnf

/-- What is reported for an id is about that id. -/
theorem filter_id (hrep : Reported m st x evs b) : evs.filter (·.id == x) = evs := by
  cases hrep <;> simp [EntityEvent.id]

end Reported

section Reports

variable {s : EntityRun} {x : EntityId}

/-- Calling the watcher of a watched id, whose path is a path and whose payload reads, sends
what is reported for it from the store the call reads. -/
theorem call_reports (hopen : s.monitor.isOpen = true) {v : Nat} (hl : s.owners.lookup v = some x)
    {e : EntityWatch} (he : s.monitor.entry? x = some e) (hact : e.active = true)
    {names : List String} (hseg : Path.segments (s.monitor.manager.entityPath x) = .ok names)
    (hread : s.monitor.manager.Readable x s.service.store) :
    ∃ evs, (s.call v).events = s.events ++ evs ∧
      Reported s.monitor.manager s.service.store x evs ((s.call v).monitor.isWatching x) := by
  have hw : s.monitor.isWatching x = true :=
    (EntityMonitor.isWatching_eq_true _ _).2 ⟨e, he, hact⟩
  rw [call_of_some hl]
  cases hr : s.service.store.resolve s.monitor.manager.handle.root
      (s.monitor.manager.entityPath x) with
  | ok N =>
    obtain ⟨n, hn⟩ := Store.get_of_resolve_eq_ok hr
    rw [EntityMonitor.refresh_of_found true hopen he hact hr hn]
    cases hd : n.data with
    | none => exact ⟨[], by simp, hw ▸ .empty hr hn hd⟩
    | some bs =>
      obtain ⟨ent, hdec⟩ := hread N n bs hr hn hd
      refine ⟨[.updated x ent], by simp [hdec], ?_⟩
      exact hw ▸ .updated hr hn hd hdec
  | error err =>
    have hnf := Store.isNotFound_of_resolve hseg hr
    rw [EntityMonitor.refresh_of_gone true hopen he hact hr hnf]
    refine ⟨[.deleted x], rfl, ?_⟩
    rw [show (s.monitor.forget x).isWatching x = false by
      simp [EntityMonitor.isWatching, EntityMonitor.entry?_forget]]
    exact .deleted hr hnf

/-- Delivering watchers in turn, one of them the watcher of a watched id and none of the others
refreshing it, sends for the id what is reported for it, and nothing else. -/
theorem deliver_reports (hopen : s.monitor.isOpen = true) {pre post : List Nat} {w : Nat}
    (hl : s.owners.lookup w = some x) (hpre : ∀ v ∈ pre, s.owners.lookup v ≠ some x)
    (hpost : ∀ v ∈ post, s.owners.lookup v ≠ some x) {e : EntityWatch}
    (he : s.monitor.entry? x = some e) (hact : e.active = true) {names : List String}
    (hseg : Path.segments (s.monitor.manager.entityPath x) = .ok names)
    (hread : s.monitor.manager.Readable x s.service.store) :
    ∃ E, (s.deliver (pre ++ w :: post)).events = s.events ++ E ∧
      Reported s.monitor.manager s.service.store x (E.filter (·.id == x))
        ((s.deliver (pre ++ w :: post)).monitor.isWatching x) := by
  -- before the watcher: nothing about the id, and the same tree
  obtain ⟨E₁, hE₁, hf₁, hent₁, hopen₁, htree₁, hown₁⟩ :=
    deliver_apart pre hopen hpre
  have hman₁ := manager_deliver pre (s := s)
  -- the watcher: what is reported
  obtain ⟨evs, hevs, hrep⟩ := call_reports (s := s.deliver pre) hopen₁ (hown₁ ▸ hl)
    (hent₁ ▸ he) hact (hman₁ ▸ hseg)
    (Manager.readable_congr_tree _ _ htree₁.symm (hman₁ ▸ hread))
  -- after it: nothing about the id, and its watch as the watcher left it
  obtain ⟨hopen₂, -, -⟩ := call_apart hopen₁ w
  obtain ⟨E₂, hE₂, hf₂, hent₂, -, -, -⟩ := deliver_apart post hopen₂ (by
    rw [owners_call, hown₁]
    exact hpost)
  refine ⟨E₁ ++ evs ++ E₂, ?_, ?_⟩
  · rw [deliver_append_cons, hE₂, hevs, hE₁]
    simp only [List.append_assoc]
  · rw [List.filter_append, List.filter_append, hf₁, hf₂, List.nil_append, List.append_nil,
      hrep.filter_id, deliver_append_cons, EntityMonitor.isWatching, hent₂,
      ← EntityMonitor.isWatching]
    rw [hman₁] at hrep
    exact hrep.congr_tree htree₁

end Reports

/-! ## What the invariant gives -/

namespace Holds

variable {m : Manager} {s : EntityRun} {ps : List Nat}

/-- At most one of the monitor's watchers waits on a node: a waiting watcher waits where its
id's path leads, and two paths that find one node are one path, of one id. -/
theorem waiting_unique (h : Holds m ps s) {N v v' : Nat} {k k' : WatchKind}
    (hv : v ∈ s.watchers) (hv' : v' ∈ s.watchers)
    (hw : v ∈ s.service.store.watches.waiting N k)
    (hw' : v' ∈ s.service.store.watches.waiting N k') : v = v' := by
  obtain ⟨⟨v₀, y⟩, hy, rfl⟩ := List.mem_map.1 hv
  obtain ⟨⟨v₁, y'⟩, hy', rfl⟩ := List.mem_map.1 hv'
  obtain ⟨-, ⟨e, he, hev⟩, hp⟩ := h.waits _ y hy N k hw
  obtain ⟨-, ⟨e', he', hev'⟩, hp'⟩ := h.waits _ y' hy' N k' hw'
  have hpath : m.entityPath y = m.entityPath y' := Store.resolve_inj h.reachable.wf.tree hp hp'
  have hyy : y = y' :=
    IdKind.display_inj (h.reads _ y hy) (h.reads _ y' hy') (Path.join_right_inj hpath)
  subst hyy
  rw [he, Option.some.injEq] at he'
  subst he'
  exact hev.symm.trans hev'

/-- A watcher an operation calls that refreshes an id with a watch is that watch's watcher:
it waited, and only an id's own watcher waits. -/
theorem called_owner (h : Holds m ps s) (a : Action) {x : EntityId} {e : EntityWatch}
    (he : s.monitor.entry? x = some e) {v : Nat} (hv : v ∈ (a.step s.service).2)
    (hl : s.owners.lookup v = some x) : v = e.watcher := by
  obtain ⟨-, r, k, -, hwas⟩ := (a.mem_notify_iff h.reachable.wf).1 hv
  obtain ⟨-, ⟨e', he', hv'⟩, -⟩ := h.waits v x (mem_of_lookup hl) r k hwas
  rw [he, Option.some.injEq] at he'
  rw [← hv', he']

/-- The watcher of an id, waiting on the data of a node, is called by an operation exactly
when the operation goes through and fires the node's data watchers. -/
theorem called_iff (h : Holds m ps s) (a : Action) {x : EntityId} {e : EntityWatch}
    (he : s.monitor.entry? x = some e) {N : Nat}
    (hwN : e.watcher ∈ s.service.store.watches.waiting N .data) :
    e.watcher ∈ (a.step s.service).2 ↔
      (a.succeeds s.service && firedBy (a.changes s.service) N .data) = true := by
  rw [a.mem_notify_iff h.reachable.wf, Bool.and_eq_true]
  constructor
  · rintro ⟨hok, r, k, hf, hwr⟩
    -- the watcher waits on one node for one kind
    obtain ⟨rfl, rfl⟩ := h.waits_at (h.owned x e he) hwN hwr
    exact ⟨hok, hf⟩
  · rintro ⟨hok, hf⟩
    exact ⟨hok, N, .data, hf, hwN⟩

/-- An operation while an id is watched, its node's payload reading as an entity after it:
if the operation goes through and replaces the node's payload or deletes it, the deliveries
send for the id what is reported from the store after the operation; otherwise they send
nothing for it, and it stays watched. -/
theorem op_reports (h : Holds m [] s) (a : Action) {x : EntityId}
    (hw : s.monitor.isWatching x = true) (hread : m.Readable x (a.step s.service).1.store) :
    ∃ N E, s.service.store.resolve m.handle.root (m.entityPath x) = .ok N ∧
      (s.step (.op a)).events = s.events ++ E ∧
      if a.succeeds s.service && firedBy (a.changes s.service) N .data then
        Reported m (a.step s.service).1.store x (E.filter (·.id == x))
          ((s.step (.op a)).monitor.isWatching x)
      else E.filter (·.id == x) = [] ∧ (s.step (.op a)).monitor.isWatching x = true := by
  obtain ⟨e, he, hact⟩ := (EntityMonitor.isWatching_eq_true _ _).1 hw
  obtain ⟨N, hN, hwN⟩ := h.armed x e he hact List.not_mem_nil
  have hfire := h.called_iff a he hwN
  have hstep : s.step (.op a) =
      ({ s with service := (a.step s.service).1 } : EntityRun).deliver (a.step s.service).2 := rfl
  refine ⟨N, ?_⟩
  by_cases hb : (a.succeeds s.service && firedBy (a.changes s.service) N .data) = true
  · -- the id's watcher is called once, between watchers that leave the id alone
    obtain ⟨pre, post, hsplit⟩ := List.append_of_mem (hfire.2 hb)
    have hnd := a.nodup_notify h.reachable.wf
    rw [hsplit, List.nodup_middle, List.nodup_cons] at hnd
    have hother : ∀ v ∈ pre ++ post, s.owners.lookup v ≠ some x := by
      intro v hv hl
      have hv' : v ∈ (a.step s.service).2 := by
        rw [hsplit]
        rcases List.mem_append.1 hv with hv | hv <;> simp [hv]
      exact hnd.1 (h.called_owner a he hv' hl ▸ hv)
    obtain ⟨names, hseg⟩ := Store.segments_of_resolve hN
    obtain ⟨E, hE, hrep⟩ := deliver_reports (s := { s with service := (a.step s.service).1 })
      h.isOpen (h.lookup_eq_some (h.owned x e he))
      (fun v hv => hother v (List.mem_append_left post hv))
      (fun v hv => hother v (List.mem_append_right pre hv)) he hact (h.manager ▸ hseg)
      (h.manager ▸ hread)
    rw [hstep, hsplit]
    refine ⟨E, hN, hE, ?_⟩
    rw [if_pos hb]
    exact h.manager ▸ hrep
  · -- the id's watcher is not called, and no other call touches the id
    have hnot : e.watcher ∉ (a.step s.service).2 := fun hv => hb (hfire.1 hv)
    obtain ⟨E, hE, hf, hent, -⟩ :=
      deliver_apart (s := { s with service := (a.step s.service).1 })
        (a.step s.service).2 h.isOpen fun v hv hl => hnot (h.called_owner a he hv hl ▸ hv)
    rw [hstep]
    refine ⟨E, hN, hE, ?_⟩
    rw [if_neg hb, EntityMonitor.isWatching, hent]
    refine ⟨hf, ?_⟩
    exact hw

end Holds

/-- In every state a run of an entity monitor reaches: (a) at most one of the monitor's watchers
waits on any node; (b) an operation while an id is watched, its node's payload reading as an
entity after it, sends for the id what is reported from the store after the operation if it
goes through and replaces the node's payload or deletes the node, and otherwise nothing, the id
staying watched; (c) no step sends anything for an id that is not watched; (d) a watch of such
an id that fails leaves it not watched. -/
theorem entityMonitor_reports_changes (hs : s.Reachable m) :
    (∀ N, ∀ v ∈ s.watchers, ∀ v' ∈ s.watchers,
      (∃ k, v ∈ s.service.store.watches.waiting N k) →
      (∃ k', v' ∈ s.service.store.watches.waiting N k') → v = v') ∧
    (∀ x a, s.monitor.isWatching x = true → m.Readable x (a.step s.service).1.store →
      ∃ N E, s.service.store.resolve m.handle.root (m.entityPath x) = .ok N ∧
        (s.step (.op a)).events = s.events ++ E ∧
        if a.succeeds s.service && firedBy (a.changes s.service) N .data then
          Reported m (a.step s.service).1.store x (E.filter (·.id == x))
            ((s.step (.op a)).monitor.isWatching x)
        else E.filter (·.id == x) = [] ∧ (s.step (.op a)).monitor.isWatching x = true) ∧
    (∀ x c, s.monitor.isWatching x = false →
      ∃ E, (s.step c).events = s.events ++ E ∧ E.filter (·.id == x) = []) ∧
    (∀ x fresh, s.monitor.isWatching x = false →
      (s.monitor.watch s.service x fresh).1.toBool = false →
      (s.step (.watch x fresh)).monitor.isWatching x = false) := by
  have h := hs.holds
  refine ⟨?_, fun x a hw hread => h.op_reports a hw hread, ?_, ?_⟩
  · rintro N v hv v' hv' ⟨k, hw⟩ ⟨k', hw'⟩
    exact h.waiting_unique hv hv' hw hw'
  · intro x c hw
    exact step_of_not_watching h.isOpen hw c
  · intro x fresh hw hfail
    exact EntityMonitor.isWatching_watch_of_error fresh s.service hw hfail

/-- The manager of text ids below `/users`, through the top handle of session 0. -/
def usersManager : Manager :=
  { handle := Handle.top 0, root := "/users", ids := .text, kind := .text,
    rootNames := ["users"], segments_root := by decide }

/-- A new monitor of `/users` on the empty service, watching nothing, sends nothing for `ada`
when `/users/ada` is added. -/
theorem entityMonitor_silent_on_add :
    ∃ E, (EntityRun.step ⟨Service.empty, .make usersManager, [], []⟩
        (.op (.add (Handle.top 0) "/users/ada" none .persistent))).events = [] ++ E ∧
      E.filter (·.id == .text "ada") = [] :=
  (entityMonitor_reports_changes (m := usersManager) (.init .empty)).2.2.1 _ _ rfl

/-- The service where `/users` has the child `ada`, with no payload. -/
def usersService : Service :=
  Action.run [.add (Handle.top 0) "/users" none .persistent,
    .add (Handle.top 0) "/users/ada" none .persistent] Service.empty

/-- A new monitor of `/users` on that service, watching `ada` with the watcher 0. -/
def adaWatched : EntityRun :=
  EntityRun.step ⟨usersService, .make usersManager, [], []⟩ (.watch (.text "ada") 0)

theorem adaWatched_reachable : adaWatched.Reachable usersManager := by
  -- no read of the run names the watcher 0, so it waits nowhere
  have hfresh : ∀ p k, 0 ∉ usersService.store.watches.waiting p k := by
    intro p k hw
    have h := Action.waiting_run 0 _ Service.wf_empty (by decide) hw
    cases k <;> simp [Service.empty, Store.empty, Registry.empty, Registry.waiting,
      Registry.table] at h
  exact .step _ (.init (Service.reachable_run _ .empty))
    ⟨List.not_mem_nil, hfresh, ⟨"ada", rfl⟩⟩

/-- The update that writes the text `Ada` into `ada`'s node. -/
def adaUpdate : Action :=
  .update (Handle.top 0) "/users/ada" (some (Entity.text "Ada").encode)

/-- With `ada` watched, writing an encoded text into its node goes through and replaces the
node's payload, so the monitor sends for `ada` what the store then holds for it. -/
theorem entityMonitor_reports_update :
    adaWatched.monitor.isWatching (.text "ada") = true ∧
    ∃ N E, adaWatched.service.store.resolve usersManager.handle.root
        (usersManager.entityPath (.text "ada")) = .ok N ∧
      (adaWatched.step (.op adaUpdate)).events = adaWatched.events ++ E ∧
      Reported usersManager (adaUpdate.step adaWatched.service).1.store (.text "ada")
        (E.filter (·.id == .text "ada"))
        ((adaWatched.step (.op adaUpdate)).monitor.isWatching (.text "ada")) := by
  have hw : adaWatched.monitor.isWatching (.text "ada") = true := by decide +kernel
  have hres : adaWatched.service.store.resolve usersManager.handle.root
      (usersManager.entityPath (.text "ada")) = .ok 2 := by decide +kernel
  have hres' : (adaUpdate.step adaWatched.service).1.store.resolve usersManager.handle.root
      (usersManager.entityPath (.text "ada")) = .ok 2 := by decide +kernel
  have hdata : ((adaUpdate.step adaWatched.service).1.store.tree.nodes[2]?).map Node.data =
      some (some (Entity.text "Ada").encode) := by decide +kernel
  -- after the update the node holds bytes that read as an entity
  have hread : usersManager.Readable (.text "ada") (adaUpdate.step adaWatched.service).1.store := by
    intro N n bs hN hn hd
    rw [hres'] at hN
    cases hN
    rw [hn, Option.map_some, hd, Option.some.injEq, Option.some.injEq] at hdata
    subst hdata
    exact ⟨.text "Ada", by decide +kernel⟩
  obtain ⟨N, E, hN, hE, hif⟩ := (entityMonitor_reports_changes adaWatched_reachable).2.1 _ _ hw hread
  rw [hres] at hN
  cases hN
  -- the update went through and changed the payload of node 2
  have hfired : (adaUpdate.succeeds adaWatched.service &&
      firedBy (adaUpdate.changes adaWatched.service) 2 .data) = true := by decide +kernel
  rw [if_pos hfired] at hif
  exact ⟨hw, 2, E, hres, hE, hif⟩

end EntityRun

end CoordStore
