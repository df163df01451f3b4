import CoordStore.Proofs.Service.Watched
import CoordStore.Entity.Monitor
import Std.Data.String.ToInt
import Std.Data.String.ToNat

/-!
# Refreshing an entity monitor

What one call on an entity monitor does. The monitor keeps, for each id it knows, a watch: a
watcher and whether the id is still watched (`EntityMonitor.entry?`). A refresh of an id reads
the node the id's path finds, arming the id's watcher on its data, and reports what it read:
the entity, nothing for a node without payload, or the id's deletion when no node is found
(`EntityMonitor.refresh_of_found`, `refresh_of_gone`); an id no longer watched is forgotten
instead. A refresh never changes the tree and only ever forgets the refreshed id
(`EntityMonitor.refresh_shape`). A watch sets the id's watch active and refreshes it, making
the watch inactive again when the refresh fails (`EntityMonitor.watch_of_refresh`).

Ids a manager's kind reads are told apart by how they are written (`IdKind.display_inj`), so
two ids with one path are one id.
-/

namespace CoordStore

/-! ## Ids of one kind -/

namespace IdKind

/-- The ids a kind reads from some name. -/
def Reads (k : IdKind) (x : EntityId) : Prop :=
  ∃ s, k.parse s = some x

/-- Ids a kind reads are told apart by how they are written. -/
theorem display_inj {k : IdKind} {x y : EntityId} (hx : k.Reads x) (hy : k.Reads y)
    (h : x.display = y.display) : x = y := by
  obtain ⟨s, hs⟩ := hx
  obtain ⟨s', hs'⟩ := hy
  cases k with
  | text =>
    simp only [parse, Option.some.injEq] at hs hs'
    subst hs hs'
    simpa [EntityId.display] using h
  | i64 =>
    simp only [parse, Option.map_eq_some_iff, Functor.map] at hs hs'
    obtain ⟨a, -, rfl⟩ := hs
    obtain ⟨b, -, rfl⟩ := hs'
    rw [Int.repr_injective h]
  | u64 | u8 =>
    simp only [parse, Option.map_eq_some_iff, Functor.map] at hs hs'
    obtain ⟨a, -, rfl⟩ := hs
    obtain ⟨b, -, rfl⟩ := hs'
    rw [Nat.repr_inj.1 h]

end IdKind

/-- The event's id. -/
def EntityEvent.id : EntityEvent → EntityId
  | .updated i _ => i
  | .deleted i => i

/-! ## The monitor's table of watches -/

namespace EntityMonitor

theorem lookup_map_replace (x y : EntityId) (w : EntityWatch) :
    ∀ l : List (EntityId × EntityWatch),
      (l.map fun p => if p.1 == x then (x, w) else p).lookup y =
        if y = x then (if l.any (·.1 == x) then some w else none) else l.lookup y
  | [] => by simp
  | (a, b) :: l => by
    have ih := lookup_map_replace x y w l
    by_cases hy : y = a
    · subst hy
      by_cases ha : y = x
      · subst ha
        simp
      · simp [ha]
    · have hya : (y == a) = false := beq_false_of_ne hy
      by_cases ha : a = x
      · subst ha
        simp only [List.map_cons, beq_self_eq_true, if_true, List.lookup_cons, hya,
          List.any_cons, Bool.true_or, ih]
        rw [if_neg hy, if_neg hy]
      · have hax : (a == x) = false := beq_false_of_ne ha
        simp only [List.map_cons, hax, Bool.false_eq_true, if_false, List.lookup_cons, hya,
          List.any_cons, Bool.false_or, ih]

theorem lookup_filter_ne (x y : EntityId) :
    ∀ l : List (EntityId × EntityWatch),
      (l.filter (·.1 != x)).lookup y = if y = x then none else l.lookup y
  | [] => by simp
  | (a, b) :: l => by
    have ih := lookup_filter_ne x y l
    by_cases hy : y = a
    · subst hy
      by_cases ha : y = x
      · subst ha
        simpa using ih
      · simp [ha]
    · have hya : (y == a) = false := beq_false_of_ne hy
      by_cases ha : a = x
      · subst ha
        simp only [List.filter_cons, bne_self_eq_false, Bool.false_eq_true, if_false, ih,
          List.lookup_cons, hya]
      · have hax : (a != x) = true := bne_iff_ne.2 ha
        simp only [List.filter_cons, hax, if_true, List.lookup_cons, hya, ih]

variable (mon : EntityMonitor) (x y : EntityId)

theorem entry?_setEntry (w : EntityWatch) :
    entry? (mon.setEntry x w) y = if y = x then some w else mon.entry? y := by
  unfold setEntry entry?
  split
  · rename_i hany
    rw [lookup_map_replace, if_pos hany]
  · rename_i hany
    rw [List.lookup_append]
    by_cases hy : y = x
    · subst hy
      have hnone : mon.entries.lookup y = none := by
        rw [List.lookup_eq_none_iff]
        intro p hp
        have hne : p.1 ≠ y := fun h => hany (List.any_eq_true.2 ⟨p, hp, by simp [h]⟩)
        exact bne_iff_ne.2 (Ne.symm hne)
      simp [hnone]
    · simp [hy, List.lookup_cons, beq_false_of_ne hy]

theorem entry?_setEntry_self (w : EntityWatch) : entry? (mon.setEntry x w) x = some w := by
  rw [entry?_setEntry, if_pos rfl]

theorem entry?_forget : entry? (mon.forget x) y = if y = x then none else mon.entry? y :=
  lookup_filter_ne x y mon.entries

theorem entry?_deactivate :
    entry? (mon.deactivate x) y =
      if y = x then (mon.entry? x).map fun w => { w with active := false } else mon.entry? y := by
  unfold deactivate
  cases hx : mon.entry? x with
  | none =>
    split_ifs with hy
    · rw [hy, hx]
      rfl
    · rfl
  | some w =>
    rw [entry?_setEntry]
    split_ifs <;> rfl

@[simp] theorem manager_setEntry (w : EntityWatch) : (mon.setEntry x w).manager = mon.manager := by
  unfold setEntry
  split <;> rfl

@[simp] theorem isOpen_setEntry (w : EntityWatch) : (mon.setEntry x w).isOpen = mon.isOpen := by
  unfold setEntry
  split <;> rfl

@[simp] theorem manager_forget : (mon.forget x).manager = mon.manager := rfl

@[simp] theorem isOpen_forget : (mon.forget x).isOpen = mon.isOpen := rfl

@[simp] theorem manager_deactivate : (mon.deactivate x).manager = mon.manager := by
  unfold deactivate
  split <;> simp

@[simp] theorem isOpen_deactivate : (mon.deactivate x).isOpen = mon.isOpen := by
  unfold deactivate
  split <;> simp

theorem isWatching_eq_true :
    mon.isWatching x = true ↔ ∃ e, mon.entry? x = some e ∧ e.active = true := by
  unfold isWatching
  cases mon.entry? x <;> simp

/-- Unwatching makes the id's watch inactive, if it was watched. -/
theorem unwatch_snd : (mon.unwatch x).2 = if mon.isWatching x then mon.deactivate x else mon := by
  unfold unwatch isWatching deactivate
  cases hx : mon.entry? x with
  | none => rfl
  | some w => by_cases h : w.active = true <;> simp [h]

/-- A watch after a deactivation: the same watcher, and active only if it was and the id is
another. -/
theorem entry?_deactivate_eq_some {e' : EntityWatch}
    (h : entry? (mon.deactivate x) y = some e') :
    ∃ e, mon.entry? y = some e ∧ e.watcher = e'.watcher ∧
      (e'.active = true → y ≠ x ∧ mon.entry? y = some e') := by
  rw [entry?_deactivate] at h
  split_ifs at h with hy
  · subst hy
    obtain ⟨e, he, rfl⟩ := Option.map_eq_some_iff.1 h
    exact ⟨e, he, rfl, by simp⟩
  · exact ⟨e', h, rfl, fun _ => ⟨hy, h⟩⟩

theorem entry?_deactivate_of_eq_some {e : EntityWatch} (h : mon.entry? y = some e) :
    ∃ e', entry? (mon.deactivate x) y = some e' ∧ e'.watcher = e.watcher := by
  rw [entry?_deactivate]
  split_ifs with hy
  · subst hy
    exact ⟨{ e with active := false }, by rw [h]; rfl, rfl⟩
  · exact ⟨e, h, rfl⟩

end EntityMonitor

/-! ## Reading an entity's node -/

namespace Manager

variable (m : Manager) (sv : Service) (x : EntityId) (w : Option Nat)

/-- An entity read from the node its path finds: the payload decoded, or none for a node
without payload, the given watcher armed on the node. -/
theorem getAndWatch_of_found {N : Nat} {n : Node}
    (hr : sv.store.resolve m.handle.root (m.entityPath x) = .ok N)
    (hn : sv.store.tree.nodes[N]? = some n) :
    m.getAndWatch sv x w =
      ((match n.data with
        | some bs =>
          match m.kind.decode bs with
          | .ok e => .ok (some e)
          | .error err => .error (.codec err)
        | none => .ok none), { sv with store := sv.store.arm N .data w }) := by
  have hg : m.handle.get sv (m.entityPath x) w =
      .ok (n.data, { sv with store := sv.store.arm N .data w }) :=
    (Handle.get_eq_ok m.handle).2 ⟨N, n, hr, hn, rfl⟩
  unfold getAndWatch
  rw [hg]
  cases n.data with
  | none => rfl
  | some bs => cases hd : m.kind.decode bs <;> simp [hd]

/-- A path that finds no node reads as no entity, and one that is no path fails; neither
arms anything. -/
theorem getAndWatch_of_error {err : DirError}
    (hr : sv.store.resolve m.handle.root (m.entityPath x) = .error err) :
    m.getAndWatch sv x w = (if err.isNotFound then .ok none else .error (.dir err), sv) := by
  have hg : m.handle.get sv (m.entityPath x) w = .error err := by
    simp [Handle.get, Store.getData, hr, bind, Except.bind, Except.map]
  unfold getAndWatch
  rw [hg]

theorem exists_eq : m.exists sv x = (sv.store.resolve m.handle.root (m.entityPath x)).toBool :=
  rfl

/-- Reading an entity leaves the tree alone. -/
theorem tree_getAndWatch : (m.getAndWatch sv x w).2.store.tree = sv.store.tree := by
  cases hr : sv.store.resolve m.handle.root (m.entityPath x) with
  | ok N =>
    obtain ⟨n, hn⟩ := Store.get_of_resolve_eq_ok hr
    rw [getAndWatch_of_found m sv x w hr hn, Store.tree_arm]
  | error err => rw [getAndWatch_of_error m sv x w hr]

/-- Reading an entity without a watcher changes nothing. -/
theorem getAndWatch_none_snd : (m.getAndWatch sv x none).2 = sv := by
  cases hr : sv.store.resolve m.handle.root (m.entityPath x) with
  | ok N =>
    obtain ⟨n, hn⟩ := Store.get_of_resolve_eq_ok hr
    rw [getAndWatch_of_found m sv x none hr hn]
    rfl
  | error err => rw [getAndWatch_of_error m sv x none hr]

/-- The payload of the node an id's path finds in a store, if it has one, reads as an entity. -/
def Readable (st : Store) : Prop :=
  ∀ N n bs, st.resolve m.handle.root (m.entityPath x) = .ok N → st.tree.nodes[N]? = some n →
    n.data = some bs → ∃ ent, m.kind.decode bs = .ok ent

theorem readable_congr_tree {st st' : Store} (h : st.tree = st'.tree) :
    m.Readable x st → m.Readable x st' := by
  intro hread N n bs hr hn hd
  rw [← Store.resolve_congr_tree h] at hr
  rw [← h] at hn
  exact hread N n bs hr hn hd

end Manager

/-! ## Refreshing one id -/

namespace EntityMonitor

variable {mon : EntityMonitor} {sv : Service} {x : EntityId} (emit : Bool)

/-- A refresh keeps the monitor's manager. -/
theorem manager_refresh : (mon.refresh sv x emit).2.1.manager = mon.manager := by
  unfold refresh
  repeat' split
  all_goals rfl

section Open

variable (hopen : mon.isOpen = true)
include hopen

theorem refresh_of_none (he : mon.entry? x = none) :
    mon.refresh sv x emit = (.ok (none, []), mon, sv) := by
  simp [refresh, hopen, he]

/-- An id no longer watched is forgotten, silently. -/
theorem refresh_of_inactive {e : EntityWatch} (he : mon.entry? x = some e)
    (hact : e.active = false) : mon.refresh sv x emit = (.ok (none, []), mon.forget x, sv) := by
  simp [refresh, hopen, he, hact]

variable {e : EntityWatch} (he : mon.entry? x = some e) (hact : e.active = true)
include he hact

/-- A watched id whose node is there: its watcher armed again on it, the monitor kept; the
entity read is sent. -/
theorem refresh_of_found {N : Nat} {n : Node}
    (hr : sv.store.resolve mon.manager.handle.root (mon.manager.entityPath x) = .ok N)
    (hn : sv.store.tree.nodes[N]? = some n) :
    mon.refresh sv x emit =
      ((match n.data with
        | some bs =>
          match mon.manager.kind.decode bs with
          | .ok ent => .ok (some ent, if emit then [.updated x ent] else [])
          | .error err => .error (.codec err)
        | none => .ok (none, [])),
        mon, { sv with store := sv.store.arm N .data (some e.watcher) }) := by
  have hexists : mon.manager.exists { sv with store := sv.store.arm N .data (some e.watcher) } x =
      true := by
    rw [Manager.exists_eq, Store.resolve_congr_tree (Store.tree_arm _ _ _ _), hr]
    rfl
  simp only [refresh, hopen, he, hact, Bool.not_true, Bool.and_false, Bool.false_eq_true,
    if_false, Manager.getAndWatch_of_found mon.manager sv x (some e.watcher) hr hn]
  cases n.data with
  | none => simp [hexists]
  | some bs => cases hd : mon.manager.kind.decode bs <;> simp [hd]

/-- A watched id whose node is gone: the id forgotten, its deletion sent. -/
theorem refresh_of_gone {err : DirError}
    (hr : sv.store.resolve mon.manager.handle.root (mon.manager.entityPath x) = .error err)
    (hnf : err.isNotFound = true) :
    mon.refresh sv x emit = (.ok (none, if emit then [.deleted x] else []), mon.forget x, sv) := by
  have hexists : mon.manager.exists sv x = false := by
    rw [Manager.exists_eq, hr]
    rfl
  simp [refresh, hopen, he, hact, Manager.getAndWatch_of_error mon.manager sv x _ hr, hnf,
    hexists]

/-- A watched id whose path is no path: the refresh fails and changes nothing. -/
theorem refresh_of_badPath {err : DirError}
    (hr : sv.store.resolve mon.manager.handle.root (mon.manager.entityPath x) = .error err)
    (hnf : err.isNotFound = false) :
    mon.refresh sv x emit = (.error (.dir err), mon, sv) := by
  simp [refresh, hopen, he, hact, Manager.getAndWatch_of_error mon.manager sv x _ hr, hnf]

end Open

section Shape

variable (hopen : mon.isOpen = true)
include hopen

/-- What a refresh of an open monitor can do: keep the monitor or forget the refreshed id,
arm a watcher at most, and send events about the refreshed id only. -/
theorem refresh_shape :
    ((mon.refresh sv x emit).2.1 = mon ∨ (mon.refresh sv x emit).2.1 = mon.forget x) ∧
    (mon.refresh sv x emit).2.2.store.tree = sv.store.tree ∧
    ∀ o evs, (mon.refresh sv x emit).1 = .ok (o, evs) → ∀ ev ∈ evs, ev.id = x := by
  cases he : mon.entry? x with
  | none =>
    rw [refresh_of_none emit hopen he]
    refine ⟨.inl rfl, rfl, ?_⟩
    rintro o evs ⟨⟩ ev hev
    cases hev
  | some e =>
    cases hact : e.active
    · rw [refresh_of_inactive emit hopen he hact]
      refine ⟨.inr rfl, rfl, ?_⟩
      rintro o evs ⟨⟩ ev hev
      cases hev
    · cases hr : sv.store.resolve mon.manager.handle.root (mon.manager.entityPath x) with
      | ok N =>
        obtain ⟨n, hn⟩ := Store.get_of_resolve_eq_ok hr
        rw [refresh_of_found emit hopen he hact hr hn]
        refine ⟨.inl rfl, Store.tree_arm _ _ _ _, fun o evs hres ev hev => ?_⟩
        cases hd : n.data with
        | none =>
          simp only [hd, Except.ok.injEq, Prod.mk.injEq] at hres
          rw [← hres.2] at hev
          cases hev
        | some bs =>
          cases hdec : mon.manager.kind.decode bs with
          | error err => simp [hd, hdec] at hres
          | ok ent =>
            simp only [hd, hdec, Except.ok.injEq, Prod.mk.injEq] at hres
            rw [← hres.2] at hev
            cases emit <;> simp_all [EntityEvent.id]
      | error err =>
        cases hnf : err.isNotFound
        · rw [refresh_of_badPath emit hopen he hact hr hnf]
          refine ⟨.inl rfl, rfl, ?_⟩
          rintro o evs ⟨⟩
        · rw [refresh_of_gone emit hopen he hact hr hnf]
          refine ⟨.inr rfl, rfl, fun o evs hres ev hev => ?_⟩
          simp only [Except.ok.injEq, Prod.mk.injEq] at hres
          rw [← hres.2] at hev
          cases emit <;> simp_all [EntityEvent.id]

/-- A refresh of an id that is not watched sends nothing and leaves it unwatched. -/
theorem refresh_of_not_watching (hw : mon.isWatching x = false) :
    (mon.refresh sv x emit).1 = .ok (none, []) ∧
      (mon.refresh sv x emit).2.1.isWatching x = false := by
  cases he : mon.entry? x with
  | none =>
    rw [refresh_of_none emit hopen he]
    exact ⟨rfl, hw⟩
  | some e =>
    cases hact : e.active
    · rw [refresh_of_inactive emit hopen he hact]
      exact ⟨rfl, by simp [isWatching, entry?_forget]⟩
    · simp [isWatching, he, hact] at hw

end Shape

/-- A watch of an id that has an inactive watch, or none, sets it active and refreshes the id
without sending; it fails when the refresh fails, and then the watch is made inactive again. -/
theorem watch_of_refresh (fresh : Nat) (sv : Service) {next : EntityMonitor}
    (hnext : (mon.entry? x = none ∧ next = mon.setEntry x ⟨fresh, true⟩) ∨
      ∃ e, mon.entry? x = some e ∧ e.active = false ∧
        next = mon.setEntry x { e with active := true }) :
    (mon.watch sv x fresh).1.toBool = (next.refresh sv x false).1.toBool ∧
    (mon.watch sv x fresh).2 =
      (if (next.refresh sv x false).1.toBool then (next.refresh sv x false).2.1
        else (next.refresh sv x false).2.1.deactivate x, (next.refresh sv x false).2.2) := by
  rcases hnext with ⟨he, rfl⟩ | ⟨e, he, hact, rfl⟩
  · simp only [watch, he]
    rcases (mon.setEntry x ⟨fresh, true⟩).refresh sv x false with ⟨r, after, sv'⟩
    cases r <;> exact ⟨rfl, rfl⟩
  · simp only [watch, he, hact, Bool.false_eq_true, if_false]
    rcases (mon.setEntry x { e with active := true }).refresh sv x false with ⟨r, after, sv'⟩
    cases r <;> exact ⟨rfl, rfl⟩

/-- A watch of an id already watched reads it without arming anything, and changes nothing. -/
theorem watch_snd_of_active (fresh : Nat) (sv : Service) {e : EntityWatch}
    (he : mon.entry? x = some e) (hact : e.active = true) :
    (mon.watch sv x fresh).2 = (mon, sv) := by
  simp only [watch, he, hact, if_true]
  rw [Manager.getAndWatch_none_snd]

theorem isWatching_deactivate_self : (mon.deactivate x).isWatching x = false := by
  unfold isWatching
  rw [entry?_deactivate, if_pos rfl]
  cases mon.entry? x <;> rfl

/-- A watch of an id not watched that fails leaves it not watched. -/
theorem isWatching_watch_of_error (fresh : Nat) (sv : Service) (hw : mon.isWatching x = false)
    (hfail : (mon.watch sv x fresh).1.toBool = false) :
    (mon.watch sv x fresh).2.1.isWatching x = false := by
  -- the id's watch is absent or inactive, so the watch refreshes it and, failing, deactivates it
  have hnext : ∃ next, (mon.entry? x = none ∧ next = mon.setEntry x ⟨fresh, true⟩) ∨
      ∃ e, mon.entry? x = some e ∧ e.active = false ∧
        next = mon.setEntry x { e with active := true } := by
    cases he : mon.entry? x with
    | none => exact ⟨_, .inl ⟨rfl, rfl⟩⟩
    | some e =>
      have hact : e.active = false := by simpa [isWatching, he] using hw
      exact ⟨_, .inr ⟨e, rfl, hact, rfl⟩⟩
  obtain ⟨next, hnext⟩ := hnext
  obtain ⟨hres, hmon⟩ := watch_of_refresh fresh sv hnext
  rw [hmon, ← hres, hfail, if_neg Bool.false_ne_true]
  exact isWatching_deactivate_self

end EntityMonitor

/-- Arming a watcher on the data of a node a handle finds is a read, so it keeps a service
reachable. -/
theorem Service.Reachable.arm {sv : Service} (hsv : sv.Reachable) {h : Handle} {path : String}
    {N : Nat} (hr : sv.store.resolve h.root path = .ok N) (w : Option Nat) :
    Service.Reachable { sv with store := sv.store.arm N .data w } := by
  obtain ⟨n, hn⟩ := Store.get_of_resolve_eq_ok hr
  have hstep := Service.Reachable.step (Action.get h path w) hsv
  simpa [Action.step, (Handle.get_eq_ok h).2 ⟨N, n, hr, hn, rfl⟩] using hstep

end CoordStore
