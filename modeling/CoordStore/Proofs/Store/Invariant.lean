import CoordStore.Proofs.Store.Edit

/-!
# The store invariant

A store is well formed (`Store.WF`) when its tree is, and its registry keeps non-empty sets of
distinct watchers on present nodes only. Recording a change takes out the watcher sets the
change concerns (`Change.takes`), among them both sets of a node it deletes, so every step of
an edit keeps the store well formed (`Store.WF.step`); so does registering a watcher on the
node a path leads to.
-/

namespace CoordStore

namespace Change

/-- Whether recording the change takes the watchers of a node for a kind of change: a created
node takes its parent's children watchers, a new payload the node's data watchers, and a
deletion both sets of the node and its parent's children watchers. -/
def takes : Change → Nat → WatchKind → Bool
  | .created parent _ _, n, .children => n == parent
  | .dataChanged id _, n, .data => n == id
  | .deleted _ _ id _, n, .data => n == id
  | .deleted parent _ id _, n, .children => n == id || n == parent
  | _, _, _ => false

/-- Whether the watchers a change takes on a node are delivered: all of them but the children
watchers of a deleted node. -/
def fires : Change → Nat → WatchKind → Bool
  | .created parent _ _, n, .children => n == parent
  | .dataChanged id _, n, .data => n == id
  | .deleted _ _ id _, n, .data => n == id
  | .deleted parent _ _ _, n, .children => n == parent
  | _, _, _ => false

/-- Whether the change removes a node. -/
def removes : Change → Nat → Bool
  | .deleted _ _ id _, n => n == id
  | _, _ => false

/-- Whether the change creates a node. -/
def isCreated : Change → Bool
  | .created .. => true
  | _ => false

/-- A change takes the data watchers it fires. -/
theorem takes_data (c : Change) (n : Nat) : c.takes n .data = c.fires n .data := by
  cases c <;> rfl

/-- A change takes the children watchers it fires, and those of the node it removes. -/
theorem takes_children (c : Change) (n : Nat) :
    c.takes n .children = (c.fires n .children || c.removes n) := by
  cases c <;> simp [takes, fires, removes, Bool.or_comm]

theorem takes_of_removes {c : Change} {n : Nat} (h : c.removes n = true) (k : WatchKind) :
    c.takes n k = true := by
  cases c <;> cases k <;> simp_all [takes, removes]

end Change

namespace Tree

theorem ne_of_get_of_none {t : Tree} {q n : Nat} {m : Node} (hq : t.nodes[q]? = some m)
    (hn : t.nodes[n]? = none) : q ≠ n := by
  rintro rfl
  simp [hq] at hn

namespace Step

variable {t t' : Tree} {c : Change}

/-- A change keeps every node it does not remove. -/
theorem get_of_get (h : t.Step c t') {n : Nat} {m : Node} (hn : t.nodes[n]? = some m)
    (hr : c.removes n = false) : ∃ m', t'.nodes[n]? = some m' := by
  cases h with
  | created =>
    rw [getElem?_addNode]
    split_ifs <;> simp [hn]
  | dataChanged =>
    rw [getElem?_setNode]
    split_ifs <;> simp [hn]
  | deleted =>
    simp only [Change.removes, beq_eq_false_iff_ne] at hr
    rw [getElem?_removeNode, if_neg (Ne.symm hr)]
    split_ifs <;> simp [hn]

/-- A number that is free and already given out stays free. -/
theorem absent (h : t.Step c t') {n : Nat} (hn : t.nodes[n]? = none) (hlt : n < t.nextId) :
    t'.nodes[n]? = none ∧ n < t'.nextId := by
  cases h with
  | created hp =>
    rw [getElem?_addNode, if_neg (Nat.ne_of_lt hlt).symm, if_neg (ne_of_get_of_none hp hn)]
    exact ⟨hn, by simp only [addNode]; omega⟩
  | dataChanged _ hid =>
    rw [getElem?_setNode, if_neg (ne_of_get_of_none hid hn)]
    exact ⟨hn, hlt⟩
  | deleted hp =>
    rw [getElem?_removeNode, if_neg (ne_of_get_of_none hp hn)]
    split_ifs
    · exact ⟨rfl, hlt⟩
    · exact ⟨hn, hlt⟩

/-- The node a change removes is gone afterwards, its number given out. -/
theorem removed (hwf : t.WF) (h : t.Step c t') {n : Nat} (hr : c.removes n = true) :
    t'.nodes[n]? = none ∧ n < t'.nextId := by
  cases h with
  | created => simp [Change.removes] at hr
  | dataChanged => simp [Change.removes] at hr
  | deleted _ _ hc =>
    simp only [Change.removes, beq_iff_eq] at hr
    subst hr
    rw [getElem?_removeNode, if_pos rfl]
    exact ⟨rfl, hwf.fresh hc⟩

/-- A node whose children watchers a change fires is present before the change. -/
theorem get_of_fires_children (h : t.Step c t') {n : Nat} (hf : c.fires n .children = true) :
    ∃ m, t.nodes[n]? = some m := by
  cases h with
  | created hp =>
    simp only [Change.fires, beq_iff_eq] at hf
    subst hf
    exact ⟨_, hp⟩
  | dataChanged => simp [Change.fires] at hf
  | deleted hp =>
    simp only [Change.fires, beq_iff_eq] at hf
    subst hf
    exact ⟨_, hp⟩

/-- Only creations give out a number. -/
theorem nextId_eq (h : t.Step c t') : t'.nextId = t.nextId + if c.isCreated then 1 else 0 := by
  cases h <;> simp [addNode, setNode, removeNode, Change.isCreated]

/-- A deletion removes a node other than its parent. -/
theorem ne_of_deleted (hwf : t.WF) {p c' : Nat} {name : String} {n : Node}
    (h : t.Step (.deleted p name c' n) t') : p ≠ c' := by
  cases h with
  | deleted hp hch => exact hwf.ne_of_childAt ⟨_, hp, hch⟩

end Step

end Tree

namespace Txn

section Take

variable (x : Txn) (node : Nat) (kind : WatchKind) (fire : Bool)

@[simp] theorem tree_take : (x.take node kind fire).store.tree = x.store.tree := by
  by_cases h : (x.store.watches.waiting node kind).isEmpty <;> simp [take, Registry.take, h]

@[simp] theorem journal_take : (x.take node kind fire).batch.journal = x.batch.journal := by
  by_cases h : (x.store.watches.waiting node kind).isEmpty <;> simp [take, Registry.take, h]

@[simp] theorem watches_take :
    (x.take node kind fire).store.watches = (x.store.watches.take node kind).2 := by
  by_cases h : (x.store.watches.waiting node kind).isEmpty <;> simp [take, Registry.take, h]

/-- Taking a set records it, unless it is empty. -/
theorem taken_take :
    (x.take node kind fire).batch.taken = x.batch.taken ++
      if (x.store.watches.waiting node kind).isEmpty then []
      else [⟨node, kind, x.store.watches.waiting node kind, fire⟩] := by
  by_cases h : (x.store.watches.waiting node kind).isEmpty <;> simp [take, Registry.take, h]

theorem sound_take {x : Txn} (h : x.store.watches.Sound) :
    (x.take node kind fire).store.watches.Sound := by
  rw [watches_take]
  exact h.take node kind

end Take

section Record

variable (c : Change) (x : Txn)

@[simp] theorem tree_record : (x.record c).store.tree = x.store.tree := by
  cases c <;> simp [record]

@[simp] theorem journal_record : (x.record c).batch.journal = c :: x.batch.journal := by
  cases c <;> simp [record]

/-- After a change is recorded, the sets it takes are empty and all others as they were. -/
theorem waiting_record (n : Nat) (k : WatchKind) :
    (x.record c).store.watches.waiting n k =
      if c.takes n k then [] else x.store.watches.waiting n k := by
  cases c with
  | created p =>
    by_cases hn : n = p
    · subst hn
      cases k <;> simp [record, Registry.waiting_take, Change.takes]
    · cases k <;> simp [record, Registry.waiting_take, Change.takes, hn, Ne.symm hn]
  | dataChanged id =>
    by_cases hn : n = id
    · subst hn
      cases k <;> simp [record, Registry.waiting_take, Change.takes]
    · cases k <;> simp [record, Registry.waiting_take, Change.takes, hn, Ne.symm hn]
  | deleted p _ id =>
    by_cases hn : n = id
    · subst hn
      cases k <;> simp [record, Registry.waiting_take, Change.takes]
    · by_cases hp : n = p
      · subst hp
        cases k <;> simp [record, Registry.waiting_take, Change.takes, hn, Ne.symm hn]
      · cases k <;>
          simp [record, Registry.waiting_take, Change.takes, hn, hp, Ne.symm hn, Ne.symm hp]

theorem sound_record {x : Txn} (h : x.store.watches.Sound) : (x.record c).store.watches.Sound := by
  cases c <;> simp only [record]
  · exact sound_take _ _ _ h
  · exact sound_take _ _ _ h
  · exact sound_take _ _ _ (sound_take _ _ _ (sound_take _ _ _ h))

end Record

end Txn

namespace Store

/-- A well-formed store: its tree is well formed, and its registry keeps non-empty sets of
distinct watchers, on present nodes only. -/
structure WF (s : Store) : Prop where
  tree : s.tree.WF
  sound : s.watches.Sound
  /-- Every node a watcher waits on is present. -/
  keys : ∀ {k : WatchKind} {n : Nat} {ws : List Nat}, (s.watches.table k)[n]? = some ws →
    ∃ m, s.tree.nodes[n]? = some m

variable {s : Store}

theorem WF.present (h : s.WF) {n : Nat} {k : WatchKind} (hw : s.watches.waiting n k ≠ []) :
    ∃ m, s.tree.nodes[n]? = some m := by
  unfold Registry.waiting at hw
  cases ht : (s.watches.table k)[n]? with
  | none => simp [ht] at hw
  | some ws => exact h.keys ht

/-- The invariant from the waiting sets: a set that is not empty sits on a present node. -/
theorem WF.of_present (ht : s.tree.WF) (hs : s.watches.Sound)
    (hp : ∀ n k, s.watches.waiting n k ≠ [] → ∃ m, s.tree.nodes[n]? = some m) : s.WF where
  tree := ht
  sound := hs
  keys := by
    intro k n ws h
    apply hp n k
    simpa [Registry.waiting, h] using hs.nonempty h

theorem WF.empty : Store.empty.WF where
  tree := Tree.WF.empty
  sound := Registry.Sound.empty
  keys := by
    intro k n ws h
    cases k <;> simp [Store.empty, Registry.empty, Registry.table] at h

/-- Registering a watcher on a present node keeps the store well formed. -/
theorem WF.register (h : s.WF) {id : Nat} {m : Node} (hid : s.tree.nodes[id]? = some m)
    (k : WatchKind) (w : Nat) : { s with watches := s.watches.register id k w }.WF := by
  refine WF.of_present h.tree (h.sound.register id k w) ?_
  intro n k' hw
  simp only [Registry.waiting_register] at hw
  split_ifs at hw with hn
  · exact hn.1 ▸ ⟨m, hid⟩
  · exact h.present hw

/-- Recording a tree step keeps the store well formed: the sets the step takes include both
sets of a node it removes. -/
theorem WF.applied {x : Txn} {c : Change} {t : Tree} (hwf : x.store.WF)
    (h : x.store.tree.Step c t) : (x.applied t c).store.WF := by
  refine WF.of_present ?_ (Txn.sound_record c hwf.sound) ?_
  · simpa [Txn.applied] using hwf.tree.step h
  · intro n k hw
    simp only [Txn.applied, Txn.waiting_record] at hw
    split_ifs at hw with ht
    · exact absurd rfl hw
    obtain ⟨m, hm⟩ := hwf.present hw
    have hr : c.removes n = false := by
      cases hrem : c.removes n
      · rfl
      · exact absurd (Change.takes_of_removes hrem k) ht
    simpa [Txn.applied] using h.get_of_get hm hr

/-- Every step of an edit keeps the store well formed. -/
theorem WF.step {x y : Txn} (hwf : x.store.WF) (h : x.Step y) : y.store.WF := by
  cases h with
  | change h => exact hwf.applied h
  | bump hp =>
    refine WF.of_present (hwf.tree.bump hp) hwf.sound ?_
    intro n k hw
    obtain ⟨m, hm⟩ := hwf.present hw
    simp only [Tree.getElem?_setNode]
    split_ifs <;> simp [hm]

theorem WF.steps {x y : Txn} (hwf : x.store.WF) (h : Txn.Steps x y) : y.store.WF := by
  induction h with
  | refl => exact hwf
  | tail _ hstep ih => exact ih.step hstep

/-- A path resolves to a present node. -/
theorem get_of_resolve_eq_ok {root : Nat} {path : String} {id : Nat}
    (h : s.resolve root path = .ok id) : ∃ m, s.tree.nodes[id]? = some m := by
  unfold Store.resolve at h
  cases hs : (Path.segments path).mapError DirError.badPath with
  | error e => simp [hs, bind, Except.bind] at h
  | ok names => exact Tree.get_of_resolve_eq_ok' (by simpa [hs, bind, Except.bind] using h)

/-- The store after a read that may register a watcher on the node it read. -/
def arm (s : Store) (id : Nat) (k : WatchKind) : Option Nat → Store
  | some w => { s with watches := s.watches.register id k w }
  | none => s

theorem getData_eq_ok {root : Nat} {path : String} {w : Option Nat}
    {r : Option (List UInt8) × Store} :
    s.getData root path w = .ok r ↔
      ∃ id m, s.resolve root path = .ok id ∧ s.tree.nodes[id]? = some m ∧
        r = (m.data, s.arm id .data w) := by
  unfold getData
  cases hr : s.resolve root path with
  | error e => simp [bind, Except.bind]
  | ok id =>
    cases w <;>
      cases hm : s.tree.nodes[id]? <;> simp [bind, Except.bind, arm, Tree.node, hm, pure, Except.pure, eq_comm]

theorem getChildren_eq_ok {root : Nat} {path : String} {w : Option Nat}
    {r : List String × Store} :
    s.getChildren root path w = .ok r ↔
      ∃ id m, s.resolve root path = .ok id ∧ s.tree.nodes[id]? = some m ∧
        r = (m.childNames, s.arm id .children w) := by
  unfold getChildren
  cases hr : s.resolve root path with
  | error e => simp [bind, Except.bind]
  | ok id =>
    cases w <;>
      cases hm : s.tree.nodes[id]? <;> simp [bind, Except.bind, arm, Tree.node, hm, pure, Except.pure, eq_comm]

theorem WF.arm (h : s.WF) {id : Nat} {m : Node} (hid : s.tree.nodes[id]? = some m)
    (k : WatchKind) : ∀ w, (s.arm id k w).WF
  | some w => h.register hid k w
  | none => h

end Store

end CoordStore
