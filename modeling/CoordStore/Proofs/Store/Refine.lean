import CoordStore.Proofs.Tree.View
import CoordStore.Proofs.Store.Batch

/-!
# Edits seen through the view

An edit run on a well-formed store below a handle's root does to the view what the path-keyed
store does from the root's path. `Txn.observe` reads an edit's outcome as the reference reads
its own: the result, and the view of the tree after it. A creation, a replacement of a
payload, a deletion and a write of a batch are each observed as the reference operation
(`Edit.observe_create`, `Edit.observe_setData`, `Edit.observe_delete`, `Edit.observe_apply`);
since a write never removes the handle's root (what it removes lies below it), a run of writes
is observed as the reference's run (`Edit.observe_mapM_apply`). The expiry of a session always
goes through, removing the session's nodes, each a leaf, and counting them
(`Edit.expire_eq_ok`).
-/

namespace CoordStore

namespace Txn

/-- What an edit gives, seen through the view of the tree it leaves. -/
def observe {α : Type} : EStateM.Result DirError Txn α → Except DirError α × PathStore
  | .ok a y => (.ok a, y.store.tree.view)
  | .error e y => (.error e, y.store.tree.view)

@[simp] theorem observe_ok {α : Type} (a : α) (y : Txn) :
    observe (.ok a y) = (.ok a, y.store.tree.view) := rfl

@[simp] theorem observe_error {α : Type} (e : DirError) (y : Txn) :
    observe (.error e y : EStateM.Result DirError Txn α) = (.error e, y.store.tree.view) := rfl

@[simp] theorem tree_applied (x : Txn) (t : Tree) (c : Change) :
    (x.applied t c).store.tree = t := by
  simp [applied]

end Txn

namespace Tree.WF

variable {t : Tree} (hwf : t.WF)
include hwf

theorem walk_view_of_resolve_eq_ok {root : Nat} {r : Node} (hr : t.nodes[root]? = some r)
    {names : List String} (hnames : ∀ s ∈ names, '/' ∉ s.toList) {c : Nat}
    (h : t.resolve root names = .ok c) :
    ∃ m, t.nodes[c]? = some m ∧ t.view.walk r.path names = .ok m.path := by
  obtain ⟨m, hm⟩ := get_of_resolve_eq_ok' h
  refine ⟨m, hm, ?_⟩
  simp [hwf.walk_view_resolve hr hnames, h, node, hm, bind, Except.bind, Except.map]

/-- A creation keeps every node there, with its path. -/
theorem get_of_addChild_eq_ok {p : Nat} {name : String} {data : Option (List UInt8)}
    {mode : CreateMode} {owner : Int} {path : String} {c : Change} {t' : Tree}
    (hadd : t.addChild p name data mode owner = .ok (path, c) t') {id : Nat} {n : Node}
    (hn : t.nodes[id]? = some n) : ∃ n', t'.nodes[id]? = some n' ∧ n'.path = n.path := by
  obtain ⟨pn, hp, -, -, -, -, -, rfl⟩ := Tree.addChild_eq_ok hadd
  obtain ⟨n', hn', hpath, -⟩ := @Tree.get_addNode_of_get t p pn (pn.childName name mode).1
    (pn.childName name mode).2.sequence data mode (if mode.isEphemeral then some owner else none)
    hwf hp id n hn
  exact ⟨n', hn', hpath⟩

theorem walk_view_of_resolve_eq_error {root : Nat} {r : Node} (hr : t.nodes[root]? = some r)
    {names : List String} (hnames : ∀ s ∈ names, '/' ∉ s.toList) {e : DirError}
    (h : t.resolve root names = .error e) : t.view.walk r.path names = .error e := by
  simp [hwf.walk_view_resolve hr hnames, h, bind, Except.bind]

end Tree.WF

namespace Edit

section Edits

variable {root : Nat} {r : Node} {path : String} {data : Option (List UInt8)}
  {mode : CreateMode} {session : Int} {x : Txn}

theorem names_not_slash {names : List String} {name : String}
    (h : Path.splitParent path = .ok (names, name)) : ∀ s ∈ names, '/' ∉ s.toList :=
  fun s hs => ((Path.isName_of_splitParent h).1 s hs).2

/-- A creation is the reference's creation from the root's path. -/
theorem observe_create (hwf : x.store.tree.WF) (hr : x.store.tree.nodes[root]? = some r) :
    Txn.observe (create root path data mode session x) =
      x.store.tree.view.add r.path path data mode session := by
  cases hres : create root path data mode session x with
  | ok a y =>
    obtain ⟨names, name, parent, absolute, c, t, hs, hresolve, hadd, hrel, rfl⟩ :=
      create_eq_ok.1 hres
    obtain ⟨pn, hpn, hwalk⟩ :=
      hwf.walk_view_of_resolve_eq_ok hr (names_not_slash hs) hresolve
    have hobs := hwf.observe_addChild hpn (Path.isName_of_splitParent hs).2 data mode session
    rw [hadd] at hobs
    -- the root is still there after the creation, with its path
    obtain ⟨r', hr', hpath⟩ := hwf.get_of_addChild_eq_ok hadd hr
    simp only [Store.relative, Tree.node, hr', hpath, bind, Except.bind, pure, Except.pure,
      Except.ok.injEq] at hrel
    subst hrel
    simp only [Tree.observe] at hobs
    simp [PathStore.add, hs, hwalk, ← hobs, Except.map]
  | error e y =>
    rcases create_eq_error hres with ⟨⟨e₀, hs, rfl⟩, rfl⟩ | ⟨names, name, hs, hfail⟩
    · simp [PathStore.add, hs]
    rcases hfail with ⟨hresolve, rfl⟩ | ⟨parent, t, hresolve, hadd, rfl⟩
    · simp [PathStore.add, hs,
        hwf.walk_view_of_resolve_eq_error hr (names_not_slash hs) hresolve]
    · obtain ⟨pn, hpn, hwalk⟩ :=
        hwf.walk_view_of_resolve_eq_ok hr (names_not_slash hs) hresolve
      have hobs := hwf.observe_addChild hpn (Path.isName_of_splitParent hs).2 data mode session
      rw [hadd] at hobs
      simp only [Tree.observe] at hobs
      simp [PathStore.add, hs, hwalk, ← hobs, Except.map]

theorem find_view_of_resolve_eq_ok {s : Store} (hwf : s.tree.WF)
    (hr : s.tree.nodes[root]? = some r) {c : Nat} (h : s.resolve root path = .ok c) :
    ∃ m, s.tree.nodes[c]? = some m ∧ s.tree.view.find r.path path = .ok m.path := by
  unfold Store.resolve at h
  cases hs : Path.segments path with
  | error e₀ => simp [hs, Except.mapError, bind, Except.bind] at h
  | ok names =>
    simp only [hs, Except.mapError, bind, Except.bind] at h
    obtain ⟨m, hm, hwalk⟩ := hwf.walk_view_of_resolve_eq_ok hr
      (fun s hs' => (Path.isName_of_segments hs s hs').2) h
    exact ⟨m, hm, by simp [PathStore.find, hs, Except.mapError, bind, Except.bind, hwalk]⟩

theorem find_view_of_resolve_eq_error {s : Store} (hwf : s.tree.WF)
    (hr : s.tree.nodes[root]? = some r) {e : DirError} (h : s.resolve root path = .error e) :
    s.tree.view.find r.path path = .error e := by
  unfold Store.resolve at h
  cases hs : Path.segments path with
  | error e₀ => simpa [PathStore.find, hs, Except.mapError, bind, Except.bind] using h
  | ok names =>
    simp only [hs, Except.mapError, bind, Except.bind] at h
    simp [PathStore.find, hs, Except.mapError, bind, Except.bind,
      hwf.walk_view_of_resolve_eq_error hr (fun s hs' => (Path.isName_of_segments hs s hs').2) h]

/-- A replacement of a payload is the reference's replacement from the root's path. -/
theorem observe_setData (hwf : x.store.tree.WF) (hr : x.store.tree.nodes[root]? = some r) :
    Txn.observe (setData root path data x) = x.store.tree.view.update r.path path data := by
  cases hres : setData root path data x with
  | ok u y =>
    obtain ⟨id, c, t, hresolve, hset, rfl⟩ := setData_eq_ok.1 hres
    obtain ⟨m, hm, hfind⟩ := find_view_of_resolve_eq_ok hwf hr hresolve
    have hobs := hwf.observe_setData hm data
    rw [hset] at hobs
    simp only [Tree.observe, Prod.mk.injEq] at hobs
    simp [PathStore.update, hfind, hobs.2]
  | error e y =>
    obtain ⟨hresolve, rfl⟩ := setData_eq_error hres
    simp [PathStore.update, find_view_of_resolve_eq_error hwf hr hresolve]

/-- A deletion is the reference's deletion from the root's path. -/
theorem observe_delete (hwf : x.store.tree.WF) (hr : x.store.tree.nodes[root]? = some r) :
    Txn.observe (delete root path x) = x.store.tree.view.delete r.path path := by
  cases hres : delete root path x with
  | ok u y =>
    obtain ⟨names, name, parent, c, t, hs, hresolve, hdel, rfl⟩ := delete_eq_ok.1 hres
    obtain ⟨pn, hpn, hwalk⟩ :=
      hwf.walk_view_of_resolve_eq_ok hr (names_not_slash hs) hresolve
    have hobs := hwf.observe_deleteChild hpn (Path.isName_of_splitParent hs).2.2
    rw [hdel] at hobs
    simp only [Tree.observe] at hobs
    simp [PathStore.delete, hs, hwalk, ← hobs]
  | error e y =>
    obtain ⟨hfail, rfl⟩ := delete_eq_error hres
    rcases hfail with ⟨e₀, hs, rfl⟩ | ⟨names, name, hs, hresolve | ⟨parent, t, hresolve, hdel⟩⟩
    · simp [PathStore.delete, hs]
    · simp [PathStore.delete, hs,
        hwf.walk_view_of_resolve_eq_error hr (names_not_slash hs) hresolve]
    · obtain ⟨pn, hpn, hwalk⟩ :=
        hwf.walk_view_of_resolve_eq_ok hr (names_not_slash hs) hresolve
      have hobs := hwf.observe_deleteChild hpn (Path.isName_of_splitParent hs).2.2
      obtain rfl := Tree.deleteChild_eq_error hdel
      rw [hdel] at hobs
      simp only [Tree.observe] at hobs
      simp [PathStore.delete, hs, hwalk, ← hobs]

theorem observe_map {α β : Type} (f : α → β) (e : Edit α) (x : Txn) :
    Txn.observe ((f <$> e) x) = ((Txn.observe (e x)).1.map f, (Txn.observe (e x)).2) := by
  simp only [Functor.map, EStateM.map]
  cases e x <;> rfl

/-- A write of a batch is the reference's write from the root's path. -/
theorem observe_apply (hwf : x.store.tree.WF) (hr : x.store.tree.nodes[root]? = some r)
    (w : Write) :
    Txn.observe (apply root session w x) = x.store.tree.view.write r.path session w := by
  cases w with
  | create p d m =>
    simp only [apply, observe_map, observe_create hwf hr]
    rfl
  | setData p d =>
    simp only [apply, observe_map, observe_setData hwf hr]
    rfl
  | delete p =>
    simp only [apply, observe_map, observe_delete hwf hr]
    rfl

/-- A write keeps the handle's root, with its path: what it removes lies below the root, at a
longer path. -/
theorem apply_keeps_root (hwf : x.store.tree.WF) (hr : x.store.tree.nodes[root]? = some r)
    {w : Write} {res : OpResult} {y : Txn} (h : apply root session w x = .ok res y) :
    ∃ r', y.store.tree.nodes[root]? = some r' ∧ r'.path = r.path := by
  cases w with
  | create p d m =>
    obtain ⟨a, hc, -⟩ := map_eq_ok.1 h
    obtain ⟨names, name, parent, absolute, c, t, hs, hresolve, hadd, hrel, rfl⟩ :=
      create_eq_ok.1 hc
    obtain ⟨r', hr', hpath⟩ := hwf.get_of_addChild_eq_ok hadd hr
    exact ⟨r', by simpa using hr', hpath⟩
  | setData p d =>
    obtain ⟨a, hc, -⟩ := map_eq_ok.1 h
    obtain ⟨id, c, t, hresolve, hset, rfl⟩ := setData_eq_ok.1 hc
    obtain ⟨n, hn, -, rfl⟩ := Tree.setData_eq_ok hset
    by_cases hid : id = root
    · subst hid
      rw [hr] at hn
      cases hn
      exact ⟨{ r with data := d }, by simp [Tree.getElem?_setNode], rfl⟩
    · exact ⟨r, by simp [Tree.getElem?_setNode, hid, hr], rfl⟩
  | delete p =>
    obtain ⟨a, hc, -⟩ := map_eq_ok.1 h
    obtain ⟨names, name, parent, c, t, hs, hresolve, hdel, rfl⟩ := delete_eq_ok.1 hc
    obtain ⟨pn, id, n, hp, hch, hn, -, rfl, rfl⟩ := Tree.deleteChild_eq_ok hdel
    have hid : root ≠ id := by
      rintro rfl
      rw [hr] at hn
      cases hn
      rw [Tree.resolve_of_get hr] at hresolve
      have hle := hwf.length_le_of_descend hr hresolve hp
      have hlen := congrArg String.length (hwf.path_of_childAt hp hch hr)
      rw [Path.length_join (hwf.unslashed hp)] at hlen
      omega
    obtain ⟨r', hr', hpath, -⟩ :=
      @Tree.get_removeNode_of_get x.store.tree parent pn name id hp root r hr hid
    exact ⟨r', by simpa using hr', hpath⟩

/-- A run of writes is the reference's run of writes from the root's path. -/
theorem observe_mapM_apply : ∀ (ws : List Write) {x : Txn} {r : Node}, x.store.WF →
    x.store.tree.nodes[root]? = some r →
    Txn.observe ((ws.mapM (apply root session)) x) = x.store.tree.view.writes r.path session ws
  | [], x, r, _, _ => by simp [PathStore.writes, pure, EStateM.pure]
  | w :: ws, x, r, hwf, hr => by
    have hone : Txn.observe (apply root session w x) = x.store.tree.view.write r.path session w :=
      observe_apply hwf.tree hr w
    rw [List.mapM_cons]
    cases happ : apply root session w x with
    | error e y =>
      rw [happ] at hone
      simp [PathStore.writes, ← hone, bind, EStateM.bind, happ]
    | ok b y =>
      rw [happ] at hone
      have hywf : y.store.WF := Store.WF.steps hwf ((stepwise_apply w x).1 b y happ)
      obtain ⟨r', hr', hpath⟩ := apply_keeps_root hwf.tree hr happ
      have ih := observe_mapM_apply ws hywf hr'
      rw [hpath] at ih
      cases hrest : (ws.mapM (apply root session)) y with
      | ok bs z =>
        rw [hrest] at ih
        simp [PathStore.writes, ← hone, ← ih, bind, EStateM.bind, happ, hrest, pure, EStateM.pure,
          Except.map]
      | error e z =>
        rw [hrest] at ih
        simp [PathStore.writes, ← hone, ← ih, bind, EStateM.bind, happ, hrest, Except.map]

end Edits

end Edit

/-! ## The expiry of a session -/

/-- A childless child is removed. -/
theorem Tree.deleteChild_of_leaf {t : Tree} {p c : Nat} {pn n : Node} {name : String}
    (hp : t.nodes[p]? = some pn) (hch : pn.children[name]? = some c) (hn : t.nodes[c]? = some n)
    (hleaf : n.children = ∅) :
    Tree.deleteChild p name t = .ok (.deleted p name c n) (t.removeNode p pn name c) := by
  simp [Tree.deleteChild, hp, hch, hn, hleaf, Tree.removeNode]

namespace Edit

variable {x : Txn}

/-- An owned node is an ephemeral leaf below the root: it is found again from its path and
removed. -/
theorem expireNode_of_owned (hwf : x.store.tree.WF) {id : Nat} {n : Node}
    (hn : x.store.tree.nodes[id]? = some n) (hid : id ≠ Tree.rootId) (hown : n.owner.isSome) :
    ∃ p pn name, x.store.tree.nodes[p]? = some pn ∧ pn.children[name]? = some id ∧
      n.children = ∅ ∧
      expireNode id x =
        .ok () (x.applied (x.store.tree.removeNode p pn name id) (.deleted p name id n)) := by
  obtain ⟨p, pn, name, hp, hch, hloc⟩ := hwf.locate_eq_ok hn hid
  have hleaf : n.children = ∅ := hwf.leaf hn (by rw [← hwf.owner hn]; exact hown)
  exact ⟨p, pn, name, hp, hch, hleaf,
    expireNode_eq_ok.2 ⟨p, name, _, _, hloc, Tree.deleteChild_of_leaf hp hch hn hleaf, rfl⟩⟩

/-- Removing distinct owned nodes one after the other goes through, and drops exactly their
paths from the view: removing one leaves the others as they were but for their parents. -/
theorem forM_expireNode : ∀ (ids : List Nat) {x : Txn}, x.store.WF → ids.Nodup →
    Tree.rootId ∉ ids → (∀ id ∈ ids, ∃ n, x.store.tree.nodes[id]? = some n ∧ n.owner.isSome) →
    ∃ y, (ids.forM expireNode) x = .ok () y ∧ ∀ k, y.store.tree.view[k]? =
      if ∃ id ∈ ids, ∃ n, x.store.tree.nodes[id]? = some n ∧ n.path = k then none
      else x.store.tree.view[k]?
  | [], x, _, _, _, _ => ⟨x, rfl, fun k => by simp⟩
  | id :: ids, x, hwf, hnodup, hroot, howned => by
    obtain ⟨n, hn, hown⟩ := howned id List.mem_cons_self
    obtain ⟨p, pn, name, hp, hch, hleaf, hexp⟩ :=
      expireNode_of_owned hwf.tree hn (fun h => hroot (h ▸ List.mem_cons_self)) hown
    have hstep := Tree.Step.deleted hp hch hn hleaf
    have hwf1 := hwf.applied hstep
    -- every other node keeps its path and owner
    have hkeep : ∀ i ∈ ids, ∀ m, x.store.tree.nodes[i]? = some m → ∃ m',
        (x.store.tree.removeNode p pn name id).nodes[i]? = some m' ∧ m'.path = m.path ∧
          m'.owner = m.owner := by
      intro i hi m hm
      have hne : i ≠ id := fun he => (List.nodup_cons.1 hnodup).1 (he ▸ hi)
      obtain ⟨m', hm', hpath, -, howner⟩ := Tree.get_removeNode_of_get hp hm hne
      exact ⟨m', hm', hpath, howner⟩
    obtain ⟨y, hrun, hy⟩ := forM_expireNode ids hwf1 (List.nodup_cons.1 hnodup).2
      (fun h => hroot (List.mem_cons_of_mem _ h)) (by
        intro i hi
        obtain ⟨m, hm, hmown⟩ := howned i (List.mem_cons_of_mem _ hi)
        obtain ⟨m', hm', -, howner⟩ := hkeep i hi m hm
        exact ⟨m', by simpa using hm', howner ▸ hmown⟩)
    refine ⟨y, Edit.bind_eq_ok.2 ⟨(), _, hexp, hrun⟩, fun k => ?_⟩
    have hiff : (∃ i ∈ ids, ∃ m, (x.store.tree.removeNode p pn name id).nodes[i]? = some m ∧
        m.path = k) ↔ ∃ i ∈ ids, ∃ m, x.store.tree.nodes[i]? = some m ∧ m.path = k := by
      constructor
      · rintro ⟨i, hi, m', hm', rfl⟩
        obtain ⟨-, m, hm, hpath, -⟩ := Tree.get_of_get_removeNode hp hm'
        exact ⟨i, hi, m, hm, hpath.symm⟩
      · rintro ⟨i, hi, m, hm, rfl⟩
        obtain ⟨m', hm', hpath, -⟩ := hkeep i hi m hm
        exact ⟨i, hi, m', hm', hpath⟩
    have hcons : (∃ i ∈ id :: ids, ∃ m, x.store.tree.nodes[i]? = some m ∧ m.path = k) ↔
        n.path = k ∨ ∃ i ∈ ids, ∃ m, x.store.tree.nodes[i]? = some m ∧ m.path = k := by
      simp only [List.mem_cons, or_and_right, exists_or, exists_eq_left, hn, Option.some.injEq,
        exists_eq_left']
    rw [hy k]
    simp only [Txn.tree_applied, hiff]
    rw [hwf.tree.view_removeNode hp hch hn (hwf.tree.step hstep), Std.ExtTreeMap.getElem?_erase]
    by_cases hA : ∃ i ∈ ids, ∃ m, x.store.tree.nodes[i]? = some m ∧ m.path = k
    · rw [if_pos hA, if_pos (hcons.2 (.inr hA))]
    · rw [if_neg hA]
      by_cases h1 : n.path = k
      · rw [if_pos (hcons.2 (.inl h1)), if_pos (by rw [h1]; exact Std.ReflCmp.compare_self)]
      · rw [if_neg (fun h => (hcons.1 h).elim h1 hA),
          if_neg (fun h => h1 (Std.LawfulEqCmp.eq_of_compare h))]

/-- The expiry of a session on a well-formed store whose root nobody owns goes through: it
removes exactly the entries the session owns, and gives how many. -/
theorem expire_eq_ok (hwf : x.store.WF)
    (hroot : ∀ r, x.store.tree.nodes[Tree.rootId]? = some r → r.owner = none) (s : Int) :
    ∃ y, expire s x = .ok (x.store.tree.view.expire s).1 y ∧
      y.store.tree.view = (x.store.tree.view.expire s).2 := by
  have hrootOut : Tree.rootId ∉ x.store.tree.ownedBy s := fun h => by
    obtain ⟨n, hn, hown⟩ := Tree.mem_ownedBy.1 h
    simp [hroot n hn] at hown
  obtain ⟨y, hrun, hy⟩ := forM_expireNode (x.store.tree.ownedBy s) hwf (Tree.nodup_ownedBy s)
    hrootOut (fun id hid => by
      obtain ⟨n, hn, hown⟩ := Tree.mem_ownedBy.1 hid
      exact ⟨n, hn, by simp [hown]⟩)
  refine ⟨y, ?_, Std.ExtTreeMap.ext_getElem? fun k => ?_⟩
  · show expire s x = .ok (x.store.tree.view.filter fun _ e => e.owner == some s).size y
    rw [← hwf.tree.length_ownedBy]
    exact Edit.bind_eq_ok.2 ⟨x.store, x, rfl, Edit.bind_eq_ok.2 ⟨(), y, hrun, rfl⟩⟩
  · rw [hy k, PathStore.expire, Std.ExtTreeMap.getElem?_filter']
    by_cases hk : ∃ (i : Nat) (m : Node), x.store.tree.nodes[i]? = some m ∧ m.path = k
    · obtain ⟨i, m, hm, rfl⟩ := hk
      rw [hwf.tree.getElem?_view hm]
      -- the owned node with this path is this node
      have hiff : (∃ id ∈ x.store.tree.ownedBy s, ∃ n, x.store.tree.nodes[id]? = some n ∧
          n.path = m.path) ↔ m.owner = some s := by
        constructor
        · rintro ⟨id, hid, n, hn, hpath⟩
          obtain ⟨n', hn', hown⟩ := Tree.mem_ownedBy.1 hid
          rw [hn] at hn'
          cases hn'
          obtain rfl := hwf.tree.path_injective hn hm hpath
          rw [hm] at hn
          cases hn
          exact hown
        · intro hown
          exact ⟨i, Tree.mem_ownedBy.2 ⟨m, hm, hown⟩, m, hm, rfl⟩
      by_cases hown : m.owner = some s
      · simp [hiff.2 hown, Entry.of, hown, Option.filter_some]
      · simp [mt hiff.1 hown, Entry.of, hown, Option.filter_some]
    · have hnone : ¬ ∃ id ∈ x.store.tree.ownedBy s, ∃ n, x.store.tree.nodes[id]? = some n ∧
          n.path = k := by
        rintro ⟨id, -, n, hn, hpath⟩
        exact hk ⟨id, n, hn, hpath⟩
      simp [hnone, Tree.getElem?_view_eq_none hk]

end Edit

end CoordStore
