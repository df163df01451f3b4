import CoordStore.Proofs.Service.Run
import CoordStore.Proofs.Store.Refine

/-!
# The store refines a store keyed by paths

Seen through `Tree.view`, the node tree behind every handle is the path-keyed reference store
of `CoordStore.Proofs.PathStore`: the first store is the reference's first store, and in every
reachable state each operation gives what the reference gives on the view, and leaves the view
the reference leaves (`refines_pathStore`). Operations through a handle are read below the
path of the handle's root. A batch that is refused or fails leaves the view as it was but for
counters moved on, the counters that sequential creations inside it used.

The expiry of a session needs one more invariant of runs: nobody owns the root
(`Service.Reachable.rootUnowned`). It is one instance of a property of trees that every step
of an edit and every taking back of a batch keeps (`Tree.Kept`), which every run then keeps.
-/

namespace CoordStore

/-! ## Properties of the tree alone that every run keeps -/

/-- A property of trees that every tree step keeps, and every moving on of counters. -/
structure Tree.Kept (P : Tree → Prop) : Prop where
  step : ∀ {t t' : Tree} {c : Change}, t.WF → t.Step c t' → P t → P t'
  advanced : ∀ {t t' : Tree}, t.Advanced t' → P t → P t'

namespace Tree.Kept

variable {P : Tree → Prop} (hP : Tree.Kept P)
include hP

theorem txnStep {x y : Txn} (hwf : x.store.tree.WF) (h : x.Step y) (hx : P x.store.tree) :
    P y.store.tree := by
  cases h with
  | change hs => simpa using hP.step hwf hs hx
  | bump hp => exact hP.advanced (advanced_bump hp) hx

theorem steps {x y : Txn} (hwf : x.store.WF) (h : Txn.Steps x y) (hx : P x.store.tree) :
    P y.store.tree := by
  induction h with
  | refl => exact hx
  | tail hxy hyz ih => exact hP.txnStep (Store.WF.steps hwf hxy).tree hyz ih

variable {sv : Service}

theorem single {α : Type} {e : Edit α} (he : e.Stepwise) (hwf : sv.store.WF)
    (h : P sv.store.tree) : P (sv.single e).service.store.tree := by
  unfold Service.single
  cases hr : e (Txn.start sv.store) with
  | ok a x => exact hP.steps hwf ((he _).1 a x hr) h
  | error err x => exact hP.steps hwf ((he _).2 err x hr) h

/-- A batch kept whole or taken back whole keeps the property. -/
theorem batch {α : Type} {e : Edit α} (he : e.Stepwise) (hwf : sv.store.WF) {x : Txn}
    (hx : (∃ a, e (Txn.start sv.store) = .ok a x) ∨ ∃ err, e (Txn.start sv.store) = .error err x)
    (h : P sv.store.tree) : P x.store.tree ∧ P x.rollback.tree := by
  have hsteps : Txn.Steps (Txn.start sv.store) x := by
    rcases hx with ⟨a, hx⟩ | ⟨err, hx⟩
    · exact (he _).1 a x hx
    · exact (he _).2 err x hx
  exact ⟨hP.steps hwf hsteps h,
    hP.advanced (Service.tracks_of_stepwise he hwf hx).1.rollback_tree h⟩

/-- Every operation keeps the property: reads do not touch the tree. -/
theorem action (a : Action) (hwf : sv.store.WF) (h : P sv.store.tree) :
    P (a.step sv).1.store.tree := by
  cases a with
  | add hd p d m => exact hP.single Edit.stepwise_create hwf h
  | update hd p d => exact hP.single Edit.stepwise_setData hwf h
  | delete hd p => exact hP.single Edit.stepwise_delete hwf h
  | get hd p w =>
    simp only [Action.step]
    cases hg : hd.get sv p w with
    | error e => exact h
    | ok r =>
      obtain ⟨id, m, -, -, rfl⟩ := (Handle.get_eq_ok hd).1 hg
      cases w <;> exact h
  | children hd p w =>
    simp only [Action.step]
    cases hg : hd.children sv p w with
    | error e => exact h
    | ok r =>
      obtain ⟨id, m, -, -, rfl⟩ := (Handle.children_eq_ok hd).1 hg
      cases w <;> exact h
  | multi hd ops =>
    simp only [Action.step]
    unfold Handle.multi
    cases hm : ops.mapM BatchOp.toWrite? with
    | none => exact h
    | some ws =>
      simp only
      cases hr : (ws.mapM (Edit.apply hd.root hd.session)) (Txn.start sv.store) with
      | ok rs x => exact (hP.batch (Edit.stepwise_batch ws) hwf (.inl ⟨rs, hr⟩) h).1
      | error err x => exact (hP.batch (Edit.stepwise_batch ws) hwf (.inr ⟨err, hr⟩) h).2
  | expire s =>
    simp only [Action.step]
    unfold Service.expire
    cases hr : Edit.expire s (Txn.start sv.store) with
    | ok n x => exact (hP.batch (Edit.stepwise_expire s) hwf (.inl ⟨n, hr⟩) h).1
    | error err x => exact (hP.batch (Edit.stepwise_expire s) hwf (.inr ⟨err, hr⟩) h).2

end Tree.Kept

/-- A property the first tree has and every step keeps holds of every reachable tree. -/
theorem Service.Reachable.kept {P : Tree → Prop} (hP : Tree.Kept P) (h0 : P Tree.empty)
    {sv : Service} (h : sv.Reachable) : P sv.store.tree := by
  induction h with
  | empty => exact h0
  | step a hsv ih => exact hP.action a hsv.wf ih

/-- Nobody owns the root. -/
def Tree.RootUnowned (t : Tree) : Prop :=
  ∀ r, t.nodes[Tree.rootId]? = some r → r.owner = none

/-- A node keeps its owner for as long as it lives, and the root lives for ever. -/
theorem Tree.kept_rootUnowned : Tree.Kept Tree.RootUnowned where
  step := by
    intro t t' c hwf hs hroot r' hr'
    cases hs with
    | created hp =>
      rcases get_of_get_addNode hp hr' with ⟨hid, -⟩ | ⟨xn, hxn, -, -, howner, -⟩
      · exact absurd hid (Nat.ne_of_lt hwf.root_lt)
      · rw [howner]
        exact hroot xn hxn
    | @dataChanged id n data hn =>
      rw [getElem?_setNode] at hr'
      split_ifs at hr' with hid
      · cases hr'
        subst hid
        exact hroot n hn
      · exact hroot r' hr'
    | deleted hp =>
      obtain ⟨-, xn, hxn, -, -, howner⟩ := get_of_get_removeNode hp hr'
      rw [howner]
      exact hroot xn hxn
  advanced := by
    intro t t' h hroot r' hr'
    obtain ⟨r, hr, -, -, howner, -⟩ := h.sameSkeleton.symm.get hr'
    rw [← howner]
    exact hroot r hr

theorem Service.Reachable.rootUnowned {sv : Service} (h : sv.Reachable) :
    sv.store.tree.RootUnowned :=
  h.kept Tree.kept_rootUnowned fun r hr => by
    rw [Tree.getElem?_empty, if_pos rfl] at hr
    cases hr
    rfl

/-! ## Each operation seen through the view -/

/-- A reply seen through the view: its result, and the view of the store it leaves. -/
def Reply.observe {α : Type} (r : Reply α) : Except DirError α × PathStore :=
  (r.result, r.service.store.tree.view)

namespace Service

variable {sv : Service}

/-- A single operation is seen as its edit is. -/
theorem observe_single {α : Type} (e : Edit α) :
    (sv.single e).observe = Txn.observe (e (Txn.start sv.store)) := by
  unfold single
  cases e (Txn.start sv.store) <;> rfl

/-- The expiry of a session is the reference's expiry. -/
theorem observe_expire (hwf : sv.store.WF) (hroot : sv.store.tree.RootUnowned) (s : Int) :
    (sv.expire s).observe =
      (.ok (sv.store.tree.view.expire s).1, (sv.store.tree.view.expire s).2) := by
  obtain ⟨y, hrun, hview⟩ := Edit.expire_eq_ok (x := Txn.start sv.store) hwf hroot s
  simp only [Txn.start] at hview
  unfold expire
  rw [hrun]
  simp [Reply.observe, delivered, Txn.start, hview]

end Service

namespace Handle

variable {sv : Service} (h : Handle) {r : Node}

theorem observe_add (hwf : sv.store.WF) (hr : sv.store.tree.nodes[h.root]? = some r)
    (path : String) (data : Option (List UInt8)) (mode : CreateMode) :
    (h.add sv path data mode).observe = sv.store.tree.view.add r.path path data mode h.session :=
  (Service.observe_single _).trans (Edit.observe_create (x := Txn.start sv.store) hwf.tree hr)

theorem observe_update (hwf : sv.store.WF) (hr : sv.store.tree.nodes[h.root]? = some r)
    (path : String) (data : Option (List UInt8)) :
    (h.update sv path data).observe = sv.store.tree.view.update r.path path data :=
  (Service.observe_single _).trans (Edit.observe_setData (x := Txn.start sv.store) hwf.tree hr)

theorem observe_delete (hwf : sv.store.WF) (hr : sv.store.tree.nodes[h.root]? = some r)
    (path : String) : (h.delete sv path).observe = sv.store.tree.view.delete r.path path :=
  (Service.observe_single _).trans (Edit.observe_delete (x := Txn.start sv.store) hwf.tree hr)

/-- A read gives the payload of the entry at the path. -/
theorem get_refines (hwf : sv.store.WF) (hr : sv.store.tree.nodes[h.root]? = some r)
    (path : String) (w : Option Nat) :
    (h.get sv path w).map Prod.fst = sv.store.tree.view.get r.path path := by
  cases hres : sv.store.resolve h.root path with
  | ok id =>
    obtain ⟨m, hm, hfind⟩ := Edit.find_view_of_resolve_eq_ok hwf.tree hr hres
    have hget : h.get sv path w = .ok (m.data, { sv with store := sv.store.arm id .data w }) :=
      (get_eq_ok h).2 ⟨id, m, hres, hm, rfl⟩
    simp [hget, PathStore.get, hfind, hwf.tree.getElem?_view hm, Entry.of, Except.map, bind,
      Except.bind, pure, Except.pure]
  | error e =>
    have hget : h.get sv path w = .error e := by
      simp [Handle.get, Store.getData, hres, bind, Except.bind, Except.map]
    simp [hget, PathStore.get, Edit.find_view_of_resolve_eq_error hwf.tree hr hres, Except.map,
      bind, Except.bind]

/-- Listing gives the names one name below the path in the reference, in ascending order. -/
theorem children_refines (hwf : sv.store.WF) (hr : sv.store.tree.nodes[h.root]? = some r)
    (path : String) (w : Option Nat) :
    (h.children sv path w).map Prod.fst = sv.store.tree.view.getChildren r.path path := by
  cases hres : sv.store.resolve h.root path with
  | ok id =>
    obtain ⟨m, hm, hfind⟩ := Edit.find_view_of_resolve_eq_ok hwf.tree hr hres
    have hch : h.children sv path w =
        .ok (m.childNames, { sv with store := sv.store.arm id .children w }) :=
      (children_eq_ok h).2 ⟨id, m, hres, hm, rfl⟩
    simp [hch, PathStore.getChildren, hfind, hwf.tree.getElem?_view hm, hwf.tree.namesBelow_view hm,
      Except.map, bind, Except.bind, pure, Except.pure]
  | error e =>
    have hch : h.children sv path w = .error e := by
      simp [Handle.children, Store.getChildren, hres, bind, Except.bind, Except.map]
    simp [hch, PathStore.getChildren, Edit.find_view_of_resolve_eq_error hwf.tree hr hres,
      Except.map, bind, Except.bind]

/-- A path leads to a node exactly when it leads to an entry of the reference. -/
theorem has_refines (hwf : sv.store.WF) (hr : sv.store.tree.nodes[h.root]? = some r)
    (path : String) : h.has sv path = sv.store.tree.view.has r.path path := by
  have hget := h.get_refines hwf hr path none
  rw [PathStore.has, ← hget]
  cases hres : sv.store.resolve h.root path with
  | ok id =>
    obtain ⟨m, hm, -⟩ := Edit.find_view_of_resolve_eq_ok hwf.tree hr hres
    have hg : h.get sv path none = .ok (m.data, { sv with store := sv.store.arm id .data none }) :=
      (get_eq_ok h).2 ⟨id, m, hres, hm, rfl⟩
    simp [Handle.has, hres, hg, Except.toBool, Except.map]
  | error e =>
    have hg : h.get sv path none = .error e := by
      simp [Handle.get, Store.getData, hres, bind, Except.bind, Except.map]
    simp [Handle.has, hres, hg, Except.toBool, Except.map]

/-- A batch gives the reference's result. Gone through or refused, it leaves the reference's
view; failed, it leaves the view as it was but for counters moved on. -/
theorem observe_multi (hwf : sv.store.WF) (hr : sv.store.tree.nodes[h.root]? = some r)
    (ops : List BatchOp) :
    (h.multi sv ops).result = (sv.store.tree.view.multi r.path h.session ops).1 ∧
      PathStore.CountersAdvanced (sv.store.tree.view.multi r.path h.session ops).2
        (h.multi sv ops).service.store.tree.view ∧
      ((h.multi sv ops).result.toBool ∨ (∃ p v, BatchOp.check p v ∈ ops) →
        (h.multi sv ops).observe = sv.store.tree.view.multi r.path h.session ops) := by
  unfold Handle.multi PathStore.multi
  cases hm : ops.mapM BatchOp.toWrite? with
  | none => exact ⟨rfl, PathStore.CountersAdvanced.refl _, fun _ => rfl⟩
  | some ws =>
    have hobs : Txn.observe ((ws.mapM (Edit.apply h.root h.session)) (Txn.start sv.store)) =
        sv.store.tree.view.writes r.path h.session ws :=
      Edit.observe_mapM_apply ws (x := Txn.start sv.store) hwf hr
    simp only
    cases hrun : (ws.mapM (Edit.apply h.root h.session)) (Txn.start sv.store) with
    | ok rs x =>
      rw [hrun] at hobs
      simp only [Txn.observe_ok] at hobs
      rw [← hobs]
      exact ⟨rfl, PathStore.CountersAdvanced.refl _, fun _ => rfl⟩
    | error e x =>
      rw [hrun] at hobs
      simp only [Txn.observe_error] at hobs
      rw [← hobs]
      have htracks := (Service.tracks_of_stepwise (Edit.stepwise_batch ws) hwf (.inr ⟨e, hrun⟩)).1
      refine ⟨rfl, hwf.tree.countersAdvanced_view htracks.rollback_tree, fun hkept => ?_⟩
      -- a failed batch ran, so it holds no check
      obtain hfail | hcheck := hkept
      · cases hfail
      · rw [BatchOp.mapM_toWrite?_eq_none hcheck] at hm
        cases hm

end Handle

/-- The store refines the path-keyed reference store. Seen through `Tree.view`, the first
store is the reference's first store; in every reachable state the expiry of a session is the
reference's expiry, and every operation through a handle whose root is there is the
reference's operation below the root's path: creating, replacing a payload, deleting and
reading (a payload, the names of the children, whether a path leads to a node) give the results
the reference gives and leave the view it leaves, and a batch gives
the reference's result, leaves its view when it goes through or is refused for a check, and
when a write fails leaves the view as it was but for counters moved on. -/
theorem refines_pathStore :
    Tree.empty.view = PathStore.initial ∧
    ∀ {sv : Service}, sv.Reachable →
      (∀ s, (sv.expire s).observe =
        (.ok (sv.store.tree.view.expire s).1, (sv.store.tree.view.expire s).2)) ∧
      ∀ (h : Handle) (r : Node), sv.store.tree.nodes[h.root]? = some r →
        (∀ path data mode,
          (h.add sv path data mode).observe =
            sv.store.tree.view.add r.path path data mode h.session) ∧
        (∀ path data,
          (h.update sv path data).observe = sv.store.tree.view.update r.path path data) ∧
        (∀ path, (h.delete sv path).observe = sv.store.tree.view.delete r.path path) ∧
        (∀ path w, (h.get sv path w).map Prod.fst = sv.store.tree.view.get r.path path) ∧
        (∀ path w,
          (h.children sv path w).map Prod.fst = sv.store.tree.view.getChildren r.path path) ∧
        (∀ path, h.has sv path = sv.store.tree.view.has r.path path) ∧
        (∀ ops,
          (h.multi sv ops).result = (sv.store.tree.view.multi r.path h.session ops).1 ∧
          PathStore.CountersAdvanced (sv.store.tree.view.multi r.path h.session ops).2
            (h.multi sv ops).service.store.tree.view ∧
          ((h.multi sv ops).result.toBool ∨ (∃ p v, BatchOp.check p v ∈ ops) →
            (h.multi sv ops).observe = sv.store.tree.view.multi r.path h.session ops)) := by
  refine ⟨Tree.view_empty, fun hsv => ⟨?_, fun h r hr => ?_⟩⟩
  · exact Service.observe_expire hsv.wf hsv.rootUnowned
  · have hwf := hsv.wf
    exact ⟨h.observe_add hwf hr, h.observe_update hwf hr, h.observe_delete hwf hr,
      h.get_refines hwf hr, h.children_refines hwf hr, h.has_refines hwf hr, h.observe_multi hwf hr⟩

/-- On the first store, a creation below the root is the reference's creation. -/
theorem refines_pathStore_add_on_empty :
    Service.empty.Reachable ∧
      Service.empty.store.tree.nodes[(Handle.top 0).root]? =
        some (Node.fresh "" none .persistent none) ∧
      ((Handle.top 0).add Service.empty "/a" none .persistent).observe =
        Service.empty.store.tree.view.add "" "/a" none .persistent 0 :=
  ⟨.empty, by simp [Service.empty, Store.empty, Handle.top, Tree.getElem?_empty],
    ((refines_pathStore.2 .empty).2 (Handle.top 0) (Node.fresh "" none .persistent none)
      (by simp [Service.empty, Store.empty, Handle.top, Tree.getElem?_empty])).1 "/a" none
      .persistent⟩

end CoordStore
