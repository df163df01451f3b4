import CoordStore.Proofs.Service.Counter

/-!
# Failed single operations

A single operation through a handle that fails gives back the service as it was and notifies
nobody, with one exception: a sequential creation whose suffixed name is taken has moved its
parent's counter on by one, and changed nothing else (`Handle.add_of_error`). Every other failure
comes before the tree is touched: on the path, on the walk to the node, or in a check of the
tree's, and an edit records a change only once it has made it. Reads fail exactly when their
path leads to no node, and then arm no watcher (`failed_operations_atomic`).
-/

namespace CoordStore

/-- A walk from a node fails only for want of a node. -/
theorem Tree.isNotFound_of_resolve {t : Tree} {start : Nat} {names : List String}
    {err : DirError} (h : t.resolve start names = .error err) : err.isNotFound = true := by
  unfold resolve node at h
  cases hs : t.nodes[start]? with
  | none =>
    simp only [hs, bind, Except.bind, Except.error.injEq] at h
    subst h
    rfl
  | some n =>
    simp only [hs, bind, Except.bind] at h
    exact isNotFound_of_descend h

namespace Service

variable {α : Type} {sv : Service} {e : Edit α}

/-- An edit that fails with nothing recorded leaves the store it failed with, and nobody to
notify. -/
theorem single_of_eq_error_start (s : Store) {err : DirError}
    (h : e (Txn.start sv.store) = .error err (Txn.start s)) :
    sv.single e = { result := .error err, service := { sv with store := s }, notify := [] } := by
  unfold single
  rw [h]
  simp [delivered, Txn.start, Txn.pending]

/-- An edit that changes nothing when it fails, run as a single operation that fails, gives
back the service as it was. -/
theorem single_of_error_of_unchanged (he : ∀ x err y, e x = .error err y → y = x)
    {err : DirError} (hr : (sv.single e).result = .error err) :
    sv.single e = { result := .error err, service := sv, notify := [] } := by
  cases hs : e (Txn.start sv.store) with
  | ok a y =>
    rw [(single_of_eq_ok hs).1] at hr
    cases hr
  | error e' y =>
    obtain rfl := he _ _ _ hs
    rw [single_of_eq_error_start sv.store hs] at hr ⊢
    cases hr
    rfl

end Service

namespace Handle

variable {sv : Service} (h : Handle) {path : String} {data : Option (List UInt8)}
  {mode : CreateMode} {err : DirError}

/-- A replacement of a payload that fails gives back the service as it was. -/
theorem update_of_error (hr : (h.update sv path data).result = .error err) :
    h.update sv path data = { result := .error err, service := sv, notify := [] } :=
  Service.single_of_error_of_unchanged (fun _ _ _ hs => (Edit.setData_eq_error hs).2) hr

/-- A deletion that fails gives back the service as it was. -/
theorem delete_of_error (hr : (h.delete sv path).result = .error err) :
    h.delete sv path = { result := .error err, service := sv, notify := [] } :=
  Service.single_of_error_of_unchanged (fun _ _ _ hs => (Edit.delete_eq_error hs).2) hr

/-- A creation that fails gives back the service as it was, and then has not failed on a taken
name if it was sequential; or it was sequential, its parent is present and persistent, its name
suffixed with the parent's counter is taken, and it has moved that counter on by one and
changed nothing else. -/
theorem add_of_error (hr : (h.add sv path data mode).result = .error err) :
    (h.add sv path data mode = { result := .error err, service := sv, notify := [] } ∧
        (mode.isSequential = true → ∀ p, err ≠ .alreadyExists p)) ∨
      (mode.isSequential = true ∧ ∃ parents name q pn,
        Path.splitParent path = .ok (parents, name) ∧
        sv.store.tree.resolve h.root parents = .ok q ∧ sv.store.tree.nodes[q]? = some pn ∧
        pn.mode.isEphemeral = false ∧
        err = .alreadyExists (Path.join pn.path (name ++ sequenceSuffix pn.sequence)) ∧
        h.add sv path data mode =
          { result := .error err,
            service := { sv with store := { sv.store with
              tree := sv.store.tree.setNode q { pn with sequence := pn.sequence + 1 } } },
            notify := [] }) := by
  cases hc : Edit.create h.root path data mode h.session (Txn.start sv.store) with
  | ok a y =>
    rw [add, (Service.single_of_eq_ok hc).1] at hr
    cases hr
  | error e y =>
    rw [add, (Service.single_of_eq_error hc).1] at hr
    cases hr
    rcases Edit.create_eq_error hc with ⟨⟨e₀, -, rfl⟩, rfl⟩ |
      ⟨parents, name, hs, ⟨hq, rfl⟩ | ⟨q, t, hq, ha, rfl⟩⟩
    · -- the path is not one
      exact .inl ⟨by rw [add, Service.single_of_eq_error_start sv.store hc],
        fun _ _ he => by cases he⟩
    · -- the walk to the parent fails for want of a node
      refine .inl ⟨by rw [add, Service.single_of_eq_error_start sv.store hc], fun _ p hp => ?_⟩
      have hnf := Tree.isNotFound_of_resolve hq
      rw [hp] at hnf
      cases hnf
    · rcases Tree.addChild_error_cases ha with ⟨rfl, hnot⟩ | ⟨hseq, pn, hpn, heph, rfl, rfl⟩
      · exact .inl ⟨by rw [add, Service.single_of_eq_error_start sv.store hc], hnot⟩
      · exact .inr ⟨hseq, parents, name, q, pn, hs, hq, hpn, heph, rfl,
          by rw [add, Service.single_of_eq_error_start _ hc]; rfl⟩

/-- A read of a payload fails exactly when its path leads to no node, with the walk's error. -/
theorem get_eq_error_iff (w : Option Nat) :
    h.get sv path w = .error err ↔ sv.store.resolve h.root path = .error err := by
  cases hres : sv.store.resolve h.root path with
  | ok id =>
    obtain ⟨m, hm⟩ := Store.get_of_resolve_eq_ok hres
    rw [(get_eq_ok h).2 ⟨id, m, hres, hm, rfl⟩]
    simp
  | error e =>
    simp [Handle.get, Store.getData, hres, bind, Except.bind, Except.map]

/-- A read of children's names fails exactly when its path leads to no node, with the walk's
error. -/
theorem children_eq_error_iff (w : Option Nat) :
    h.children sv path w = .error err ↔ sv.store.resolve h.root path = .error err := by
  cases hres : sv.store.resolve h.root path with
  | ok id =>
    obtain ⟨m, hm⟩ := Store.get_of_resolve_eq_ok hres
    rw [(children_eq_ok h).2 ⟨id, m, hres, hm, rfl⟩]
    simp
  | error e =>
    simp [Handle.children, Store.getChildren, hres, bind, Except.bind, Except.map]

end Handle

/-- Single operations fail atomically. A creation, replacement or deletion through any handle
that fails gives back the service as it was, tree and registry included, and notifies nobody;
the one exception is a sequential creation that failed on a taken name, which has moved its
persistent parent's counter on by one and changed nothing else. A read, with a watcher or
without, fails exactly when its path leads to no node, and then leaves the service as it was,
arming no watcher. -/
theorem failed_operations_atomic {sv : Service} (h : Handle) :
    (∀ path data mode err, (h.add sv path data mode).result = .error err →
      (h.add sv path data mode = { result := .error err, service := sv, notify := [] } ∧
          (mode.isSequential = true → ∀ p, err ≠ .alreadyExists p)) ∨
        (mode.isSequential = true ∧ ∃ parents name q pn,
          Path.splitParent path = .ok (parents, name) ∧
          sv.store.tree.resolve h.root parents = .ok q ∧ sv.store.tree.nodes[q]? = some pn ∧
          pn.mode.isEphemeral = false ∧
          err = .alreadyExists (Path.join pn.path (name ++ sequenceSuffix pn.sequence)) ∧
          h.add sv path data mode =
            { result := .error err,
              service := { sv with store := { sv.store with
                tree := sv.store.tree.setNode q { pn with sequence := pn.sequence + 1 } } },
              notify := [] })) ∧
    (∀ path data err, (h.update sv path data).result = .error err →
      h.update sv path data = { result := .error err, service := sv, notify := [] }) ∧
    (∀ path err, (h.delete sv path).result = .error err →
      h.delete sv path = { result := .error err, service := sv, notify := [] }) ∧
    ∀ path w err,
      (h.get sv path w = .error err ↔ sv.store.resolve h.root path = .error err) ∧
      (h.children sv path w = .error err ↔ sv.store.resolve h.root path = .error err) ∧
      (sv.store.resolve h.root path = .error err →
        (Action.get h path w).step sv = (sv, []) ∧
          (Action.children h path w).step sv = (sv, [])) := by
  refine ⟨fun path data mode err hr => h.add_of_error hr,
    fun path data err hr => h.update_of_error hr,
    fun path err hr => h.delete_of_error hr, fun path w err => ⟨h.get_eq_error_iff w,
      h.children_eq_error_iff w, fun hres => ?_⟩⟩
  -- a read that fails gives no service back: the service stays as it was
  simp [Action.step, (h.get_eq_error_iff w).2 hres, (h.children_eq_error_iff w).2 hres]

/-- On the empty service, a creation below a parent that is not there fails and changes
nothing. -/
theorem failed_operations_atomic_missing_parent :
    ((Handle.top 0).add Service.empty "/a/b" none .persistent).result = .error (.notFound "/a") ∧
      (Handle.top 0).add Service.empty "/a/b" none .persistent =
        { result := .error (.notFound "/a"), service := Service.empty, notify := [] } := by
  have hr : ((Handle.top 0).add Service.empty "/a/b" none .persistent).result =
      .error (.notFound "/a") := by
    decide
  refine ⟨hr, ?_⟩
  rcases (failed_operations_atomic (Handle.top 0)).1 "/a/b" none .persistent _ hr with
    ⟨heq, -⟩ | ⟨hseq, -⟩
  · exact heq
  · cases hseq

end CoordStore
