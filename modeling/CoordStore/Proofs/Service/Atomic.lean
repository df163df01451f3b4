import CoordStore.Proofs.Service.Run

/-!
# Batches are atomic

A batch holding a version check is refused before anything runs. Any other batch runs its
writes in order as one edit: if one fails, the batch fails with the error of its first failing
write, the same error that write gives when it runs alone after the writes before it were
kept, and the whole batch is taken back — every node as it was but for counters, the registry
exactly as it was, no watcher notified. If none fails, the batch leaves the store every write
would have left, run one after the other.
-/

namespace CoordStore

namespace BatchOp

/-- A batch that does not run holds a check. -/
theorem exists_check_of_mapM_toWrite?_eq_none :
    ∀ {ops : List BatchOp}, ops.mapM toWrite? = none → ∃ p v, check p v ∈ ops
  | [], h => by simp [pure] at h
  | op :: ops, h => by
    cases hm : ops.mapM toWrite? with
    | none =>
      obtain ⟨p, v, hc⟩ := exists_check_of_mapM_toWrite?_eq_none hm
      exact ⟨p, v, List.mem_cons_of_mem _ hc⟩
    | some ws =>
      rw [List.mapM_cons, hm] at h
      cases op with
      | check p v => exact ⟨p, v, List.mem_cons_self⟩
      | create => simp [toWrite?] at h
      | setData => simp [toWrite?] at h
      | delete => simp [toWrite?] at h

theorem length_filter_isCreate_map (ws : List Write) :
    ((ws.map Write.toOp).filter isCreate).length = (ws.filter Write.isCreate).length := by
  rw [List.filter_map, List.length_map]
  congr 2
  funext w
  exact isCreate_toOp w

end BatchOp

@[simp] theorem Tree.nextId_foldl_revert (journal : List Change) (t : Tree) :
    (journal.foldl Tree.revert t).nextId = t.nextId := by
  induction journal generalizing t with
  | nil => rfl
  | cons c journal ih => simp [ih]

namespace Edit

variable {α β : Type}

theorem length_of_mapM_eq_ok {f : α → Edit β} :
    ∀ {as : List α} {x y : Txn} {bs : List β}, (as.mapM f) x = .ok bs y → bs.length = as.length
  | [], x, y, bs, h => by
    obtain ⟨rfl, -⟩ := pure_eq_ok.1 h
    rfl
  | a :: as, x, y, bs, h => by
    rw [List.mapM_cons] at h
    obtain ⟨b, z, -, hcont⟩ := bind_eq_ok.1 h
    obtain ⟨bs', z', hrest, hpure⟩ := bind_eq_ok.1 hcont
    obtain ⟨rfl, -⟩ := pure_eq_ok.1 hpure
    simp [length_of_mapM_eq_ok hrest]

end Edit

namespace Handle

variable (h : Handle) {sv : Service}

/-- A batch of writes runs its writes from the store as it is. -/
theorem multi_map_toOp (ws : List Write) :
    h.multi sv (ws.map Write.toOp) =
      match (ws.mapM (Edit.apply h.root h.session)) (Txn.start sv.store) with
      | .ok rs x =>
        { result := .ok rs,
          service := { sv with store := x.store,
                               metrics := sv.metrics.countBatch .committed }.delivered x.pending,
          notify := x.pending }
      | .error e x =>
        { result := .error e,
          service := { store := x.rollback, metrics := sv.metrics.countBatch .rolledBack },
          notify := [] } := by
  unfold multi
  rewrite [BatchOp.mapM_toWrite?_eq_some.2 rfl]
  rfl

/-- A single write, as a batch of its own, fails as it fails inside a batch. -/
theorem multi_single_eq_error {w : Write} {x y : Txn} {e : DirError}
    (hx : x.store = sv.store) (he : Edit.apply h.root h.session w x = .error e y) :
    (h.multi sv [w.toOp]).result = .error e := by
  obtain ⟨y', he', -⟩ := Edit.apply_start_of_eq_error he
  have hrun : ([w].mapM (Edit.apply h.root h.session)) (Txn.start sv.store) = .error e y' := by
    rw [List.mapM_cons]
    exact Edit.bind_eq_error.2 (Or.inl (hx ▸ he'))
  rw [show [w.toOp] = [w].map Write.toOp from rfl, multi_map_toOp, hrun]

/-- A single write, as a batch of its own, goes through as it goes through inside a batch,
leaving the same store. -/
theorem multi_single_eq_ok {w : Write} {x y : Txn} {r : OpResult}
    (hx : x.store = sv.store) (he : Edit.apply h.root h.session w x = .ok r y) :
    (h.multi sv [w.toOp]).result = .ok [r] ∧ (h.multi sv [w.toOp]).service.store = y.store := by
  obtain ⟨y', he', hy⟩ := (Edit.local_apply w x.store x.batch (Txn.start x.store).batch).1 r y he
  have hrun : ([w].mapM (Edit.apply h.root h.session)) (Txn.start sv.store) = .ok [r] y' := by
    rw [List.mapM_cons, ← hx]
    exact Edit.bind_eq_ok.2 ⟨r, y', he',
      Edit.bind_eq_ok.2 ⟨[], y', by simp [pure, EStateM.pure], by simp [pure, EStateM.pure]⟩⟩
  rw [show [w.toOp] = [w].map Write.toOp from rfl, multi_map_toOp, hrun]
  exact ⟨rfl, hy⟩

/-- A batch that goes through leaves the store its writes leave run one after the other, each
as a batch of its own. -/
theorem store_of_mapM_eq_ok :
    ∀ {ws : List Write} {sv : Service} {x y : Txn} {rs : List OpResult}, x.store = sv.store →
      (ws.mapM (Edit.apply h.root h.session)) x = .ok rs y →
      y.store = ((ws.map Write.toOp).foldl (fun sv' op => (h.multi sv' [op]).service) sv).store
  | [], sv, x, y, rs, hx, hrun => by
    obtain ⟨-, rfl⟩ := Edit.pure_eq_ok.1 hrun
    exact hx
  | w :: ws, sv, x, y, rs, hx, hrun => by
    rw [List.mapM_cons] at hrun
    obtain ⟨r, z, hfirst, hcont⟩ := Edit.bind_eq_ok.1 hrun
    obtain ⟨rs', z', hrest, hpure⟩ := Edit.bind_eq_ok.1 hcont
    obtain ⟨-, rfl⟩ := Edit.pure_eq_ok.1 hpure
    rw [List.map_cons, List.foldl_cons]
    exact store_of_mapM_eq_ok (multi_single_eq_ok h hx hfirst).2.symm hrest

end Handle

/-- Batch atomicity. A batch holding a check is refused and changes nothing. A batch that
fails, fails at some write `k` with the error that write gives after the writes before it
were kept; it is taken back whole: no watcher is notified, the registry is as it was, every
node is as it was but for counters moved on, and the next number has moved on by the creations
before `k`. A batch that goes through runs every write, leaving the store they leave run one
after the other. -/
theorem multi_atomic {sv : Service} (hsv : sv.Reachable) (h : Handle) (ops : List BatchOp) :
    ((∃ p v, BatchOp.check p v ∈ ops) →
      (h.multi sv ops).result = .error .checkInBatch ∧
        (h.multi sv ops).service.store = sv.store ∧ (h.multi sv ops).notify = []) ∧
    (∀ e, (h.multi sv ops).result = .error e → (∀ p v, BatchOp.check p v ∉ ops) →
      ∃ k, ∃ hk : k < ops.length,
        (∃ rs, (h.multi sv (ops.take k)).result = .ok rs) ∧
        (h.multi (h.multi sv (ops.take k)).service [ops.get ⟨k, hk⟩]).result = .error e ∧
        (h.multi sv ops).notify = [] ∧
        (h.multi sv ops).service.store.watches = sv.store.watches ∧
        Tree.Advanced sv.store.tree (h.multi sv ops).service.store.tree ∧
        (h.multi sv ops).service.store.tree.nextId =
          sv.store.tree.nextId + ((ops.take k).filter BatchOp.isCreate).length) ∧
    (∀ rs, (h.multi sv ops).result = .ok rs →
      rs.length = ops.length ∧
        (h.multi sv ops).service.store =
          (ops.foldl (fun sv' op => (h.multi sv' [op]).service) sv).store) := by
  have hwf := hsv.wf
  refine ⟨fun hcheck => ?_, fun e hres hnocheck => ?_, fun rs hres => ?_⟩
  · -- refused before any write runs
    unfold Handle.multi
    rw [BatchOp.mapM_toWrite?_eq_none hcheck]
    exact ⟨rfl, rfl, rfl⟩
  · -- a batch of writes only: it failed at its first failing write
    obtain ⟨ws, hws⟩ : ∃ ws, ops.mapM BatchOp.toWrite? = some ws := by
      cases hm : ops.mapM BatchOp.toWrite? with
      | none =>
        obtain ⟨p, v, hc⟩ := BatchOp.exists_check_of_mapM_toWrite?_eq_none hm
        exact absurd hc (hnocheck p v)
      | some ws => exact ⟨ws, rfl⟩
    obtain rfl := BatchOp.mapM_toWrite?_eq_some.1 hws
    rw [Handle.multi_map_toOp] at hres ⊢
    cases hrun : (ws.mapM (Edit.apply h.root h.session)) (Txn.start sv.store) with
    | ok rs x => rw [hrun] at hres; cases hres
    | error e' y =>
      rw [hrun] at hres
      cases hres
      obtain ⟨k, hk, rs, z, hpre, hfail⟩ := Edit.mapM_eq_error hrun
      obtain ⟨htracks, hywf⟩ := Service.tracks_of_stepwise (Edit.stepwise_batch ws) hwf
        (.inr ⟨_, hrun⟩)
      have hzstore : (h.multi sv ((ws.map Write.toOp).take k)).result = .ok rs ∧
          (h.multi sv ((ws.map Write.toOp).take k)).service.store = z.store := by
        rw [← List.map_take, Handle.multi_map_toOp, hpre]
        exact ⟨rfl, rfl⟩
      have hjournal : y.batch.journal = z.batch.journal :=
        Edit.journal_of_apply_eq_error hfail
      have hcreated := Edit.created_of_mapM_eq_ok hpre
      refine ⟨k, by simpa using hk, ⟨rs, hzstore.1⟩, ?_, rfl,
        htracks.rollback_watches hwf hywf.sound, htracks.rollback_tree, ?_⟩
      · simp only [List.get_eq_getElem, List.getElem_map]
        exact Handle.multi_single_eq_error h hzstore.2.symm hfail
      · simp only [Txn.rollback, Tree.nextId_foldl_revert]
        rw [htracks.nextId, hjournal, hcreated, ← List.map_take,
          BatchOp.length_filter_isCreate_map]
        simp [Txn.start]
  · -- a batch that went through
    cases hm : ops.mapM BatchOp.toWrite? with
    | none =>
      unfold Handle.multi at hres
      rw [hm] at hres
      cases hres
    | some ws =>
      obtain rfl := BatchOp.mapM_toWrite?_eq_some.1 hm
      rw [Handle.multi_map_toOp] at hres ⊢
      cases hrun : (ws.mapM (Edit.apply h.root h.session)) (Txn.start sv.store) with
      | error e y => rw [hrun] at hres; cases hres
      | ok rs' x =>
        rw [hrun] at hres
        cases hres
        exact ⟨by simpa using Edit.length_of_mapM_eq_ok hrun,
          Handle.store_of_mapM_eq_ok h rfl hrun⟩

/-- On the empty service, a batch holding a check is refused. -/
theorem multi_atomic_check_on_empty :
    Service.empty.Reachable ∧
      ((Handle.top 0).multi Service.empty [.create "/a" none .persistent, .check "/a" 0]).result =
        .error .checkInBatch :=
  ⟨.empty, ((multi_atomic .empty (Handle.top 0) _).1 ⟨"/a", 0, by simp⟩).1⟩

/-- On the empty service, a batch whose third write names a missing node is taken back: it
fails as that write fails after the two creations before it, nobody is notified, the
registry is as it was, and the tree differs only by the node numbers the creations used. -/
theorem multi_atomic_rolls_back_on_empty :
    let ops : List BatchOp :=
      [.create "/a" none .persistent, .create "/a/b" none .persistent, .setData "/c" none]
    let r := (Handle.top 0).multi Service.empty ops
    Service.empty.Reachable ∧ r.result = .error (.notFound "/c") ∧
    ∃ k, ∃ hk : k < ops.length,
      (∃ rs, ((Handle.top 0).multi Service.empty (ops.take k)).result = .ok rs) ∧
      ((Handle.top 0).multi ((Handle.top 0).multi Service.empty (ops.take k)).service
        [ops.get ⟨k, hk⟩]).result = .error (.notFound "/c") ∧
      r.notify = [] ∧ r.service.store.watches = Service.empty.store.watches ∧
      Tree.Advanced Service.empty.store.tree r.service.store.tree ∧
      r.service.store.tree.nextId =
        Service.empty.store.tree.nextId + ((ops.take k).filter BatchOp.isCreate).length := by
  intro ops r
  have hres : r.result = .error (.notFound "/c") := by decide +kernel
  have hnocheck : ∀ p v, BatchOp.check p v ∉ ops := by
    intro p v hc
    simp [ops] at hc
  exact ⟨.empty, hres, (multi_atomic .empty (Handle.top 0) ops).2.1 _ hres hnocheck⟩

end CoordStore
