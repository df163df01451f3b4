import CoordStore.Proofs.Store.Batch
import CoordStore.Store.Action

/-!
# Runs of the service

A run is a sequence of operations issued to one service through any handles: creations,
payload replacements, deletions, reads of payloads and of children (each may register a
watcher), batches, and the expiry of a session. A service is reachable when some run leads to
it from the empty one.

Every operation keeps the store well formed: a single operation and a kept batch end after
steps of an edit, a read registers on the node it found, and a batch taken back gives the
registry it started from and a tree that differs from the one it started from in counters
only (`Action.wf_step`). So every reachable store is well formed (`Service.Reachable.wf`).
-/

namespace CoordStore

/-- The services some run leads to from the empty one. -/
inductive Service.Reachable : Service → Prop where
  | empty : Service.Reachable Service.empty
  | step {sv : Service} (a : Action) : Service.Reachable sv → Service.Reachable (a.step sv).1

theorem Service.reachable_run (acts : List Action) :
    ∀ {sv : Service}, sv.Reachable → (Action.run acts sv).Reachable := by
  induction acts with
  | nil => exact id
  | cons a acts ih => exact fun h => ih (.step a h)

/-! ## Batch operations as writes -/

namespace Write

/-- The batch operation that runs a write. -/
def toOp : Write → BatchOp
  | .create p d m => .create p d m
  | .setData p d => .setData p d
  | .delete p => .delete p

theorem toWrite?_toOp (w : Write) : w.toOp.toWrite? = some w := by
  cases w <;> rfl

theorem toOp_injective : Function.Injective Write.toOp := fun w w' h => by
  have := congrArg BatchOp.toWrite? h
  simpa [toWrite?_toOp] using this

end Write

namespace BatchOp

/-- Whether the operation is a creation. -/
def isCreate : BatchOp → Bool
  | .create .. => true
  | _ => false

theorem eq_toOp_of_toWrite? {op : BatchOp} {w : Write} (h : op.toWrite? = some w) :
    op = w.toOp := by
  cases op <;> simp [toWrite?] at h <;> subst h <;> rfl

/-- A batch runs exactly when it is made of writes only. -/
theorem mapM_toWrite?_eq_some :
    ∀ {ops : List BatchOp} {ws : List Write}, ops.mapM toWrite? = some ws ↔ ops = ws.map Write.toOp
  | [], ws => by
    cases ws <;> simp [pure]
  | op :: ops, ws => by
    rw [List.mapM_cons]
    cases hop : op.toWrite? with
    | none =>
      simp only [Option.bind_eq_bind, Option.bind_none, reduceCtorEq, false_iff]
      intro h
      cases ws with
      | nil => cases h
      | cons w ws =>
        rw [List.map_cons, List.cons.injEq] at h
        rw [h.1, Write.toWrite?_toOp] at hop
        cases hop
    | some w =>
      obtain rfl := eq_toOp_of_toWrite? hop
      simp only [Option.pure_def, Option.bind_eq_bind, Option.bind_some]
      constructor
      · intro h
        obtain ⟨l, hl, hws⟩ := Option.bind_eq_some_iff.1 h
        cases hws
        simp [mapM_toWrite?_eq_some.1 hl]
      · intro h
        cases ws with
        | nil => cases h
        | cons w' ws =>
          rw [List.map_cons, List.cons.injEq] at h
          obtain ⟨h1, h2⟩ := h
          rw [Write.toOp_injective h1, mapM_toWrite?_eq_some.2 h2]
          rfl

/-- A batch holding a check does not run. -/
theorem mapM_toWrite?_eq_none {ops : List BatchOp} (h : ∃ p v, check p v ∈ ops) :
    ops.mapM toWrite? = none := by
  cases hm : ops.mapM toWrite? with
  | none => rfl
  | some ws =>
    obtain ⟨p, v, hc⟩ := h
    rw [mapM_toWrite?_eq_some.1 hm] at hc
    obtain ⟨w, -, hw⟩ := List.mem_map.1 hc
    cases w <;> cases hw

theorem isCreate_toOp (w : Write) : w.toOp.isCreate = w.isCreate := by
  cases w <;> rfl

end BatchOp

/-! ## Every operation keeps the store well formed -/

namespace Txn.Tracks

variable {S : Store} {x : Txn}

/-- Taking back an edit that started on a well-formed store gives a well-formed store. -/
theorem rollback_wf (h : x.Tracks S) (hS : S.WF) (hx : x.store.WF) : x.rollback.WF := by
  have hwatches := h.rollback_watches hS hx.sound
  refine Store.WF.of_present
    (hS.tree.of_sameSkeleton h.rollback_tree.sameSkeleton h.rollback_tree.nextId)
    (hwatches ▸ hS.sound) ?_
  intro n k hw
  rw [hwatches] at hw
  obtain ⟨m, hm⟩ := hS.present hw
  have hslot := h.rollback_tree.nodes n
  rw [hm] at hslot
  cases hr : x.rollback.tree.nodes[n]? with
  | none => rw [hr] at hslot; cases hslot
  | some m' => exact ⟨m', rfl⟩

end Txn.Tracks

namespace Service

variable {α : Type} {sv : Service}

/-- An edit run from a well-formed store is tracked and ends in a well-formed store. -/
theorem tracks_of_stepwise {e : Edit α} (he : e.Stepwise) (hwf : sv.store.WF) {x : Txn}
    (hx : (∃ a, e (Txn.start sv.store) = .ok a x) ∨ ∃ err, e (Txn.start sv.store) = .error err x) :
    x.Tracks sv.store ∧ x.store.WF := by
  have hsteps : Txn.Steps (Txn.start sv.store) x := by
    rcases hx with ⟨a, hx⟩ | ⟨err, hx⟩
    · exact (he _).1 a x hx
    · exact (he _).2 err x hx
  exact ⟨(Txn.Tracks.start sv.store).steps hwf hsteps, Store.WF.steps hwf hsteps⟩

theorem wf_single {e : Edit α} (he : e.Stepwise) (hwf : sv.store.WF) :
    (sv.single e).service.store.WF := by
  unfold single
  cases hr : e (Txn.start sv.store) with
  | ok a x => exact (tracks_of_stepwise he hwf (.inl ⟨a, hr⟩)).2
  | error err x => exact (tracks_of_stepwise he hwf (.inr ⟨err, hr⟩)).2

/-- A batch kept whole or taken back whole keeps the store well formed. -/
theorem wf_batch {e : Edit α} (he : e.Stepwise) (hwf : sv.store.WF) {x : Txn}
    (hx : (∃ a, e (Txn.start sv.store) = .ok a x) ∨ ∃ err, e (Txn.start sv.store) = .error err x) :
    x.store.WF ∧ x.rollback.WF := by
  obtain ⟨ht, hxwf⟩ := tracks_of_stepwise he hwf hx
  exact ⟨hxwf, ht.rollback_wf hwf hxwf⟩

theorem wf_expire (hwf : sv.store.WF) (session : Int) : (sv.expire session).service.store.WF := by
  unfold Service.expire
  cases hr : Edit.expire session (Txn.start sv.store) with
  | ok n x => exact (wf_batch (Edit.stepwise_expire session) hwf (.inl ⟨n, hr⟩)).1
  | error err x => exact (wf_batch (Edit.stepwise_expire session) hwf (.inr ⟨err, hr⟩)).2

theorem wf_multi (hwf : sv.store.WF) (h : Handle) (ops : List BatchOp) :
    (h.multi sv ops).service.store.WF := by
  unfold Handle.multi
  cases hm : ops.mapM BatchOp.toWrite? with
  | none => exact hwf
  | some ws =>
    simp only
    cases hr : (ws.mapM (Edit.apply h.root h.session)) (Txn.start sv.store) with
    | ok rs x => exact (wf_batch (Edit.stepwise_batch ws) hwf (.inl ⟨rs, hr⟩)).1
    | error err x => exact (wf_batch (Edit.stepwise_batch ws) hwf (.inr ⟨err, hr⟩)).2

end Service

namespace Handle

variable {sv : Service}

theorem get_eq_ok (h : Handle) {path : String} {w : Option Nat}
    {r : Option (List UInt8) × Service} :
    h.get sv path w = .ok r ↔
      ∃ id m, sv.store.resolve h.root path = .ok id ∧ sv.store.tree.nodes[id]? = some m ∧
        r = (m.data, { sv with store := sv.store.arm id .data w }) := by
  unfold Handle.get
  cases hg : sv.store.getData h.root path w with
  | error e =>
    simp only [Except.map, reduceCtorEq, false_iff, not_exists, not_and]
    intro id m hr hm _
    have hok : sv.store.getData h.root path w = .ok (m.data, sv.store.arm id .data w) :=
      Store.getData_eq_ok.2 ⟨id, m, hr, hm, rfl⟩
    rw [hg] at hok
    cases hok
  | ok r' =>
    obtain ⟨id, m, hr, hm, rfl⟩ := Store.getData_eq_ok.1 hg
    simp only [Except.map, Except.ok.injEq]
    constructor
    · rintro rfl
      exact ⟨id, m, hr, hm, rfl⟩
    · rintro ⟨id', m', hr', hm', rfl⟩
      rw [hr] at hr'
      cases hr'
      rw [hm] at hm'
      cases hm'
      rfl

theorem children_eq_ok (h : Handle) {path : String} {w : Option Nat}
    {r : List String × Service} :
    h.children sv path w = .ok r ↔
      ∃ id m, sv.store.resolve h.root path = .ok id ∧ sv.store.tree.nodes[id]? = some m ∧
        r = (m.childNames, { sv with store := sv.store.arm id .children w }) := by
  unfold Handle.children
  cases hg : sv.store.getChildren h.root path w with
  | error e =>
    simp only [Except.map, reduceCtorEq, false_iff, not_exists, not_and]
    intro id m hr hm _
    have hok : sv.store.getChildren h.root path w = .ok (m.childNames, sv.store.arm id .children w) :=
      Store.getChildren_eq_ok.2 ⟨id, m, hr, hm, rfl⟩
    rw [hg] at hok
    cases hok
  | ok r' =>
    obtain ⟨id, m, hr, hm, rfl⟩ := Store.getChildren_eq_ok.1 hg
    simp only [Except.map, Except.ok.injEq]
    constructor
    · rintro rfl
      exact ⟨id, m, hr, hm, rfl⟩
    · rintro ⟨id', m', hr', hm', rfl⟩
      rw [hr] at hr'
      cases hr'
      rw [hm] at hm'
      cases hm'
      rfl

end Handle

namespace Action

/-- Every operation keeps the store well formed. -/
theorem wf_step (a : Action) {sv : Service} (hwf : sv.store.WF) : (a.step sv).1.store.WF := by
  cases a with
  | add h p d m => exact Service.wf_single Edit.stepwise_create hwf
  | update h p d => exact Service.wf_single Edit.stepwise_setData hwf
  | delete h p => exact Service.wf_single Edit.stepwise_delete hwf
  | get h p w =>
    simp only [step]
    cases hg : h.get sv p w with
    | error e => exact hwf
    | ok r =>
      obtain ⟨id, m, -, hm, rfl⟩ := (Handle.get_eq_ok h).1 hg
      exact hwf.arm hm .data w
  | children h p w =>
    simp only [step]
    cases hg : h.children sv p w with
    | error e => exact hwf
    | ok r =>
      obtain ⟨id, m, -, hm, rfl⟩ := (Handle.children_eq_ok h).1 hg
      exact hwf.arm hm .children w
  | multi h ops => exact Service.wf_multi hwf h ops
  | expire s => exact Service.wf_expire hwf s

end Action

theorem Service.wf_empty : Service.empty.store.WF :=
  Store.WF.empty

theorem Service.Reachable.wf {sv : Service} (h : sv.Reachable) : sv.store.WF := by
  induction h with
  | empty => exact Service.wf_empty
  | step a _ ih => exact a.wf_step ih

/-- Every store that a run of operations reaches from the empty one is well formed, whatever
handles the operations went through and whichever of them failed. -/
theorem run_store_wf (acts : List Action) : (Action.run acts Service.empty).store.WF :=
  (Service.reachable_run acts .empty).wf

end CoordStore
