import Mathlib
import CoordStore.Proofs.Service.Watched
import CoordStore.Proofs.Monitor.IdSet
import CoordStore.Proofs.Monitor.EntityRefresh
import CoordStore.Script.World

/-!
# What the counters count

A running directory counts the watchers it calls and the calls that fail, its batches by
outcome, and the ephemeral nodes that expire with their session. Each operation counts its own
outcome once (`Action.grown_step`): the watchers it hands over as called; a batch under one
outcome, refused when it holds a check, kept when it returned results and taken back when it
returned another error, the empty batch included; an expiry by the count it returns.

The watchers an operation hands over are then called, and a callback may run operations of its
own, whose watchers are called inside it: the work of a run is a list of pieces done depth first
(`World.drain`). A call counts a failure when the watcher fails in the caller's thread, while a
watcher that hands its work to a reactor leaves its failures to the reactor (`World.call_eq`).
So after any number of pieces, every counter has grown by what the pieces done report
(`World.grown_drain`), and since each call was counted by the operation that handed it over,
the count of calls has grown by the calls done and those still waiting (`World.calls_drain`).
-/

namespace CoordStore

/-! ## Counters grown -/

namespace Metrics

/-- The count of batches that ended with an outcome. -/
def batches (m : Metrics) : BatchOutcome → Nat
  | .committed => m.committed
  | .rolledBack => m.rolledBack
  | .rejected => m.rejected

/-- `m'` is `m` with `n` more watchers called, `f` more calls failed, `b o` more batches ended
with outcome `o` and `k` more ephemeral nodes expired. -/
structure Grown (m m' : Metrics) (n f : Nat) (b : BatchOutcome → Nat) (k : Nat) : Prop where
  notified : m'.watchersNotified = m.watchersNotified + n
  failures : m'.watcherFailures = m.watcherFailures + f
  batches : ∀ o, m'.batches o = m.batches o + b o
  expired : m'.ephemeralsExpired = m.ephemeralsExpired + k

namespace Grown

variable {m₁ m₂ m₃ : Metrics} {n n' f f' k k' : Nat} {b b' : BatchOutcome → Nat}

theorem refl (m : Metrics) : Grown m m 0 0 (fun _ => 0) 0 :=
  ⟨rfl, rfl, fun _ => rfl, rfl⟩

theorem trans (h₁ : Grown m₁ m₂ n f b k) (h₂ : Grown m₂ m₃ n' f' b' k') :
    Grown m₁ m₃ (n + n') (f + f') (fun o => b o + b' o) (k + k') where
  notified := by rw [h₂.notified, h₁.notified, Nat.add_assoc]
  failures := by rw [h₂.failures, h₁.failures, Nat.add_assoc]
  batches o := by rw [h₂.batches, h₁.batches, Nat.add_assoc]
  expired := by rw [h₂.expired, h₁.expired, Nat.add_assoc]

end Grown

/-- Counting a batch adds one to the count of its outcome. -/
theorem grown_countBatch (m : Metrics) (o : BatchOutcome) :
    Grown m (m.countBatch o) 0 0 (fun o' => if o = o' then 1 else 0) 0 := by
  cases o <;> exact ⟨rfl, rfl, fun o' => by cases o' <;> simp [countBatch, batches], rfl⟩

end Metrics

/-! ## One operation -/

namespace BatchOp

/-- Whether the operation is a check, which a batch does not run. -/
def isCheck : BatchOp → Bool
  | .check .. => true
  | _ => false

theorem any_isCheck_iff {ops : List BatchOp} : ops.any isCheck = true ↔ ∃ p v, check p v ∈ ops := by
  rw [List.any_eq_true]
  constructor
  · rintro ⟨op, hop, hc⟩
    cases op with
    | check p v => exact ⟨p, v, hop⟩
    | _ => cases hc
  · rintro ⟨p, v, hc⟩
    exact ⟨_, hc, rfl⟩

/-- A batch runs exactly when it holds no check. -/
theorem mapM_toWrite?_eq_none_iff {ops : List BatchOp} :
    ops.mapM toWrite? = none ↔ ops.any isCheck = true :=
  ⟨fun h => any_isCheck_iff.2 (exists_check_of_mapM_toWrite?_eq_none h),
    fun h => mapM_toWrite?_eq_none (any_isCheck_iff.1 h)⟩

end BatchOp

namespace Action

/-- The outcome a batch is counted under: kept when it returned results; refused when it
returned an error and holds a check; taken back when it returned any other error. Other
operations are no batch. -/
def batchOutcome : Action → Service → Option BatchOutcome
  | multi h ops, sv =>
    match (h.multi sv ops).result with
    | .ok _ => some .committed
    | .error _ => if ops.any BatchOp.isCheck then some .rejected else some .rolledBack
  | _, _ => none

/-- How many ephemeral nodes an operation reports removed: the count an expiry returns. -/
def expired : Action → Service → Nat
  | expire s, sv => ((sv.expire s).result.toOption).getD 0
  | _, _ => 0

/-- A batch is refused exactly when it holds a check. -/
theorem batchOutcome_eq_rejected_iff (h : Handle) (ops : List BatchOp) (sv : Service) :
    (multi h ops).batchOutcome sv = some .rejected ↔ ∃ p v, BatchOp.check p v ∈ ops := by
  rw [← BatchOp.any_isCheck_iff]
  simp only [batchOutcome]
  cases hc : ops.any BatchOp.isCheck
  · split <;> simp
  · -- a batch holding a check does not run
    have hnone := BatchOp.mapM_toWrite?_eq_none_iff.2 hc
    simp [Handle.multi, hnone]

/-- A read hands no watcher over and keeps the counters. -/
theorem step_of_read {a : Action} (hr : a.isWrite = false) (sv : Service) :
    (a.step sv).2 = [] ∧ (a.step sv).1.metrics = sv.metrics := by
  cases a with
  | get h p w =>
    simp only [step]
    cases hg : h.get sv p w with
    | error e => exact ⟨rfl, rfl⟩
    | ok r =>
      obtain ⟨id, m, -, -, rfl⟩ := (Handle.get_eq_ok h).1 hg
      exact ⟨rfl, rfl⟩
  | children h p w =>
    simp only [step]
    cases hg : h.children sv p w with
    | error e => exact ⟨rfl, rfl⟩
    | ok r =>
      obtain ⟨id, m, -, -, rfl⟩ := (Handle.children_eq_ok h).1 hg
      exact ⟨rfl, rfl⟩
  | _ => cases hr

end Action

namespace Service

/-- Delivering watchers counts each as called. -/
theorem grown_delivered (sv : Service) (ws : List Nat) :
    sv.metrics.Grown (sv.delivered ws).metrics ws.length 0 (fun _ => 0) 0 :=
  ⟨rfl, rfl, fun _ => rfl, rfl⟩

/-- A single operation counts the watchers it hands over as called, and nothing else. -/
theorem grown_single {α : Type} (sv : Service) (e : Edit α) :
    sv.metrics.Grown (sv.single e).service.metrics (sv.single e).notify.length 0 (fun _ => 0) 0 := by
  unfold single
  cases e (Txn.start sv.store) with
  | ok a x => exact grown_delivered { sv with store := x.store } x.pending
  | error err x => exact grown_delivered { sv with store := x.store } x.pending

/-- An expiry counts the nodes it reports removed, and the watchers it hands over as called. -/
theorem grown_expire (sv : Service) (s : Int) :
    sv.metrics.Grown (sv.expire s).service.metrics (sv.expire s).notify.length 0 (fun _ => 0)
      ((Action.expire s).expired sv) := by
  simp only [Action.expired]
  unfold expire
  cases Edit.expire s (Txn.start sv.store) with
  | ok n x => exact ⟨rfl, rfl, fun _ => rfl, rfl⟩
  | error e x => exact Metrics.Grown.refl _

end Service

/-- A batch is counted once, under its outcome; a kept batch also counts the watchers it hands
over as called. -/
theorem Handle.grown_multi (h : Handle) (sv : Service) (ops : List BatchOp) :
    sv.metrics.Grown (h.multi sv ops).service.metrics (h.multi sv ops).notify.length 0
      (fun o => if (Action.multi h ops).batchOutcome sv = some o then 1 else 0) 0 := by
  simp only [Action.batchOutcome]
  cases hm : ops.mapM BatchOp.toWrite? with
  | none =>
    -- refused before any write runs
    have hc := BatchOp.mapM_toWrite?_eq_none_iff.1 hm
    simp only [Handle.multi, hm, hc, if_true, Option.some.injEq]
    exact Metrics.grown_countBatch sv.metrics .rejected
  | some ws =>
    have hc : ops.any BatchOp.isCheck = false := by
      cases hc : ops.any BatchOp.isCheck
      · rfl
      · rw [BatchOp.mapM_toWrite?_eq_none_iff.2 hc] at hm
        cases hm
    cases hrun : (ws.mapM (Edit.apply h.root h.session)) (Txn.start sv.store) with
    | ok rs x =>
      simp only [Handle.multi, hm, hrun, Option.some.injEq]
      -- the outcome is counted first, then the deliveries
      simpa only [Nat.zero_add, Nat.add_zero] using
        (Metrics.grown_countBatch sv.metrics .committed).trans
          (Service.grown_delivered
            { sv with store := x.store, metrics := sv.metrics.countBatch .committed } x.pending)
    | error e x =>
      simp only [Handle.multi, hm, hrun, hc, Bool.false_eq_true, ↓reduceIte, Option.some.injEq,
        List.length_nil]
      exact Metrics.grown_countBatch sv.metrics .rolledBack

namespace Action

/-- A read grows no counter. -/
theorem grown_of_read {a : Action} (hr : a.isWrite = false) (sv : Service) :
    sv.metrics.Grown (a.step sv).1.metrics (a.step sv).2.length 0 (fun _ => 0) 0 := by
  obtain ⟨hn, hm⟩ := step_of_read hr sv
  rw [hm, hn]
  exact Metrics.Grown.refl _

/-- What one operation does to the counters: the watchers it hands over are counted as called,
a batch once under its outcome, an expiry by the count it returns, and no call as failed. -/
theorem grown_step (a : Action) (sv : Service) :
    sv.metrics.Grown (a.step sv).1.metrics (a.step sv).2.length 0
      (fun o => if a.batchOutcome sv = some o then 1 else 0) (a.expired sv) := by
  cases a with
  | add h p d m => exact Service.grown_single sv _
  | update h p d => exact Service.grown_single sv _
  | delete h p => exact Service.grown_single sv _
  | get h p w => exact grown_of_read (a := get h p w) rfl sv
  | children h p w => exact grown_of_read (a := children h p w) rfl sv
  | multi h ops => exact Handle.grown_multi h sv ops
  | expire s => exact Service.grown_expire sv s

end Action

/-! ## Calling the watchers -/

namespace Service

/-- `sv'` is `sv`, or `sv` after one read, which may register a watcher. -/
inductive AfterRead (sv : Service) : Service → Prop
  | same : AfterRead sv sv
  | read (a : Action) : a.isWrite = false → AfterRead sv (a.step sv).1

namespace AfterRead

variable {sv sv' : Service}

theorem metrics (h : sv.AfterRead sv') : sv'.metrics = sv.metrics := by
  cases h with
  | same => rfl
  | read a hr => exact (Action.step_of_read hr sv).2

theorem wf (h : sv.AfterRead sv') (hwf : sv.store.WF) : sv'.store.WF := by
  cases h with
  | same => exact hwf
  | read a _ => exact a.wf_step hwf

end AfterRead

end Service

namespace Handle

variable {h : Handle} {sv sv' : Service} {p : String} {v : Option Nat}

theorem afterRead_get (hg : (h.get sv p v).map Prod.snd = .ok sv') : sv.AfterRead sv' := by
  cases hget : h.get sv p v with
  | error e => rw [hget] at hg; cases hg
  | ok r =>
    rw [hget] at hg
    cases hg
    have hstep : ((Action.get h p v).step sv).1 = r.2 := by simp [Action.step, hget]
    exact hstep ▸ .read _ rfl

theorem afterRead_children (hg : (h.children sv p v).map Prod.snd = .ok sv') :
    sv.AfterRead sv' := by
  cases hget : h.children sv p v with
  | error e => rw [hget] at hg; cases hg
  | ok r =>
    rw [hget] at hg
    cases hg
    have hstep : ((Action.children h p v).step sv).1 = r.2 := by simp [Action.step, hget]
    exact hstep ▸ .read _ rfl

end Handle

namespace Manager

variable (m : Manager) (sv : Service)

/-- Reading an entity is a read of its node. -/
theorem getAndWatch_snd (x : EntityId) (v : Option Nat) :
    (m.getAndWatch sv x v).2 = ((Action.get m.handle (m.entityPath x) v).step sv).1 := by
  unfold getAndWatch
  simp only [Action.step]
  cases m.handle.get sv (m.entityPath x) v with
  | ok r =>
    obtain ⟨d, sv'⟩ := r
    cases d with
    | none => rfl
    | some bs => cases hd : m.kind.decode bs <;> simp [hd]
  | error e => rfl

/-- Listing the ids is a read of the root's children. -/
theorem afterRead_listAndWatch {v : Option Nat} {ids : List EntityId} {sv' : Service}
    (h : m.listAndWatch sv v = .ok (ids, sv')) : sv.AfterRead sv' := by
  unfold listAndWatch at h
  cases hc : m.handle.children sv m.root v with
  | error e => rw [hc] at h; cases h
  | ok r =>
    rw [hc] at h
    obtain ⟨names, sv''⟩ := r
    cases h
    exact Handle.afterRead_children (by rw [hc]; rfl)

end Manager

theorem IdSetMonitor.afterRead_refresh (mon : IdSetMonitor) (sv : Service) :
    sv.AfterRead (mon.refresh sv).2.2 := by
  simp only [IdSetMonitor.refresh]
  split_ifs with hopen hstop hstop'
  · exact .same
  · -- a running monitor lists the ids again
    split
    · exact .same
    · exact Manager.afterRead_listAndWatch _ _ ‹_›
  · exact .same
  · simp at hstop'

theorem EntityMonitor.afterRead_refresh (mon : EntityMonitor) (sv : Service) (x : EntityId)
    (emit : Bool) : sv.AfterRead (mon.refresh sv x emit).2.2 := by
  have hread : ∀ v, sv.AfterRead (mon.manager.getAndWatch sv x v).2 := fun v => by
    rw [Manager.getAndWatch_snd]
    exact .read _ rfl
  unfold EntityMonitor.refresh
  split
  · exact .same
  · split
    · exact .same
    · next e _ =>
      split
      · exact .same
      · -- every other branch keeps the service the read of the entity's node leaves
        have hg := hread (some e.watcher)
        rcases hres : mon.manager.getAndWatch sv x (some e.watcher) with ⟨r, sv'⟩
        rw [hres] at hg
        rcases r with err | (_ | ent)
        · exact hg
        · simp only
          split <;> exact hg
        · exact hg

namespace World

/-- Whether calling a watcher panics in the caller's thread: a script watcher that fails, called
directly. A watcher that hands its work to a reactor only hands it over; a failure of that work
is the reactor's. -/
def panicsOnCall (w : World) (wid : Nat) : Bool :=
  match w.listeners[wid]? with
  | some (.reaction r) => r.panics && r.reactor.isNone
  | _ => false

/-- A script watcher's call keeps the watchers and at most reads the directory, to register
itself again. -/
theorem react_eq (w : World) (wid : Nat) (r : Reaction) :
    (w.react wid r).listeners = w.listeners ∧ w.service.AfterRead (w.react wid r).service := by
  unfold react
  -- counting the call under its name touches neither the watchers nor the service
  generalize hw' : (if w.isCurrent r.name wid = true then
    { w with fired := w.fired.insert r.name ((w.fired[r.name]?.getD 0) + 1) } else w) = w'
  have hsame : w'.listeners = w.listeners ∧ w'.service = w.service := by
    split_ifs at hw' <;> subst hw' <;> exact ⟨rfl, rfl⟩
  rw [← hsame.1, ← hsame.2]
  split
  · exact ⟨rfl, .same⟩
  · next h kind path _ =>
    cases kind with
    | data =>
      simp only
      split
      · exact ⟨rfl, Handle.afterRead_get ‹_›⟩
      · exact ⟨rfl, .same⟩
    | children =>
      simp only
      split
      · exact ⟨rfl, Handle.afterRead_children ‹_›⟩
      · exact ⟨rfl, .same⟩

/-- What a call does to the world: it keeps the watchers, at most reads the directory, and
counts a failed call exactly when the watcher panics in the caller's thread; a failed task of a
reactor is counted apart. -/
theorem call_eq (w : World) (wid : Nat) :
    (w.call wid).1.listeners = w.listeners ∧
      ∃ sv tf, w.service.AfterRead sv ∧
        (w.call wid).1.service = { sv with metrics := { sv.metrics with
          watcherFailures := sv.metrics.watcherFailures + if w.panicsOnCall wid then 1 else 0,
          taskFailures := tf } } := by
  unfold call panicsOnCall
  cases hl : w.listeners[wid]? with
  | none => exact ⟨rfl, w.service, _, .same, rfl⟩
  | some l =>
    cases l with
    | reaction r =>
      obtain ⟨hlr, hsr⟩ := react_eq w wid r
      dsimp only
      split
      · next hrx =>
        -- called directly: a panic is a failed call
        simp only [hrx, Option.isNone_none, Bool.and_true]
        by_cases hp : r.panics = true
        · simp only [hp, ↓reduceIte]
          exact ⟨hlr, _, _, hsr, rfl⟩
        · simp only [hp, Bool.false_eq_true, ↓reduceIte]
          exact ⟨hlr, _, _, hsr, rfl⟩
      · next i hrx =>
        -- handed to a reactor: a panic is a failed task of the reactor
        simp only [hrx, Option.isNone_some, Bool.and_false, Bool.false_eq_true, ↓reduceIte]
        split
        · exact ⟨rfl, _, _, .same, rfl⟩
        · next rx _ =>
          by_cases hd : rx.shutDown = true
          · simp only [hd, ↓reduceIte]
            exact ⟨trivial, _, _, .same, rfl⟩
          · by_cases hp : r.panics = true
            · simp only [hd, hp, Bool.false_eq_true, ↓reduceIte]
              exact ⟨hlr, _, _, hsr, rfl⟩
            · simp only [hd, hp, Bool.false_eq_true, ↓reduceIte]
              exact ⟨hlr, _, _, hsr, rfl⟩
    | idSet n =>
      dsimp only
      split
      · exact ⟨rfl, _, _, .same, rfl⟩
      · next mon _ =>
        -- a monitor's watcher refreshes it, which reads the directory
        split <;> exact ⟨rfl, _, _, mon.afterRead_refresh w.service, rfl⟩
    | entity n x =>
      dsimp only
      split
      · exact ⟨rfl, _, _, .same, rfl⟩
      · next mon _ =>
        split <;> exact ⟨rfl, _, _, mon.afterRead_refresh w.service x true, rfl⟩

theorem wf_call {w : World} (hwf : w.service.store.WF) (wid : Nat) :
    (w.call wid).1.service.store.WF := by
  obtain ⟨sv, tf, hsv, heq⟩ := (call_eq w wid).2
  rw [heq]
  exact hsv.wf hwf

theorem grown_call (w : World) (wid : Nat) :
    w.service.metrics.Grown (w.call wid).1.service.metrics 0
      (if w.panicsOnCall wid then 1 else 0) (fun _ => 0) 0 := by
  obtain ⟨sv, tf, hsv, heq⟩ := (call_eq w wid).2
  rw [heq, ← hsv.metrics]
  exact ⟨rfl, rfl, fun _ => rfl, rfl⟩

end World

/-! ## The work of a step -/

namespace Work

/-- Whether a piece of work is the call of a watcher. -/
def isCall : Work → Bool
  | call _ => true
  | run _ => false

theorem countP_isCall_map_call (ws : List Nat) : (ws.map call).countP isCall = ws.length := by
  simp [List.countP_map, isCall]

theorem countP_isCall_map_run (acts : List Action) : (acts.map run).countP isCall = 0 := by
  simp [List.countP_map, isCall]

end Work

namespace World

/-- Whether a piece of work, done on this world, is a call that panics in the caller's thread. -/
def panicsIn (w : World) : Work → Bool
  | .call wid => w.panicsOnCall wid
  | .run _ => false

/-- The outcome a piece of work, done on this world, counts a batch under, if it runs one. -/
def outcomeOf (w : World) : Work → Option BatchOutcome
  | .call _ => none
  | .run a => a.batchOutcome w.service

/-- How many ephemeral nodes a piece of work, done on this world, reports removed. -/
def expiredBy (w : World) : Work → Nat
  | .call _ => 0
  | .run a => a.expired w.service

/-- The pieces of work `drain` does, each with the world it is done on. -/
def drainLog : Nat → World → List Work → List (World × Work)
  | 0, _, _ => []
  | _ + 1, _, [] => []
  | n + 1, w, x :: ws => (w, x) :: drainLog n (w.work x).1 ((w.work x).2 ++ ws)

theorem drain_cons (n : Nat) (w : World) (x : Work) (ws : List Work) :
    w.drain (n + 1) (x :: ws) = (w.work x).1.drain n ((w.work x).2 ++ ws) :=
  rfl

theorem wf_work {w : World} (hwf : w.service.store.WF) : ∀ x : Work, (w.work x).1.service.store.WF
  | .call wid => wf_call hwf wid
  | .run a => a.wf_step hwf

/-- Every piece of work `drain` does is done on a world whose store is well formed. -/
theorem wf_of_mem_drainLog : ∀ (n : Nat) {w : World} (ws : List Work), w.service.store.WF →
    ∀ p ∈ w.drainLog n ws, p.1.service.store.WF
  | 0, _, _, _, p, hp => by cases hp
  | _ + 1, _, [], _, p, hp => by cases hp
  | n + 1, w, x :: ws, hwf, p, hp => by
    rcases List.mem_cons.1 hp with rfl | hp
    · exact hwf
    · exact wf_of_mem_drainLog n _ (wf_work hwf x) p hp

/-- One piece of work: an operation counts what `Action.grown_step` says and hands its watchers
over as calls; a call counts a failure when it panics in the caller's thread, and hands over
operations only. -/
theorem grown_work (w : World) : ∀ x : Work,
    w.service.metrics.Grown (w.work x).1.service.metrics ((w.work x).2.countP Work.isCall)
      (if w.panicsIn x then 1 else 0) (fun o => if w.outcomeOf x = some o then 1 else 0)
      (w.expiredBy x)
  | .call wid => by
    have h := grown_call w wid
    simp only [work, panicsIn, outcomeOf, expiredBy, Work.countP_isCall_map_run, reduceCtorEq,
      if_false]
    exact h
  | .run a => by
    have h := a.grown_step w.service
    simp only [work, panicsIn, outcomeOf, expiredBy, Work.countP_isCall_map_call]
    exact h

/-- After any number of pieces of work, the counters have grown by what the pieces done report:
the calls they handed over, the calls among them that panic, their batches by outcome and
their expiries. -/
theorem grown_drain : ∀ (n : Nat) (w : World) (ws : List Work),
    w.service.metrics.Grown (w.drain n ws).1.service.metrics
      ((w.drainLog n ws).map fun p => (p.1.work p.2).2.countP Work.isCall).sum
      ((w.drainLog n ws).countP fun p => p.1.panicsIn p.2)
      (fun o => (w.drainLog n ws).countP fun p => p.1.outcomeOf p.2 == some o)
      ((w.drainLog n ws).map fun p => p.1.expiredBy p.2).sum
  | 0, w, _ => Metrics.Grown.refl _
  | _ + 1, w, [] => Metrics.Grown.refl _
  | n + 1, w, x :: ws => by
    have h := (grown_work w x).trans (grown_drain n (w.work x).1 ((w.work x).2 ++ ws))
    simp only [drain_cons, drainLog, List.map_cons, List.sum_cons, List.countP_cons, beq_iff_eq]
    refine ⟨h.notified, ?_, fun o => ?_, h.expired⟩
    · rw [h.failures, Nat.add_comm (List.countP _ _)]
    · rw [h.batches o, Nat.add_comm (List.countP _ _)]

/-- Every call is pending at the start or handed over by a piece of work done, and is then
either done or still pending. -/
theorem calls_drain : ∀ (n : Nat) (w : World) (ws : List Work),
    ws.countP Work.isCall +
        ((w.drainLog n ws).map fun p => (p.1.work p.2).2.countP Work.isCall).sum =
      (w.drainLog n ws).countP (·.2.isCall) + (w.drain n ws).2.countP Work.isCall
  | 0, w, ws => by simp [drain, drainLog]
  | _ + 1, w, [] => by simp [drain, drainLog]
  | n + 1, w, x :: ws => by
    have ih := calls_drain n (w.work x).1 ((w.work x).2 ++ ws)
    simp only [List.countP_append] at ih
    simp only [drain_cons, drainLog, List.map_cons, List.sum_cons, List.countP_cons]
    omega

end World

/-- The counters account for every outcome once. Start from a world whose store is well formed
and a run of operations, and do the work they give depth first, any number of pieces of it:
each operation, the ones callbacks run included, with the watchers it fires called before the
work already waiting. Then each operation done hands every watcher over at most once; the count
of calls has grown by the calls done, those that panic included, and the calls still waiting;
the count of failed calls by the calls done that panic in the caller's thread; each batch done
has added one to the count of exactly one outcome, and is refused exactly when it holds a check;
and the count of expired nodes has grown by the counts the expiries done return. Once no work
waits, the count of calls has grown by exactly the calls done. -/
theorem metrics_account_every_outcome {w : World} (hwf : w.service.store.WF)
    (acts : List Action) (n : Nat) :
    (∀ p ∈ w.drainLog n (acts.map .run), ∀ a, p.2 = .run a → (a.step p.1.service).2.Nodup) ∧
    (∀ h ops sv, (Action.multi h ops).batchOutcome sv = some .rejected ↔
      ∃ p v, BatchOp.check p v ∈ ops) ∧
    w.service.metrics.Grown (w.drain n (acts.map .run)).1.service.metrics
      ((w.drainLog n (acts.map .run)).countP (·.2.isCall) +
        (w.drain n (acts.map .run)).2.countP Work.isCall)
      ((w.drainLog n (acts.map .run)).countP fun p => p.1.panicsIn p.2)
      (fun o => (w.drainLog n (acts.map .run)).countP fun p => p.1.outcomeOf p.2 == some o)
      ((w.drainLog n (acts.map .run)).map fun p => p.1.expiredBy p.2).sum := by
  refine ⟨fun p hp a _ => a.nodup_notify (World.wf_of_mem_drainLog n _ hwf p hp),
    Action.batchOutcome_eq_rejected_iff, ?_⟩
  have h := World.grown_drain n w (acts.map .run)
  -- the run starts with no call waiting, so the calls handed over are those done or waiting
  have hcalls := World.calls_drain n w (acts.map .run)
  rw [Work.countP_isCall_map_run, Nat.zero_add] at hcalls
  rw [← hcalls]
  exact h

/-- A watcher of the root's children whose callback registers a second watcher and adds a node,
so that the second is called inside the first's call; then an empty batch and an expiry. -/
theorem metrics_account_every_outcome_nested :
    let h := Handle.top 0
    let writer : Reaction :=
      { name := "writer", panics := false, rearm := none, reactor := none
        runs := [.children h "/" (some 1), .add h "/b" none .persistent] }
    let reader : Reaction := { name := "reader", panics := true, rearm := none, reactor := none }
    let w : World := { World.make 0 0 with
      listeners := ((∅ : Std.TreeMap Nat Listener).insert 0 (.reaction writer)).insert 1
        (.reaction reader) }
    let acts : List Action :=
      [.children h "/" (some 0), .add h "/a" none .persistent, .multi h [], .expire 0]
    w.service.store.WF ∧
    (∀ p ∈ w.drainLog 12 (acts.map .run), ∀ a, p.2 = .run a → (a.step p.1.service).2.Nodup) ∧
    (∀ h ops sv, (Action.multi h ops).batchOutcome sv = some .rejected ↔
      ∃ p v, BatchOp.check p v ∈ ops) ∧
    w.service.metrics.Grown (w.drain 12 (acts.map .run)).1.service.metrics
      ((w.drainLog 12 (acts.map .run)).countP (·.2.isCall) +
        (w.drain 12 (acts.map .run)).2.countP Work.isCall)
      ((w.drainLog 12 (acts.map .run)).countP fun p => p.1.panicsIn p.2)
      (fun o => (w.drainLog 12 (acts.map .run)).countP fun p => p.1.outcomeOf p.2 == some o)
      ((w.drainLog 12 (acts.map .run)).map fun p => p.1.expiredBy p.2).sum := by
  intro h writer reader w acts
  exact ⟨Service.wf_empty, metrics_account_every_outcome Service.wf_empty acts 12⟩

end CoordStore
