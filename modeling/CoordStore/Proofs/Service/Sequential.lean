import CoordStore.Proofs.Service.Atomic

/-!
# A kept batch is its writes one by one

Running writes as one batch through a handle, and issuing them one after the other through
the same handle as operations of their own, agree. The batch fails exactly when one of the
single operations fails, and then with the error of the first that fails; when none fails,
the batch gives the same results, leaves the same store (tree, counters, next number and
registry), and notifies the same watchers, but each of them once and only when the batch is
done (`multi_eq_oneByOne`).

The reason is that an edit adds to its record what it would add to an empty record, whatever
the record held before (`Edit.Framed`): a batch's record is the records of its writes put one
after the other, so the watchers it delivers are the watchers its writes deliver.
-/

namespace CoordStore

/-! ## Records put one after the other -/

namespace Batch

/-- The record `b` followed by what the record `d` holds: `d`'s changes are the newer ones,
`d`'s taken sets come later. -/
def append (b d : Batch) : Batch :=
  { journal := d.journal ++ b.journal, taken := b.taken ++ d.taken }

end Batch

namespace Txn

/-- The store of `x` with the record of `x` coming after the record `b`. -/
def after (x : Txn) (b : Batch) : Txn :=
  { x with batch := b.append x.batch }

@[simp] theorem store_after (x : Txn) (b : Batch) : (x.after b).store = x.store := rfl

/-- Every record is the empty one coming after itself. -/
theorem start_after (x : Txn) : (Txn.start x.store).after x.batch = x := by
  simp [after, start, Batch.append]

theorem take_after (x : Txn) (b : Batch) (node : Nat) (kind : WatchKind) (fire : Bool) :
    (x.after b).take node kind fire = (x.take node kind fire).after b := by
  by_cases h : (x.store.watches.waiting node kind).isEmpty <;>
    simp [take, after, Batch.append, Registry.take, h]

theorem record_after (x : Txn) (b : Batch) (c : Change) :
    (x.after b).record c = (x.record c).after b := by
  cases c <;> simp [record, take_after] <;> simp [after, Batch.append]

/-- A record coming after another delivers the watchers of both. -/
theorem mem_pending_after {x y : Txn} {w : Nat} :
    w ∈ (x.after y.batch).pending ↔ w ∈ y.pending ∨ w ∈ x.pending := by
  simp only [pending, after, Batch.append, List.mem_eraseDups, List.filter_append,
    List.flatMap_append, List.mem_append]

end Txn

/-! ## Edits that add to the record what they would add to an empty one -/

namespace Edit

variable {α β : Type}

/-- An edit whose run from a record `x` coming after `b` is its run from `x`, coming after
`b`: it reads and writes the store and adds to the record, whatever the record held. -/
def Framed (e : Edit α) : Prop :=
  ∀ (x : Txn) (b : Batch),
    (∀ a y, e x = .ok a y → e (x.after b) = .ok a (y.after b)) ∧
    (∀ err y, e x = .error err y → e (x.after b) = .error err (y.after b))

namespace Framed

theorem pure (a : α) : Framed (pure a : Edit α) := by
  intro x b
  refine ⟨fun a' y h => ?_, fun err y h => absurd h pure_ne_error⟩
  obtain ⟨rfl, rfl⟩ := pure_eq_ok.1 h
  rfl

theorem bind {e : Edit α} {f : α → Edit β} (he : Framed e) (hf : ∀ a, Framed (f a)) :
    Framed (e >>= f) := by
  intro x b
  constructor
  · intro c z h
    obtain ⟨a, y, h₁, h₂⟩ := bind_eq_ok.1 h
    exact bind_eq_ok.2 ⟨a, y.after b, (he x b).1 a y h₁, (hf a y b).1 c z h₂⟩
  · intro err z h
    rcases bind_eq_error.1 h with h₁ | ⟨a, y, h₁, h₂⟩
    · exact bind_eq_error.2 (.inl ((he x b).2 err z h₁))
    · exact bind_eq_error.2 (.inr ⟨a, y.after b, (he x b).1 a y h₁, (hf a y b).2 err z h₂⟩)

theorem map {e : Edit α} (f : α → β) (he : Framed e) : Framed (f <$> e) := by
  intro x b
  constructor
  · intro c y h
    obtain ⟨a, h₁, rfl⟩ := map_eq_ok.1 h
    exact map_eq_ok.2 ⟨a, (he x b).1 a y h₁, rfl⟩
  · intro err y h
    exact map_eq_error.2 ((he x b).2 err y (map_eq_error.1 h))

theorem mapM {f : α → Edit β} (hf : ∀ a, Framed (f a)) : ∀ as : List α, Framed (as.mapM f)
  | [] => by simpa using Framed.pure []
  | a :: as => by
    rw [List.mapM_cons]
    exact (hf a).bind fun _ => (Framed.mapM hf as).bind fun _ => Framed.pure _

theorem store : Framed store := by
  intro x b
  refine ⟨fun a y h => ?_, fun err y h => absurd h store_ne_error⟩
  obtain ⟨rfl, rfl⟩ := store_eq_ok.1 h
  rfl

theorem ofExcept (r : Except DirError α) : Framed (ofExcept r) := by
  intro x b
  constructor
  · intro a y h
    obtain ⟨hr, rfl⟩ := ofExcept_eq_ok.1 h
    exact ofExcept_eq_ok.2 ⟨hr, rfl⟩
  · intro err y h
    obtain ⟨hr, rfl⟩ := ofExcept_eq_error.1 h
    exact ofExcept_eq_error.2 ⟨hr, rfl⟩

theorem onTree (m : EStateM DirError Tree α) : Framed (onTree m) := by
  intro x b
  constructor
  · intro a y h
    obtain ⟨t, hm, rfl⟩ := onTree_eq_ok.1 h
    exact onTree_eq_ok.2 ⟨t, hm, rfl⟩
  · intro err y h
    obtain ⟨t, hm, rfl⟩ := onTree_eq_error.1 h
    exact onTree_eq_error.2 ⟨t, hm, rfl⟩

theorem record (c : Change) : Framed (record c) := by
  intro x b
  refine ⟨fun u y h => ?_, fun err y h => absurd h record_ne_error⟩
  obtain rfl := record_eq_ok.1 h
  exact record_eq_ok.2 (Txn.record_after x b c).symm

variable {e : Edit α} {x y : Txn}

/-- A framed edit run from any record is its run from the empty record, coming after it. -/
theorem eq_ok_iff (he : Framed e) {a : α} :
    e x = .ok a y ↔ ∃ z, e (Txn.start x.store) = .ok a z ∧ y = z.after x.batch := by
  have hx := he (Txn.start x.store) x.batch
  rw [Txn.start_after] at hx
  cases hs : e (Txn.start x.store) with
  | ok a' z =>
    rw [hx.1 a' z hs]
    simp [eq_comm]
  | error err z =>
    rw [hx.2 err z hs]
    simp

theorem eq_error_iff (he : Framed e) {err : DirError} :
    e x = .error err y ↔ ∃ z, e (Txn.start x.store) = .error err z ∧ y = z.after x.batch := by
  have hx := he (Txn.start x.store) x.batch
  rw [Txn.start_after] at hx
  cases hs : e (Txn.start x.store) with
  | ok a z =>
    rw [hx.1 a z hs]
    simp
  | error err' z =>
    rw [hx.2 err' z hs]
    simp [eq_comm]

end Framed

section Writes

variable {root : Nat} {session : Int}

theorem framed_create (path : String) (data : Option (List UInt8)) (mode : CreateMode) :
    Framed (create root path data mode session) := by
  unfold create
  exact (Framed.ofExcept _).bind fun _ => Framed.store.bind fun _ =>
    (Framed.ofExcept _).bind fun _ => (Framed.onTree _).bind fun _ => Framed.store.bind fun _ =>
      (Framed.ofExcept _).bind fun _ => (Framed.record _).bind fun _ => Framed.pure _

theorem framed_setData (path : String) (data : Option (List UInt8)) :
    Framed (setData root path data) := by
  unfold setData
  exact Framed.store.bind fun _ => (Framed.ofExcept _).bind fun _ =>
    (Framed.onTree _).bind fun _ => Framed.record _

theorem framed_delete (path : String) : Framed (delete root path) := by
  unfold delete
  exact (Framed.ofExcept _).bind fun _ => Framed.store.bind fun _ =>
    (Framed.ofExcept _).bind fun _ => (Framed.onTree _).bind fun _ => Framed.record _

theorem framed_apply (w : Write) : Framed (apply root session w) := by
  cases w with
  | create p d m => exact Framed.map _ (framed_create p d m)
  | setData p d => exact Framed.map _ (framed_setData p d)
  | delete p => exact Framed.map _ (framed_delete p)

end Writes

end Edit

/-! ## Writes issued one by one -/

/-- The reply with its result changed by `f`. -/
def Reply.map {α β : Type} (f : α → β) (r : Reply α) : Reply β :=
  { r with result := f <$> r.result }

namespace Handle

/-- A write issued through a handle as an operation of its own. -/
def write (h : Handle) (sv : Service) : Write → Reply OpResult
  | .create p d m => (h.add sv p d m).map OpResult.create
  | .setData p d => (h.update sv p d).map fun _ => .setData
  | .delete p => (h.delete sv p).map fun _ => .delete

/-- Issues writes through a handle one after the other, each as an operation of its own, up to
the first that fails: the results, or the error of the first that failed; the service after;
and the watchers the operations delivered, in order. -/
def oneByOne (h : Handle) : List Write → Service →
    Except DirError (List OpResult) × Service × List Nat
  | [], sv => (.ok [], sv, [])
  | w :: ws, sv =>
    let r := h.write sv w
    match r.result with
    | .error e => (.error e, r.service, r.notify)
    | .ok a =>
      let rest := h.oneByOne ws r.service
      ((a :: ·) <$> rest.1, rest.2.1, r.notify ++ rest.2.2)

end Handle

namespace Service

theorem single_map {α β : Type} (sv : Service) (f : α → β) (e : Edit α) :
    sv.single (f <$> e) = (sv.single e).map f := by
  unfold single Reply.map
  cases he : e (Txn.start sv.store) with
  | ok a x => simp [Functor.map, EStateM.map, Except.map, he]
  | error err x => simp [Functor.map, EStateM.map, Except.map, he]

end Service

namespace Handle

variable (h : Handle)

/-- A write issued on its own runs the edit it runs inside a batch. -/
theorem write_eq_single (sv : Service) (w : Write) :
    h.write sv w = sv.single (Edit.apply h.root h.session w) := by
  cases w <;> simp [write, Edit.apply, Service.single_map, add, update, delete]

/-- A write issued on its own that fails as the first write of a batch fails with its error. -/
theorem write_of_apply_eq_error {sv : Service} {w : Write} {e : DirError} {y : Txn}
    (hw : Edit.apply h.root h.session w (Txn.start sv.store) = .error e y) :
    (h.write sv w).result = .error e := by
  simp [write_eq_single, Service.single, hw]

/-- A write issued on its own that goes through as the first write of a batch gives its
result, keeps its store and delivers its watchers. -/
theorem write_of_apply_eq_ok {sv : Service} {w : Write} {a : OpResult} {y : Txn}
    (hw : Edit.apply h.root h.session w (Txn.start sv.store) = .ok a y) :
    (h.write sv w).result = .ok a ∧ (h.write sv w).service.store = y.store ∧
      (h.write sv w).notify = y.pending := by
  simp [write_eq_single, Service.single, hw, Service.delivered]

/-- The edit of a batch of writes, run from a service's store, against the writes issued one by
one: the same error, or the same results, store and delivered watchers. -/
theorem mapM_apply_oneByOne : ∀ (ws : List Write) (sv : Service),
    (∀ e y, (ws.mapM (Edit.apply h.root h.session)) (Txn.start sv.store) = .error e y →
      (h.oneByOne ws sv).1 = .error e) ∧
    (∀ rs y, (ws.mapM (Edit.apply h.root h.session)) (Txn.start sv.store) = .ok rs y →
      (h.oneByOne ws sv).1 = .ok rs ∧ (h.oneByOne ws sv).2.1.store = y.store ∧
      ∀ w, w ∈ y.pending ↔ w ∈ (h.oneByOne ws sv).2.2)
  | [], sv => by
    refine ⟨fun e y hrun => absurd hrun Edit.pure_ne_error, fun rs y hrun => ?_⟩
    obtain ⟨rfl, rfl⟩ := Edit.pure_eq_ok.1 hrun
    simp [oneByOne, Txn.pending, Txn.start]
  | w :: ws, sv => by
    have hrest : Edit.Framed (ws.mapM (Edit.apply h.root h.session)) :=
      Edit.Framed.mapM Edit.framed_apply ws
    rw [List.mapM_cons]
    cases hfirst : Edit.apply h.root h.session w (Txn.start sv.store) with
    | error e y =>
      have hres := h.write_of_apply_eq_error hfirst
      refine ⟨fun e' y' hrun => ?_, fun rs y' hrun => ?_⟩
      · rcases Edit.bind_eq_error.1 hrun with h₁ | ⟨a, z, h₁, -⟩ <;> rw [hfirst] at h₁ <;>
          cases h₁
        simp [oneByOne, hres]
      · obtain ⟨a, z, h₁, -⟩ := Edit.bind_eq_ok.1 hrun
        rw [hfirst] at h₁
        cases h₁
    | ok a y =>
      obtain ⟨hres, hstore, hnotify⟩ := h.write_of_apply_eq_ok hfirst
      -- the rest of the batch runs from `y`: from an empty record, coming after `y`'s record
      obtain ⟨ih_error, ih_ok⟩ := mapM_apply_oneByOne ws (h.write sv w).service
      rw [hstore] at ih_error ih_ok
      simp only [oneByOne, hres]
      refine ⟨fun e' z hrun => ?_, fun rs z hrun => ?_⟩
      · rcases Edit.bind_eq_error.1 hrun with h₁ | ⟨a', y', h₁, h₂⟩
        · rw [hfirst] at h₁
          cases h₁
        rw [hfirst] at h₁
        obtain ⟨rfl, rfl⟩ : a = a' ∧ y = y' := by simpa using h₁
        rcases Edit.bind_eq_error.1 h₂ with h₃ | ⟨rs', z', -, h₄⟩
        · obtain ⟨z'', hz'', -⟩ := hrest.eq_error_iff.1 h₃
          simp [ih_error e' z'' hz'']
        · exact absurd h₄ Edit.pure_ne_error
      · obtain ⟨a', y', h₁, h₂⟩ := Edit.bind_eq_ok.1 hrun
        rw [hfirst] at h₁
        obtain ⟨rfl, rfl⟩ : a = a' ∧ y = y' := by simpa using h₁
        obtain ⟨rs', z', h₃, h₄⟩ := Edit.bind_eq_ok.1 h₂
        obtain ⟨rfl, rfl⟩ := Edit.pure_eq_ok.1 h₄
        obtain ⟨z'', hz'', rfl⟩ := hrest.eq_ok_iff.1 h₃
        obtain ⟨hrs, hstore', hpend⟩ := ih_ok rs' z'' hz''
        refine ⟨by simp [hrs], by simp [hstore'], fun v => ?_⟩
        rw [Txn.mem_pending_after, List.mem_append, hnotify, hpend]

end Handle

/-- A kept batch is its writes issued one by one. Through any handle and from any service, a
batch of writes ends with the result of issuing its writes one after the other as operations
of their own, up to the first that fails: that operation's error, or all the results. When
all go through, the batch leaves the store they leave, with the same tree, counters, next
number and registry, and it notifies, once each and only when it is done, exactly the watchers
the single operations notify. -/
theorem multi_eq_oneByOne (sv : Service) (h : Handle) (ws : List Write) :
    (h.multi sv (ws.map Write.toOp)).result = (h.oneByOne ws sv).1 ∧
    ∀ rs, (h.oneByOne ws sv).1 = .ok rs →
      (h.multi sv (ws.map Write.toOp)).service.store = (h.oneByOne ws sv).2.1.store ∧
      (h.multi sv (ws.map Write.toOp)).notify.Nodup ∧
      ∀ w, w ∈ (h.multi sv (ws.map Write.toOp)).notify ↔ w ∈ (h.oneByOne ws sv).2.2 := by
  obtain ⟨herror, hok⟩ := h.mapM_apply_oneByOne ws sv
  rw [Handle.multi_map_toOp]
  cases hrun : (ws.mapM (Edit.apply h.root h.session)) (Txn.start sv.store) with
  | error e x =>
    refine ⟨(herror e x hrun).symm, fun rs hrs => ?_⟩
    rw [herror e x hrun] at hrs
    cases hrs
  | ok rs x =>
    obtain ⟨hrs, hstore, hpend⟩ := hok rs x hrun
    refine ⟨hrs.symm, fun rs' _ => ⟨?_, Txn.Tracks.nodup_pending x, hpend⟩⟩
    simp [hstore, Service.delivered]

end CoordStore
