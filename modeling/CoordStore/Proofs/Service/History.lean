import CoordStore.Proofs.Service.Refine
import CoordStore.Proofs.Service.Place

/-!
# What a run keeps of each node

Numbers are handed out once. A creation takes the next number and moves it on; a creation that
a rollback takes back keeps its number used; and a number whose node is gone never comes back.
So the creations of any run take the numbers from the next one on, one after the other
(`Action.createdAlong_eq`), and a number handed out whose node is gone stays free.

Between two points of a run, a node there at both keeps its path, mode and owner, and its
counter has not gone down (`Tree.Later`, `Action.later_run`). A handle whose root an operation
removed is therefore stale for good: every operation through it fails with the root's number
as the missing node, even once a node is created again at the same path; while a batch that is
taken back keeps every node, and the root of every handle with it (`ids_never_reused`).
-/

namespace CoordStore

/-! ## Later trees -/

namespace Tree

/-- `t'` comes later than `t` in a run: the next number has not gone back, a number handed out
whose node is gone stays free, and a node there in both keeps its path, mode and owner, with
its counter moved on at most. -/
structure Later (t t' : Tree) : Prop where
  nextId : t.nextId ≤ t'.nextId
  gone : ∀ {q : Nat}, q < t.nextId → t.nodes[q]? = none → t'.nodes[q]? = none
  kept : ∀ {q : Nat} {n n' : Node}, t.nodes[q]? = some n → t'.nodes[q]? = some n' →
    n'.path = n.path ∧ n'.mode = n.mode ∧ n'.owner = n.owner ∧ n.sequence ≤ n'.sequence

namespace Later

theorem refl (t : Tree) : Later t t where
  nextId := Nat.le_refl _
  gone := fun _ h => h
  kept := by
    intro q n n' hn hn'
    rw [hn] at hn'
    cases hn'
    exact ⟨rfl, rfl, rfl, Nat.le_refl _⟩

/-- From a well-formed tree, coming later is transitive: a node there at both ends was there
in between, since its number was handed out before, and a free number handed out stays
free. -/
theorem trans {t₁ t₂ t₃ : Tree} (hwf : t₁.WF) (h₁ : Later t₁ t₂) (h₂ : Later t₂ t₃) :
    Later t₁ t₃ where
  nextId := Nat.le_trans h₁.nextId h₂.nextId
  gone := fun hq hn => h₂.gone (Nat.lt_of_lt_of_le hq h₁.nextId) (h₁.gone hq hn)
  kept := by
    intro q n n'' hn hn''
    cases hmid : t₂.nodes[q]? with
    | none =>
      have hgone := h₂.gone (Nat.lt_of_lt_of_le (hwf.fresh hn) h₁.nextId) hmid
      rw [hgone] at hn''
      cases hn''
    | some n' =>
      obtain ⟨hp₁, hm₁, ho₁, hs₁⟩ := h₁.kept hn hmid
      obtain ⟨hp₂, hm₂, ho₂, hs₂⟩ := h₂.kept hmid hn''
      exact ⟨hp₂.trans hp₁, hm₂.trans hm₁, ho₂.trans ho₁, Nat.le_trans hs₁ hs₂⟩

/-- A tree with counters moved on comes later. -/
theorem of_advanced {t t' : Tree} (h : Advanced t t') : Later t t' where
  nextId := h.nextId
  gone := by
    intro q _ hn
    have hslot := h.nodes q
    rw [hn] at hslot
    cases hn' : t'.nodes[q]? with
    | none => rfl
    | some _ =>
      rw [hn'] at hslot
      cases hslot
  kept := by
    intro q n n' hn hn'
    obtain ⟨m, hm, hshape, hseq⟩ := h.get hn
    rw [hn'] at hm
    cases hm
    obtain ⟨hpath, -, hmode, howner, -⟩ := Node.shape_eq_iff.1 hshape
    exact ⟨hpath.symm, hmode.symm, howner.symm, hseq⟩

end Later

/-- A tree step comes later: only a creation's parent has its counter moved, and a removed
node's number was handed out. -/
theorem Step.later {t t' : Tree} {c : Change} (hwf : t.WF) (h : t.Step c t') : Later t t' where
  nextId := by
    rw [h.nextId_eq]
    exact Nat.le_add_right _ _
  gone := fun hq hn => (h.absent hn hq).1
  kept := by
    intro q n n' hn hn'
    cases h with
    | created hp _ _ _ hseq =>
      rw [getElem?_addNode] at hn'
      split_ifs at hn' with hnew hpq
      · subst hnew
        rw [hwf.nextId_free] at hn
        cases hn
      · cases hn'
        subst hpq
        rw [hp] at hn
        cases hn
        exact ⟨rfl, rfl, rfl, hseq⟩
      · rw [hn] at hn'
        cases hn'
        exact ⟨rfl, rfl, rfl, Nat.le_refl _⟩
    | dataChanged data hid =>
      rw [getElem?_setNode] at hn'
      split_ifs at hn' with hq
      · cases hn'
        subst hq
        rw [hid] at hn
        cases hn
        exact ⟨rfl, rfl, rfl, Nat.le_refl _⟩
      · rw [hn] at hn'
        cases hn'
        exact ⟨rfl, rfl, rfl, Nat.le_refl _⟩
    | deleted hp =>
      rw [getElem?_removeNode] at hn'
      split_ifs at hn' with hc hpq
      · cases hn'
        subst hpq
        rw [hp] at hn
        cases hn
        exact ⟨rfl, rfl, rfl, Nat.le_refl _⟩
      · rw [hn] at hn'
        cases hn'
        exact ⟨rfl, rfl, rfl, Nat.le_refl _⟩

/-- Coming later than a well-formed tree is kept by every step of a run. -/
theorem kept_later {t₀ : Tree} (hwf : t₀.WF) : Kept (Later t₀) where
  step := fun htwf hs h => h.trans hwf (hs.later htwf)
  advanced := fun ha h => h.trans hwf (Later.of_advanced ha)

end Tree

namespace Action

/-- The tree after an operation comes later than the tree before it. -/
theorem later (a : Action) {sv : Service} (hwf : sv.store.WF) :
    Tree.Later sv.store.tree (a.step sv).1.store.tree :=
  (Tree.kept_later hwf.tree).action a hwf (Tree.Later.refl _)

/-- The tree after a run comes later than the tree it started from. -/
theorem later_run : ∀ (acts : List Action) {sv : Service}, sv.store.WF →
    Tree.Later sv.store.tree (run acts sv).store.tree
  | [], _, _ => Tree.Later.refl _
  | a :: acts, _, hwf => (a.later hwf).trans hwf.tree (later_run acts (a.wf_step hwf))

theorem run_append (acts acts' : List Action) (sv : Service) :
    run (acts ++ acts') sv = run acts' (run acts sv) := by
  induction acts generalizing sv with
  | nil => rfl
  | cons a acts ih => exact ih _

end Action

/-- A reachable service is where some run from the empty one ends. -/
theorem Service.Reachable.exists_run {sv : Service} (h : sv.Reachable) :
    ∃ acts, Action.run acts Service.empty = sv := by
  induction h with
  | empty => exact ⟨[], rfl⟩
  | step a _ ih =>
    obtain ⟨acts, rfl⟩ := ih
    exact ⟨acts ++ [a], Action.run_append _ _ _⟩

/-! ## Numbers handed out -/

namespace Change

/-- The number a change handed out: the created node's. -/
def createdId? : Change → Option Nat
  | .created _ _ id => some id
  | _ => none

end Change

/-- An edit hands out the numbers from the next one on, one for each creation it journals, in
the order of its creations. -/
theorem Txn.Steps.createdIds {S : Store} {x : Txn} (h : Txn.Steps (Txn.start S) x) :
    (x.batch.journal.filterMap Change.createdId?).reverse =
        List.range' S.tree.nextId (x.store.tree.nextId - S.tree.nextId) ∧
      S.tree.nextId ≤ x.store.tree.nextId := by
  induction h with
  | refl => simp [Txn.start]
  | @tail y z _ hstep ih =>
    obtain ⟨hids, hle⟩ := ih
    cases hstep with
    | change hs =>
      simp only [Txn.applied, Txn.journal_record, Txn.tree_record]
      cases hs with
      | created =>
        -- the creation takes the next number, which moves on by one
        have hlen : y.store.tree.nextId + 1 - S.tree.nextId =
            y.store.tree.nextId - S.tree.nextId + 1 := by omega
        simp only [Change.createdId?, List.filterMap_cons, List.reverse_cons, hids, Tree.addNode,
          hlen, List.range'_1_concat]
        refine ⟨?_, by omega⟩
        congr 2
        omega
      | dataChanged => simpa [Change.createdId?, Tree.setNode] using ⟨hids, hle⟩
      | deleted => simpa [Change.createdId?, Tree.removeNode] using ⟨hids, hle⟩
    | bump hp => simpa [Tree.setNode] using ⟨hids, hle⟩

namespace Service

theorem store_single {α : Type} (sv : Service) (e : Edit α) :
    (sv.single e).service.store = (Edit.outcome e sv.store).store := by
  unfold single Edit.outcome
  cases e (Txn.start sv.store) <;> rfl

end Service

namespace Action

/-- Every operation runs an edit by steps from the store as it was, to a record whose journal
holds the operation's changes; the tree after the operation is the record's, or the record's
taken back. -/
theorem exists_outcome (a : Action) (sv : Service) :
    ∃ x, Txn.Steps (Txn.start sv.store) x ∧ a.changes sv = x.batch.journal ∧
      ((a.step sv).1.store.tree = x.store.tree ∨ (a.step sv).1.store.tree = x.rollback.tree) := by
  cases a with
  | add h p d m =>
    exact ⟨_, Edit.steps_outcome Edit.stepwise_create _, rfl,
      .inl (congrArg Store.tree (Service.store_single _ _))⟩
  | update h p d =>
    exact ⟨_, Edit.steps_outcome Edit.stepwise_setData _, rfl,
      .inl (congrArg Store.tree (Service.store_single _ _))⟩
  | delete h p =>
    exact ⟨_, Edit.steps_outcome Edit.stepwise_delete _, rfl,
      .inl (congrArg Store.tree (Service.store_single _ _))⟩
  | get h p w =>
    refine ⟨Txn.start sv.store, .refl, rfl, .inl ?_⟩
    simp only [step]
    cases hg : h.get sv p w with
    | error e => rfl
    | ok r =>
      obtain ⟨id, m, -, -, rfl⟩ := (Handle.get_eq_ok h).1 hg
      exact Store.tree_arm _ _ _ _
  | children h p w =>
    refine ⟨Txn.start sv.store, .refl, rfl, .inl ?_⟩
    simp only [step]
    cases hg : h.children sv p w with
    | error e => rfl
    | ok r =>
      obtain ⟨id, m, -, -, rfl⟩ := (Handle.children_eq_ok h).1 hg
      exact Store.tree_arm _ _ _ _
  | multi h ops =>
    simp only [step, changes]
    unfold Handle.multi
    cases ops.mapM BatchOp.toWrite? with
    | none => exact ⟨Txn.start sv.store, .refl, rfl, .inl rfl⟩
    | some ws =>
      refine ⟨_, Edit.steps_outcome (Edit.stepwise_batch ws) _, rfl, ?_⟩
      simp only [Edit.outcome]
      cases (ws.mapM (Edit.apply h.root h.session)) (Txn.start sv.store) with
      | ok rs x => exact .inl rfl
      | error e x => exact .inr rfl
  | expire s =>
    simp only [step, changes]
    refine ⟨_, Edit.steps_outcome (Edit.stepwise_expire s) _, rfl, ?_⟩
    unfold Service.expire
    simp only [Edit.outcome]
    cases Edit.expire s (Txn.start sv.store) with
    | ok n x => exact .inl rfl
    | error e x => exact .inr rfl

/-- The numbers an operation handed out, oldest first: also those of creations that a
rollback took back. -/
def createdIds (a : Action) (sv : Service) : List Nat :=
  ((a.changes sv).filterMap Change.createdId?).reverse

/-- The numbers a run handed out, in order. -/
def createdAlong : List Action → Service → List Nat
  | [], _ => []
  | a :: acts, sv => a.createdIds sv ++ createdAlong acts (a.step sv).1

/-- An operation hands out the numbers from the next one on, one after the other, and the next
number after it is the one after those. -/
theorem createdIds_eq (a : Action) (sv : Service) :
    a.createdIds sv = List.range' sv.store.tree.nextId
        ((a.step sv).1.store.tree.nextId - sv.store.tree.nextId) ∧
      sv.store.tree.nextId ≤ (a.step sv).1.store.tree.nextId := by
  obtain ⟨x, hsteps, hchanges, htree⟩ := a.exists_outcome sv
  -- taking an edit back keeps the next number
  have hnext : (a.step sv).1.store.tree.nextId = x.store.tree.nextId := by
    rcases htree with htree | htree <;> rw [htree]
    simp [Txn.rollback]
  rw [createdIds, hchanges, hnext]
  exact hsteps.createdIds

/-- A run hands out the numbers from the next one on, one after the other. -/
theorem createdAlong_eq : ∀ (acts : List Action) (sv : Service),
    createdAlong acts sv = List.range' sv.store.tree.nextId
        ((run acts sv).store.tree.nextId - sv.store.tree.nextId) ∧
      sv.store.tree.nextId ≤ (run acts sv).store.tree.nextId
  | [], sv => by simp [createdAlong, run]
  | a :: acts, sv => by
    obtain ⟨hfirst, hle₁⟩ := a.createdIds_eq sv
    obtain ⟨hrest, hle₂⟩ := createdAlong_eq acts (a.step sv).1
    refine ⟨?_, Nat.le_trans hle₁ hle₂⟩
    -- the numbers of the first operation, then those of the rest
    have happend := List.range'_append_1 (s := sv.store.tree.nextId)
      (m := (a.step sv).1.store.tree.nextId - sv.store.tree.nextId)
      (n := (run acts (a.step sv).1).store.tree.nextId - (a.step sv).1.store.tree.nextId)
    rw [show sv.store.tree.nextId + ((a.step sv).1.store.tree.nextId - sv.store.tree.nextId) =
        (a.step sv).1.store.tree.nextId by omega,
      show (a.step sv).1.store.tree.nextId - sv.store.tree.nextId +
          ((run acts (a.step sv).1).store.tree.nextId - (a.step sv).1.store.tree.nextId) =
        (run acts (a.step sv).1).store.tree.nextId - sv.store.tree.nextId by omega] at happend
    rw [createdAlong, run, hfirst, hrest, happend]

end Action

/-! ## Handles on a node that is gone -/

namespace Tree

theorem resolve_of_missing {t : Tree} {start : Nat} (h : t.nodes[start]? = none)
    (names : List String) : t.resolve start names = .error (.missingNode start) := by
  simp [resolve, node, h, bind, Except.bind]

/-- Walking names down reads only the skeletons of nodes. -/
theorem SameSkeleton.descend_eq {t t' : Tree} (h : SameSkeleton t t') :
    ∀ {n n' : Node} {start : Nat} {names : List String}, n.skeleton = n'.skeleton →
      t.descend n start names = t'.descend n' start names
  | _, _, _, [], _ => rfl
  | n, n', _, name :: rest, hn => by
    obtain ⟨hpath, -, -, hchildren⟩ := Node.skeleton_eq_iff.1 hn
    simp only [descend, hpath, hchildren]
    cases n'.children[name]? with
    | none => rfl
    | some c =>
      simp only [node]
      have hslot := h c
      cases hc : t.nodes[c]? with
      | none =>
        rw [hc] at hslot
        cases hc' : t'.nodes[c]? with
        | none => rfl
        | some _ =>
          rw [hc'] at hslot
          cases hslot
      | some m =>
        rw [hc] at hslot
        cases hc' : t'.nodes[c]? with
        | none =>
          rw [hc'] at hslot
          cases hslot
        | some m' =>
          rw [hc'] at hslot
          exact descend_eq h (Option.some.inj hslot)

/-- Resolving reads only the skeletons of nodes. -/
theorem SameSkeleton.resolve_eq {t t' : Tree} (h : SameSkeleton t t') (start : Nat)
    (names : List String) : t.resolve start names = t'.resolve start names := by
  have hslot := h start
  cases hs : t.nodes[start]? with
  | none =>
    rw [hs] at hslot
    cases hs' : t'.nodes[start]? with
    | none => rw [resolve_of_missing hs, resolve_of_missing hs']
    | some _ =>
      rw [hs'] at hslot
      cases hslot
  | some n =>
    rw [hs] at hslot
    cases hs' : t'.nodes[start]? with
    | none =>
      rw [hs'] at hslot
      cases hslot
    | some n' =>
      rw [hs'] at hslot
      rw [resolve_of_get hs, resolve_of_get hs']
      exact h.descend_eq (Option.some.inj hslot)

end Tree

namespace Store

theorem resolve_of_missing {s : Store} {root : Nat} (h : s.tree.nodes[root]? = none)
    {p : String} {names : List String} (hp : Path.segments p = .ok names) :
    s.resolve root p = .error (.missingNode root) := by
  simp [resolve, hp, Except.mapError, bind, Except.bind, Tree.resolve_of_missing h]

/-- No path leads anywhere from a node that is gone. -/
theorem resolve_toBool_of_missing {s : Store} {root : Nat} (h : s.tree.nodes[root]? = none)
    (p : String) : (s.resolve root p).toBool = false := by
  cases hp : Path.segments p with
  | error e => simp [resolve, hp, Except.mapError, bind, Except.bind, Except.toBool]
  | ok names => simp [resolve_of_missing h hp, Except.toBool]

end Store

theorem Path.splitParent_of_segments {p : String} {names : List String}
    (hp : Path.segments p = .ok names) (hroot : p ≠ "/") :
    ∃ parents name, Path.splitParent p = .ok (parents, name) := by
  have hne : names ≠ [] := by
    rintro rfl
    exact hroot (Path.segments_eq_nil.1 hp)
  obtain ⟨parents, name, rfl⟩ := (List.eq_nil_or_concat names).resolve_left hne
  exact ⟨parents, name, Path.splitParent_eq_ok.2 (by simpa using hp)⟩

namespace Edit

variable {root : Nat} {x : Txn} {path : String} {data : Option (List UInt8)}

theorem create_of_missing (hroot : x.store.tree.nodes[root]? = none) {names : List String}
    {name : String} (hsplit : Path.splitParent path = .ok (names, name)) (mode : CreateMode)
    (session : Int) : create root path data mode session x = .error (.missingNode root) x := by
  simp [create, hsplit, Tree.resolve_of_missing hroot, bind, EStateM.bind, ofExcept_ok_apply,
    ofExcept_error_apply, store, Except.mapError]

theorem setData_of_missing (hroot : x.store.tree.nodes[root]? = none) {names : List String}
    (hp : Path.segments path = .ok names) : setData root path data x = .error (.missingNode root) x := by
  simp [setData, Store.resolve_of_missing hroot hp, bind, EStateM.bind, ofExcept_error_apply,
    store]

theorem delete_of_missing (hroot : x.store.tree.nodes[root]? = none) {names : List String}
    {name : String} (hsplit : Path.splitParent path = .ok (names, name)) :
    delete root path x = .error (.missingNode root) x := by
  simp [delete, hsplit, Tree.resolve_of_missing hroot, bind, EStateM.bind, ofExcept_ok_apply,
    ofExcept_error_apply, store, Except.mapError]

/-- Every write on a path with names fails when the handle's root is gone, and changes
nothing. -/
theorem apply_of_missing (hroot : x.store.tree.nodes[root]? = none) (session : Int) {w : Write}
    (hw : w.Accepted) : apply root session w x = .error (.missingNode root) x := by
  cases w with
  | create p d m =>
    obtain ⟨⟨names, hp⟩, hslash⟩ := hw
    obtain ⟨parents, name, hsplit⟩ := Path.splitParent_of_segments hp hslash
    exact map_eq_error.2 (create_of_missing hroot hsplit m session)
  | setData p d =>
    obtain ⟨names, hp⟩ := hw
    exact map_eq_error.2 (setData_of_missing hroot hp)
  | delete p =>
    obtain ⟨⟨names, hp⟩, hslash⟩ := hw
    obtain ⟨parents, name, hsplit⟩ := Path.splitParent_of_segments hp hslash
    exact map_eq_error.2 (delete_of_missing hroot hsplit)

end Edit

/-- What a handle whose root node is gone answers: every operation on a path with names fails
with the root's number as the missing node (a creation and a deletion on a path other than
`/`, a batch without checks whose first write has such a path), and no path leads
anywhere. -/
structure Handle.Stale (h : Handle) (sv : Service) : Prop where
  update : ∀ {p names}, Path.segments p = .ok names → ∀ d,
    (h.update sv p d).result = .error (.missingNode h.root)
  get : ∀ {p names}, Path.segments p = .ok names → ∀ w,
    h.get sv p w = .error (.missingNode h.root)
  children : ∀ {p names}, Path.segments p = .ok names → ∀ w,
    h.children sv p w = .error (.missingNode h.root)
  add : ∀ {p names}, Path.segments p = .ok names → p ≠ "/" → ∀ d m,
    (h.add sv p d m).result = .error (.missingNode h.root)
  delete : ∀ {p names}, Path.segments p = .ok names → p ≠ "/" →
    (h.delete sv p).result = .error (.missingNode h.root)
  multi : ∀ {op : BatchOp} {ops : List BatchOp}, (∀ p v, BatchOp.check p v ∉ op :: ops) →
    op.Accepted → (h.multi sv (op :: ops)).result = .error (.missingNode h.root)
  has : ∀ p, h.has sv p = false

namespace Handle

variable {h : Handle} {sv : Service}

theorem single_result_of_missing {α : Type} {e : Edit α} {err : DirError}
    (he : e (Txn.start sv.store) = .error err (Txn.start sv.store)) :
    (sv.single e).result = .error err := by
  simp [Service.single, he]

/-- A handle whose root node is gone is stale. -/
theorem stale_of_missing (hroot : sv.store.tree.nodes[h.root]? = none) : h.Stale sv where
  update := fun hp _ => single_result_of_missing (Edit.setData_of_missing hroot hp)
  get := fun hp w => by
    simp [Handle.get, Store.getData, Store.resolve_of_missing hroot hp, bind, Except.bind,
      Except.map]
  children := fun hp w => by
    simp [Handle.children, Store.getChildren, Store.resolve_of_missing hroot hp, bind,
      Except.bind, Except.map]
  add := by
    intro p names hp hslash d m
    obtain ⟨parents, name, hsplit⟩ := Path.splitParent_of_segments hp hslash
    exact single_result_of_missing (Edit.create_of_missing hroot hsplit m h.session)
  delete := by
    intro p names hp hslash
    obtain ⟨parents, name, hsplit⟩ := Path.splitParent_of_segments hp hslash
    exact single_result_of_missing (Edit.delete_of_missing hroot hsplit)
  multi := by
    intro op ops hcheck hacc
    obtain ⟨ws, hws⟩ : ∃ ws, (op :: ops).mapM BatchOp.toWrite? = some ws := by
      cases hm : (op :: ops).mapM BatchOp.toWrite? with
      | none =>
        obtain ⟨p, v, hc⟩ := BatchOp.exists_check_of_mapM_toWrite?_eq_none hm
        exact absurd hc (hcheck p v)
      | some ws => exact ⟨ws, rfl⟩
    obtain hops := BatchOp.mapM_toWrite?_eq_some.1 hws
    cases ws with
    | nil => cases hops
    | cons w ws =>
      rw [List.map_cons, List.cons.injEq] at hops
      obtain ⟨rfl, rfl⟩ := hops
      have hw : w.Accepted := hacc w (by simp [Write.toWrite?_toOp])
      rw [← List.map_cons, Handle.multi_map_toOp, List.mapM_cons,
        Edit.bind_eq_error.2 (.inl (Edit.apply_of_missing hroot h.session hw))]
  has := fun p => Store.resolve_toBool_of_missing hroot p

end Handle

/-- Node numbers are never used twice, and handles never stand for another node.

The creations of every run take the numbers from the next one on, one after the other, also
those that a rollback takes back; every number below the next one was handed out by the run
that led here. A node that an operation removed never comes back, so a handle on it stays
stale, whatever is created later, also at the same path. A batch that is taken back, even one
that removed a handle's root on the way, keeps every node: the handle reads every path as
before. -/
theorem ids_never_reused {sv : Service} (hsv : sv.Reachable) :
    (∀ acts, Action.createdAlong acts sv = List.range' sv.store.tree.nextId
        ((Action.run acts sv).store.tree.nextId - sv.store.tree.nextId)) ∧
    (∃ acts, Action.run acts Service.empty = sv ∧
      Action.createdAlong acts Service.empty = List.range' 1 (sv.store.tree.nextId - 1)) ∧
    (∀ (a : Action) (q : Nat) (n : Node), sv.store.tree.nodes[q]? = some n →
      (a.step sv).1.store.tree.nodes[q]? = none →
      ∀ acts, (Action.run acts (a.step sv).1).store.tree.nodes[q]? = none) ∧
    (∀ (a : Action) (h : Handle) (rn : Node), sv.store.tree.nodes[h.root]? = some rn →
      (a.step sv).1.store.tree.nodes[h.root]? = none →
      ∀ acts, h.Stale (Action.run acts (a.step sv).1)) ∧
    (∀ (h h' : Handle) (ops : List BatchOp) (e : DirError) (rn : Node),
      sv.store.tree.nodes[h.root]? = some rn → (h'.multi sv ops).result = .error e →
      (∃ rn', (h'.multi sv ops).service.store.tree.nodes[h.root]? = some rn') ∧
      ∀ p, (h'.multi sv ops).service.store.resolve h.root p = sv.store.resolve h.root p) := by
  have hwf := hsv.wf
  -- a node an operation removed had its number handed out, so it stays free
  have hgone : ∀ (a : Action) (q : Nat) (n : Node), sv.store.tree.nodes[q]? = some n →
      (a.step sv).1.store.tree.nodes[q]? = none →
      ∀ acts, (Action.run acts (a.step sv).1).store.tree.nodes[q]? = none := by
    intro a q n hn hq acts
    have hlt := Nat.lt_of_lt_of_le (hwf.tree.fresh hn) (a.later hwf).nextId
    exact (Action.later_run acts (a.wf_step hwf)).gone hlt hq
  refine ⟨fun acts => (Action.createdAlong_eq acts sv).1, ?_, hgone, ?_, ?_⟩
  · obtain ⟨acts, rfl⟩ := hsv.exists_run
    exact ⟨acts, rfl, (Action.createdAlong_eq acts Service.empty).1⟩
  · intro a h rn hr hgoneRoot acts
    exact Handle.stale_of_missing (hgone a h.root rn hr hgoneRoot acts)
  · intro h h' ops e rn hr hfail
    have hfails : (Action.multi h' ops).succeeds sv = false := by
      simp [Action.succeeds, hfail, Except.toBool]
    have hadv : sv.store.tree.Advanced (h'.multi sv ops).service.store.tree :=
      (Action.multi h' ops).advanced_of_fails hwf hfails
    obtain ⟨rn', hrn', -⟩ := hadv.get hr
    -- the batch taken back has the same skeleton, and resolving reads nothing else
    have hres : ∀ start names, (h'.multi sv ops).service.store.tree.resolve start names =
        sv.store.tree.resolve start names :=
      fun start names => (hadv.sameSkeleton.resolve_eq start names).symm
    exact ⟨⟨rn', hrn'⟩, fun p => by simp only [Store.resolve, hres]⟩

/-- From the empty service, the creations of every run take the numbers 1, 2, 3, … in
order. -/
theorem ids_never_reused_from_empty :
    Service.empty.Reachable ∧ ∀ acts, Action.createdAlong acts Service.empty =
      List.range' 1 ((Action.run acts Service.empty).store.tree.nextId - 1) :=
  ⟨.empty, (ids_never_reused .empty).1⟩

end CoordStore
