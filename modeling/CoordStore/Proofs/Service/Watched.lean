import CoordStore.Proofs.Service.Notify

/-!
# What a watcher that was not called can rely on

A watcher waits for one change of one node: a new payload, or a child added or removed. An
operation that does not call it did not make that change: the node, if it is still there,
shows the watcher what it showed before, and the watcher still waits on it
(`Action.keeps_watched`). And no operation puts a watcher into a set but a read that names it
(`Action.waiting_step`). A monitor that reads a node again each time its watcher is called
relies on both to stay up to date between calls.

The record of an edit carries the argument: reverting its journal leads back to the store the
edit started from, and reverting a change that fires no watcher of a kind on a node, and does
not remove the node, leaves what those watchers see of it. So what they see changed only if a
change fired them, and then the operation delivered them.
-/

namespace CoordStore

namespace Node

/-- Two versions of a node that its watchers of a kind cannot tell apart: the same payload for
data watchers, the same children for children watchers. -/
def SameFor : WatchKind → Node → Node → Prop
  | .data, n, n' => n.data = n'.data
  | .children, n, n' => n.children = n'.children

namespace SameFor

variable {k : WatchKind} {n n' n'' : Node}

theorem refl (k : WatchKind) (n : Node) : SameFor k n n := by
  cases k <;> rfl

theorem symm (h : SameFor k n n') : SameFor k n' n := by
  cases k <;> simp only [SameFor] at h ⊢ <;> exact h.symm

theorem trans (h : SameFor k n n') (h' : SameFor k n' n'') : SameFor k n n'' := by
  cases k <;> simp only [SameFor] at h h' ⊢ <;> exact h.trans h'

theorem of_shape (h : n.shape = n'.shape) (k : WatchKind) : SameFor k n n' := by
  obtain ⟨-, hdata, -, -, hchildren⟩ := shape_eq_iff.1 h
  cases k
  · exact hdata
  · exact hchildren

end SameFor

end Node

/-! ## Reverting what fired nobody -/

namespace Tree

variable {r : Nat} {k : WatchKind}

/-- Reverting a change that fires no watcher of a kind on `r` and does not remove `r` leaves
what they see of `r`, if `r` is there after it. -/
theorem sameFor_of_revert {t : Tree} {c : Change} {m : Node}
    (hm : (t.revert c).nodes[r]? = some m) (hf : c.fires r k = false)
    (hrm : c.removes r = false) : ∃ m', t.nodes[r]? = some m' ∧ Node.SameFor k m' m := by
  cases c with
  | created p name id =>
    rw [getElem?_revert_created] at hm
    by_cases hid : id = r
    · rw [if_pos hid] at hm
      cases hm
    rw [if_neg hid] at hm
    by_cases hp : p = r
    · subst hp
      rw [if_pos rfl] at hm
      cases k
      · cases hpn : t.nodes[p]? with
        | none => simp [hpn] at hm
        | some pn =>
          simp only [hpn, Option.map_some, Option.some.injEq] at hm
          exact ⟨pn, rfl, hm ▸ rfl⟩
      · simp [Change.fires] at hf
    · rw [if_neg hp] at hm
      exact ⟨m, hm, .refl k m⟩
  | dataChanged id previous =>
    rw [getElem?_revert_dataChanged] at hm
    by_cases hid : id = r
    · subst hid
      rw [if_pos rfl] at hm
      cases k
      · simp [Change.fires] at hf
      · cases hn : t.nodes[id]? with
        | none => simp [hn] at hm
        | some n =>
          simp only [hn, Option.map_some, Option.some.injEq] at hm
          exact ⟨n, rfl, hm ▸ rfl⟩
    · rw [if_neg hid] at hm
      exact ⟨m, hm, .refl k m⟩
  | deleted p name id node =>
    rw [getElem?_revert_deleted] at hm
    by_cases hid : id = r
    · subst hid
      simp [Change.removes] at hrm
    rw [if_neg hid] at hm
    by_cases hp : p = r
    · subst hp
      rw [if_pos rfl] at hm
      cases k
      · cases hpn : t.nodes[p]? with
        | none => simp [hpn] at hm
        | some pn =>
          simp only [hpn, Option.map_some, Option.some.injEq] at hm
          exact ⟨pn, rfl, hm ▸ rfl⟩
      · simp [Change.fires] at hf
    · rw [if_neg hp] at hm
      exact ⟨m, hm, .refl k m⟩

/-- Reverting a journal none of whose changes fires the watchers of a kind on `r` or removes
`r` leaves what they see of `r`. -/
theorem sameFor_of_foldl_revert : ∀ (J : List Change) {t : Tree} {m : Node},
    (J.foldl revert t).nodes[r]? = some m → firedBy J r k = false → removedBy J r = false →
    ∃ m', t.nodes[r]? = some m' ∧ Node.SameFor k m' m
  | [], _, m, hm, _, _ => ⟨m, hm, .refl k m⟩
  | c :: J, _, _, hm, hf, hrm => by
    simp only [firedBy_cons, removedBy_cons, Bool.or_eq_false_iff] at hf hrm
    obtain ⟨m'', hm'', hs''⟩ := sameFor_of_foldl_revert J hm hf.2 hrm.2
    obtain ⟨m', hm', hs'⟩ := sameFor_of_revert hm'' hf.1 hrm.1
    exact ⟨m', hm', hs'.trans hs''⟩

end Tree

/-- A node still there after an edit whose journal fired no watcher of a kind on it shows them
what it showed when the edit started. -/
theorem Txn.Tracks.sameFor {S : Store} {x : Txn} (h : x.Tracks S) {r : Nat} {k : WatchKind}
    {n n' : Node} (hn : S.tree.nodes[r]? = some n) (hn' : x.store.tree.nodes[r]? = some n')
    (hf : firedBy x.batch.journal r k = false) : Node.SameFor k n n' := by
  -- a node the journal removed would be gone
  have hrm : removedBy x.batch.journal r = false := by
    cases hr : removedBy x.batch.journal r
    · rfl
    · simp [(h.removed r hr).1] at hn'
  obtain ⟨m, hm, hshape, -⟩ := h.undo.get hn
  obtain ⟨m', hm', hs⟩ := Tree.sameFor_of_foldl_revert x.batch.journal hm hf hrm
  rw [hn'] at hm'
  cases hm'
  exact (Node.SameFor.of_shape hshape k).trans hs.symm

/-! ## Operations that failed -/

namespace Service

variable {sv : Service}

/-- A single operation that failed moved counters on at most. -/
theorem advanced_single_of_error {α : Type} {e : Edit α} (he : e.Stepwise) (hc : e.Clean)
    (hwf : sv.store.WF) (hfail : (sv.single e).result.toBool = false) :
    Tree.Advanced sv.store.tree (sv.single e).service.store.tree := by
  unfold single at hfail ⊢
  cases hr : e (Txn.start sv.store) with
  | ok a x => simp [hr, Except.toBool] at hfail
  | error err x =>
    obtain ⟨ht, -⟩ := tracks_of_stepwise he hwf (.inr ⟨err, hr⟩)
    -- it recorded nothing, so its journal reverts to its own tree
    obtain ⟨hb, -⟩ := hc _ err x hr
    have hundo := ht.undo
    rw [hb] at hundo
    exact hundo

end Service

namespace Store

theorem tree_arm (s : Store) (id : Nat) (k : WatchKind) (v : Option Nat) :
    (s.arm id k v).tree = s.tree := by
  cases v <;> rfl

/-- Reading a path looks at the tree only. -/
theorem resolve_congr_tree {s s' : Store} (h : s.tree = s'.tree) {root : Nat} {path : String} :
    s.resolve root path = s'.resolve root path := by
  unfold resolve
  rw [h]

/-- Registering a watcher keeps every watcher where it waits, and adds only that one. -/
theorem waiting_arm (s : Store) (id : Nat) (k : WatchKind) (v : Option Nat) {p : Nat}
    {k' : WatchKind} {w : Nat} :
    w ∈ (s.arm id k v).watches.waiting p k' ↔ w ∈ s.watches.waiting p k' ∨
      (v = some w ∧ id = p ∧ k = k') := by
  cases v with
  | none => simp [arm]
  | some v =>
    simp only [arm, Registry.waiting_register]
    split_ifs with hslot
    · obtain ⟨rfl, rfl, hnot⟩ := hslot
      simp only [List.mem_append, List.mem_singleton, Option.some.injEq, and_true]
      constructor
      · rintro (h | rfl)
        · exact .inl h
        · exact .inr rfl
      · rintro (h | rfl)
        · exact .inl h
        · exact .inr rfl
    · constructor
      · exact .inl
      · rintro (h | ⟨hv, rfl, rfl⟩)
        · exact h
        · obtain rfl := Option.some.inj hv
          by_contra hnot
          exact hslot ⟨rfl, rfl, hnot⟩

end Store

namespace Action

variable {sv : Service}

/-- An operation that failed moved counters on at most: a single operation stopped before it
changed the tree, and a batch or an expiry was taken back. -/
theorem advanced_of_fails (a : Action) (hwf : sv.store.WF) (hfail : a.succeeds sv = false) :
    Tree.Advanced sv.store.tree (a.step sv).1.store.tree := by
  cases a with
  | add h p d m =>
    exact Service.advanced_single_of_error Edit.stepwise_create (Edit.clean_create m h.session)
      hwf hfail
  | update h p d =>
    exact Service.advanced_single_of_error Edit.stepwise_setData Edit.clean_setData hwf hfail
  | delete h p =>
    exact Service.advanced_single_of_error Edit.stepwise_delete Edit.clean_delete hwf hfail
  | get h p w =>
    simp only [succeeds] at hfail
    simp only [step]
    cases hg : h.get sv p w with
    | ok r => simp [hg, Except.toBool] at hfail
    | error e => exact .refl _
  | children h p w =>
    simp only [succeeds] at hfail
    simp only [step]
    cases hg : h.children sv p w with
    | ok r => simp [hg, Except.toBool] at hfail
    | error e => exact .refl _
  | multi h ops =>
    simp only [succeeds] at hfail
    simp only [step]
    unfold Handle.multi at hfail ⊢
    cases hm : ops.mapM BatchOp.toWrite? with
    | none => exact .refl _
    | some ws =>
      simp only [hm] at hfail ⊢
      cases hr : (ws.mapM (Edit.apply h.root h.session)) (Txn.start sv.store) with
      | ok rs x => simp [hr, Except.toBool] at hfail
      | error e x =>
        obtain ⟨ht, -⟩ := Service.tracks_of_stepwise (Edit.stepwise_batch ws) hwf (.inr ⟨e, hr⟩)
        exact ht.rollback_tree
  | expire s =>
    simp only [succeeds] at hfail
    simp only [step]
    unfold Service.expire at hfail ⊢
    cases hr : Edit.expire s (Txn.start sv.store) with
    | ok n x => simp [hr, Except.toBool] at hfail
    | error e x =>
      obtain ⟨ht, -⟩ := Service.tracks_of_stepwise (Edit.stepwise_expire s) hwf (.inr ⟨e, hr⟩)
      exact ht.rollback_tree

/-- The watcher a read registers, if it names one. -/
def watcher? : Action → Option Nat
  | get _ _ w => w
  | children _ _ w => w
  | _ => none

/-- A read that went through registered its watcher on the node it found, and changed nothing
else. -/
theorem read_of_succeeds {a : Action} (hw : a.isWrite = false) (hok : a.succeeds sv = true) :
    ∃ id k, (a.step sv).2 = [] ∧
      (a.step sv).1.store = sv.store.arm id k a.watcher? := by
  cases a with
  | get h p v =>
    simp only [succeeds] at hok
    cases hg : h.get sv p v with
    | error e => simp [hg, Except.toBool] at hok
    | ok res =>
      obtain ⟨id, m, -, -, rfl⟩ := (Handle.get_eq_ok h).1 hg
      exact ⟨id, .data, by simp [step, hg], by simp [step, hg, watcher?]⟩
  | children h p v =>
    simp only [succeeds] at hok
    cases hg : h.children sv p v with
    | error e => simp [hg, Except.toBool] at hok
    | ok res =>
      obtain ⟨id, m, -, -, rfl⟩ := (Handle.children_eq_ok h).1 hg
      exact ⟨id, .children, by simp [step, hg], by simp [step, hg, watcher?]⟩
  | _ => cases hw

/-- An operation calls each watcher at most once. -/
theorem nodup_notify (a : Action) (hwf : sv.store.WF) : (a.step sv).2.Nodup := by
  cases hsucc : a.succeeds sv
  · rw [(a.of_fails hwf hsucc).1]
    exact List.nodup_nil
  · cases hwr : a.isWrite
    · obtain ⟨-, -, hn, -⟩ := read_of_succeeds hwr hsucc
      rw [hn]
      exact List.nodup_nil
    · obtain ⟨x, -, hn, -, -⟩ := write_of_succeeds hwf hwr hsucc
      rw [hn]
      exact Txn.Tracks.nodup_pending x

/-- A watcher waits after an operation only where it waited before, or where a read that names
it registered it. -/
theorem waiting_step (a : Action) (hwf : sv.store.WF) {w p : Nat} {k : WatchKind}
    (hw : w ∈ (a.step sv).1.store.watches.waiting p k) :
    w ∈ sv.store.watches.waiting p k ∨ a.watcher? = some w := by
  cases hsucc : a.succeeds sv
  · rw [(a.of_fails hwf hsucc).2] at hw
    exact .inl hw
  · cases hwr : a.isWrite
    · obtain ⟨id, k', -, hstore⟩ := read_of_succeeds hwr hsucc
      rw [hstore, Store.waiting_arm] at hw
      rcases hw with hw | ⟨hv, -⟩
      · exact .inl hw
      · exact .inr hv
    · obtain ⟨x, ht, -, hstore, -⟩ := write_of_succeeds hwf hwr hsucc
      rw [hstore, ht.waiting] at hw
      split_ifs at hw
      · cases hw
      · exact .inl hw

/-- Along a run in which no read names `w`, `w` waits only where it waited at the start. -/
theorem waiting_run (w : Nat) :
    ∀ (acts : List Action) {sv : Service}, sv.store.WF → (∀ a ∈ acts, a.watcher? ≠ some w) →
      ∀ {p : Nat} {k : WatchKind}, w ∈ (run acts sv).store.watches.waiting p k →
        w ∈ sv.store.watches.waiting p k
  | [], _, _, _, _, _, h => h
  | a :: acts, _, hwf, hacts, _, _, h => by
    have hrest := waiting_run w acts (a.wf_step hwf) (fun b hb => hacts b (List.mem_cons_of_mem a hb)) h
    exact (a.waiting_step hwf hrest).resolve_right (hacts a List.mem_cons_self)

/-- A watcher waiting on a node that an operation did not call still waits there, and the
node, if it is still there, shows it what it showed before. -/
theorem keeps_watched (a : Action) (hwf : sv.store.WF) {w r : Nat} {k : WatchKind}
    {n n' : Node} (hw : w ∈ sv.store.watches.waiting r k) (hcall : w ∉ (a.step sv).2)
    (hn : sv.store.tree.nodes[r]? = some n)
    (hn' : (a.step sv).1.store.tree.nodes[r]? = some n') :
    w ∈ (a.step sv).1.store.watches.waiting r k ∧ Node.SameFor k n n' := by
  cases hsucc : a.succeeds sv
  · -- a failed operation: the registry as it was, counters moved on at most
    obtain ⟨m, hm, hshape, -⟩ := (a.advanced_of_fails hwf hsucc).get hn
    rw [hn'] at hm
    cases hm
    exact ⟨(a.of_fails hwf hsucc).2 ▸ hw, .of_shape hshape k⟩
  · cases hwr : a.isWrite
    · -- a read: the same tree, and a registry that only gained a watcher
      obtain ⟨id, k', -, hstore⟩ := read_of_succeeds hwr hsucc
      rw [hstore, Store.tree_arm, hn] at hn'
      cases hn'
      rw [hstore, Store.waiting_arm]
      exact ⟨.inl hw, .refl k n⟩
    · -- a write that did not deliver `w` fired no set of `w`, and consumed none of a node
      -- that is still there
      obtain ⟨x, ht, hnotify, hstore, -⟩ := write_of_succeeds hwf hwr hsucc
      rw [hstore] at hn' ⊢
      rw [hnotify] at hcall
      have hf : firedBy x.batch.journal r k = false := by
        cases hfr : firedBy x.batch.journal r k
        · rfl
        · exact absurd (ht.mem_pending.2 ⟨r, k, hfr, hw⟩) hcall
      have hcons : consumedBy x.batch.journal r k = false := by
        cases hc : consumedBy x.batch.journal r k
        · rfl
        · obtain ⟨-, hrm⟩ := removedBy_of_consumedBy hc hf
          simp [(ht.removed r hrm).1] at hn'
      refine ⟨?_, ht.sameFor hn hn' hf⟩
      rw [ht.waiting, if_neg (by simp [hcons])]
      exact hw

/-- The watchers an operation calls: those of a set one of its changes fired, for an operation
that went through. -/
theorem mem_notify_iff (a : Action) (hwf : sv.store.WF) {w : Nat} :
    w ∈ (a.step sv).2 ↔ a.succeeds sv = true ∧
      ∃ r k, firedBy (a.changes sv) r k = true ∧ w ∈ sv.store.watches.waiting r k := by
  cases hsucc : a.succeeds sv
  · simp [(a.of_fails hwf hsucc).1]
  · cases hwr : a.isWrite
    · -- a read calls nobody and changes nothing
      obtain ⟨-, -, hn, -⟩ := read_of_succeeds hwr hsucc
      have hch : a.changes sv = [] := by cases a <;> first | rfl | cases hwr
      simp [hn, hch]
    · obtain ⟨x, ht, hn, -, hch⟩ := write_of_succeeds hwf hwr hsucc
      rw [hn, hch, ht.mem_pending]
      simp

/-- A data watcher that an operation did not call still waits: a change that takes the data
set of a node fires it. -/
theorem keeps_waiting_data (a : Action) (hwf : sv.store.WF) {w r : Nat}
    (hw : w ∈ sv.store.watches.waiting r .data) (hcall : w ∉ (a.step sv).2) :
    w ∈ (a.step sv).1.store.watches.waiting r .data := by
  cases hsucc : a.succeeds sv
  · rw [(a.of_fails hwf hsucc).2]
    exact hw
  · cases hwr : a.isWrite
    · obtain ⟨id, k, -, hstore⟩ := read_of_succeeds hwr hsucc
      rw [hstore, Store.waiting_arm]
      exact .inl hw
    · obtain ⟨x, ht, hnotify, hstore, -⟩ := write_of_succeeds hwf hwr hsucc
      rw [hnotify] at hcall
      have hf : firedBy x.batch.journal r .data = false := by
        cases hfr : firedBy x.batch.journal r .data
        · rfl
        · exact absurd (ht.mem_pending.2 ⟨r, .data, hfr, hw⟩) hcall
      have hcons : consumedBy x.batch.journal r .data = false := by
        simpa [consumedBy, firedBy, Change.takes_data] using hf
      rw [hstore, ht.waiting, if_neg (by simp [hcons])]
      exact hw

/-- A watcher that waited in one set only, and that an operation called, waits nowhere after
it unless the operation is a read naming it: the call emptied that set. -/
theorem idle_of_called (a : Action) (hwf : sv.store.WF) {w r : Nat} {k : WatchKind}
    (hone : ∀ r' k', w ∈ sv.store.watches.waiting r' k' → r' = r ∧ k' = k)
    (hcall : w ∈ (a.step sv).2) (hread : a.watcher? ≠ some w) (r' : Nat) (k' : WatchKind) :
    w ∉ (a.step sv).1.store.watches.waiting r' k' := by
  intro hw
  obtain ⟨rfl, rfl⟩ := hone r' k' ((a.waiting_step hwf hw).resolve_right hread)
  obtain ⟨hsucc, r'', k'', hfired, hwas⟩ := (a.mem_notify_iff hwf).1 hcall
  obtain ⟨rfl, rfl⟩ := hone r'' k'' hwas
  cases hwr : a.isWrite
  · -- a read changed nothing, so it fired nothing
    have hch : a.changes sv = [] := by cases a <;> first | rfl | cases hwr
    simp [hch] at hfired
  · obtain ⟨x, ht, -, hstore, hch⟩ := write_of_succeeds hwf hwr hsucc
    rw [hch] at hfired
    rw [hstore, ht.waiting, if_pos (consumedBy_of_firedBy hfired)] at hw
    exact List.not_mem_nil hw

end Action

end CoordStore
