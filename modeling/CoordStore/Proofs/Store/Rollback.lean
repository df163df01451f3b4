import CoordStore.Proofs.Store.Invariant

/-!
# What an edit did, and taking it back

An edit started on a store `S` keeps, in its record, enough to know at every step what it did
(`Txn.Tracks`): reverting its journal leads back to `S`'s tree with at most some counters
moved on; a watcher set is out of the registry exactly when some change of the journal
consumed it, and then it is in the record once, as it was in `S`, marked to fire exactly when
some change fired it; and the nodes it removed are gone for good.

From that, taking the edit back gives `S`'s registry again and a tree that differs from `S`'s
only in counters (`Txn.Tracks.rollback_watches`, `Txn.Tracks.rollback_tree`), and keeping it
delivers each watcher once, exactly the watchers of the sets that fired
(`Txn.Tracks.mem_pending`).
-/

namespace CoordStore

/-! ## What a journal consumed, fired and removed -/

/-- Whether some change of the journal took the watchers of a node for a kind. -/
def consumedBy (journal : List Change) (n : Nat) (k : WatchKind) : Bool :=
  journal.any (·.takes n k)

/-- Whether some change of the journal fired the watchers of a node for a kind. -/
def firedBy (journal : List Change) (n : Nat) (k : WatchKind) : Bool :=
  journal.any (·.fires n k)

/-- Whether some change of the journal removed a node. -/
def removedBy (journal : List Change) (n : Nat) : Bool :=
  journal.any (·.removes n)

section Journal

variable {journal : List Change} {n : Nat} {k : WatchKind}

@[simp] theorem consumedBy_nil : consumedBy [] n k = false := rfl
@[simp] theorem firedBy_nil : firedBy [] n k = false := rfl
@[simp] theorem removedBy_nil : removedBy [] n = false := rfl

@[simp] theorem consumedBy_cons (c : Change) :
    consumedBy (c :: journal) n k = (c.takes n k || consumedBy journal n k) := rfl

@[simp] theorem firedBy_cons (c : Change) :
    firedBy (c :: journal) n k = (c.fires n k || firedBy journal n k) := rfl

@[simp] theorem removedBy_cons (c : Change) :
    removedBy (c :: journal) n = (c.removes n || removedBy journal n) := rfl

theorem consumedBy_of_firedBy (h : firedBy journal n k = true) : consumedBy journal n k = true := by
  obtain ⟨c, hc, hf⟩ := List.any_eq_true.1 h
  refine List.any_eq_true.2 ⟨c, hc, ?_⟩
  cases k
  · rwa [Change.takes_data]
  · simp [Change.takes_children, hf]

/-- A set consumed without firing is the children set of a removed node. -/
theorem removedBy_of_consumedBy (h : consumedBy journal n k = true) (hf : firedBy journal n k = false) :
    k = .children ∧ removedBy journal n = true := by
  obtain ⟨c, hc, ht⟩ := List.any_eq_true.1 h
  have hcf : c.fires n k = false := by
    cases hcf' : c.fires n k
    · rfl
    · have hf' : firedBy journal n k = true := List.any_eq_true.2 ⟨c, hc, hcf'⟩
      rw [hf] at hf'
      cases hf'
  cases k
  · rw [Change.takes_data] at ht
    exact absurd ht (by simp [hcf])
  · rw [Change.takes_children, hcf, Bool.false_or] at ht
    exact ⟨rfl, List.any_eq_true.2 ⟨c, hc, ht⟩⟩

end Journal

namespace Taken

/-- Whether a taken set is the one of a node and kind. -/
def isAt (tk : Taken) (n : Nat) (k : WatchKind) : Bool :=
  tk.node == n && tk.kind == k

theorem isAt_self (tk : Taken) : tk.isAt tk.node tk.kind = true := by
  simp [isAt]

end Taken

namespace Txn

/-- Taking a set adds, among the sets of one node and kind, the one taken if it is that one
and not empty. -/
theorem taken_take_isAt (x : Txn) (node : Nat) (kind : WatchKind) (fire : Bool) (n : Nat)
    (k : WatchKind) :
    (x.take node kind fire).batch.taken.filter (·.isAt n k) =
      x.batch.taken.filter (·.isAt n k) ++
        if node = n ∧ kind = k ∧ x.store.watches.waiting n k ≠ [] then
          [⟨n, k, x.store.watches.waiting n k, fire⟩]
        else [] := by
  rw [taken_take, List.filter_append]
  congr 1
  by_cases hs : node = n ∧ kind = k
  · obtain ⟨rfl, rfl⟩ := hs
    cases hw : x.store.watches.waiting node kind <;> simp [Taken.isAt]
  · have hs' : ¬ (node == n && kind == k) = true := by simpa using hs
    split_ifs <;> simp_all [Taken.isAt]

/-- Recording a change adds, among the sets of one node and kind, the one it takes there if
that one is not empty. A deletion takes three sets, all different since a node is not its own
parent. -/
theorem taken_record_isAt (x : Txn) {c : Change}
    (hc : ∀ p name id node, c = .deleted p name id node → p ≠ id) (n : Nat) (k : WatchKind) :
    (x.record c).batch.taken.filter (·.isAt n k) =
      x.batch.taken.filter (·.isAt n k) ++
        if c.takes n k ∧ x.store.watches.waiting n k ≠ [] then
          [⟨n, k, x.store.watches.waiting n k, c.fires n k⟩]
        else [] := by
  cases c with
  | created p =>
    simp only [record, taken_take_isAt]
    by_cases hn : p = n
    · subst hn
      cases k <;> simp [Change.takes, Change.fires]
    · cases k <;> simp [hn, Ne.symm hn, Change.takes]
  | dataChanged id =>
    simp only [record, taken_take_isAt]
    by_cases hn : id = n
    · subst hn
      cases k <;> simp [Change.takes, Change.fires]
    · cases k <;> simp [hn, Ne.symm hn, Change.takes]
  | deleted p name id node =>
    have hp := hc p name id node rfl
    simp only [record, taken_take_isAt, watches_take, Registry.waiting_take, List.append_assoc]
    by_cases hi : id = n
    · subst hi
      have hfire : (id == p) = false := beq_eq_false_iff_ne.2 (Ne.symm hp)
      cases k <;> simp [Change.takes, Change.fires, hp, hfire]
    · by_cases hpn : p = n
      · subst hpn
        cases k <;> simp [Change.takes, Change.fires, hi, Ne.symm hi]
      · cases k <;> simp [Change.takes, hi, hpn, Ne.symm hi, Ne.symm hpn]

end Txn

/-! ## The invariant of an edit in progress -/

/-- What an edit started on the store `S` has done when it reached `x`. -/
structure Txn.Tracks (S : Store) (x : Txn) : Prop where
  /-- Reverting the journal leads back to `S`'s tree, counters moved on at most. -/
  undo : Tree.Advanced S.tree (x.batch.journal.foldl Tree.revert x.store.tree)
  /-- Every creation gave out one number. -/
  nextId : x.store.tree.nextId =
    S.tree.nextId + (x.batch.journal.filter Change.isCreated).length
  /-- A set is out of the registry exactly when it was consumed. -/
  waiting : ∀ n k, x.store.watches.waiting n k =
    if consumedBy x.batch.journal n k then [] else S.watches.waiting n k
  /-- A consumed set that was not empty is recorded once, as it was, firing if it was fired. -/
  taken : ∀ n k, x.batch.taken.filter (·.isAt n k) =
    if consumedBy x.batch.journal n k ∧ S.watches.waiting n k ≠ [] then
      [⟨n, k, S.watches.waiting n k, firedBy x.batch.journal n k⟩]
    else []
  /-- A removed node is gone, and its number will not be given again. -/
  removed : ∀ n, removedBy x.batch.journal n = true →
    x.store.tree.nodes[n]? = none ∧ n < x.store.tree.nextId

/-- Erasing duplicates leaves none. -/
theorem nodup_eraseDups {α : Type} [BEq α] [LawfulBEq α] : ∀ l : List α, l.eraseDups.Nodup
  | [] => List.nodup_nil
  | a :: as => by
    rw [List.eraseDups_cons]
    refine List.nodup_cons.2 ⟨?_, nodup_eraseDups _⟩
    simp
termination_by l => l.length
decreasing_by exact Nat.lt_succ_of_le (List.length_filter_le _ _)

namespace Txn.Tracks

variable {S : Store} {x : Txn}

theorem start (S : Store) : (Txn.start S).Tracks S where
  undo := Tree.Advanced.refl _
  nextId := rfl
  waiting := by simp [Txn.start]
  taken := by simp [Txn.start]
  removed := by simp [Txn.start]

/-- A set consumed before and fired by the next change was fired before: a change fires the
children watchers of a present node only, and a node whose children set was consumed without
firing is removed. -/
theorem firedBy_of_consumedBy (h : x.Tracks S) {c : Change} {t : Tree}
    (hstep : x.store.tree.Step c t) {n : Nat} {k : WatchKind}
    (hcons : consumedBy x.batch.journal n k = true) (hf : c.fires n k = true) :
    firedBy x.batch.journal n k = true := by
  cases hfJ : firedBy x.batch.journal n k
  · obtain ⟨rfl, hr⟩ := removedBy_of_consumedBy hcons hfJ
    obtain ⟨m, hm⟩ := hstep.get_of_fires_children hf
    simp [(h.removed n hr).1] at hm
  · rfl

/-- Recording one step of the tree keeps the invariant. -/
theorem applied (h : x.Tracks S) (hwf : x.store.tree.WF) {c : Change} {t : Tree}
    (hstep : x.store.tree.Step c t) : (x.applied t c).Tracks S where
  undo := by
    simp only [Txn.applied, Txn.journal_record, Txn.tree_record, List.foldl_cons]
    exact h.undo.trans ((Tree.advanced_revert_step hwf hstep).foldl_revert _)
  nextId := by
    simp only [Txn.applied, Txn.journal_record, Txn.tree_record, hstep.nextId_eq, h.nextId,
      List.filter_cons]
    split <;> simp_all [Nat.add_assoc]
  waiting := by
    intro n k
    simp only [Txn.applied, Txn.waiting_record, Txn.journal_record, consumedBy_cons]
    rw [h.waiting n k]
    cases c.takes n k <;> simp
  taken := by
    intro n k
    have hne : ∀ p name id node, c = .deleted p name id node → p ≠ id := by
      rintro p name id node rfl
      exact hstep.ne_of_deleted hwf
    simp only [Txn.applied]
    rw [Txn.taken_record_isAt _ hne]
    simp only [Txn.journal_record, consumedBy_cons, firedBy_cons]
    rw [h.taken n k, h.waiting n k]
    by_cases hcJ : consumedBy x.batch.journal n k = true
    · have hfire : (c.fires n k || firedBy x.batch.journal n k) = firedBy x.batch.journal n k := by
        cases hf : c.fires n k
        · rfl
        · simp [h.firedBy_of_consumedBy hstep hcJ hf]
      simp [hcJ, hfire]
    · have hfJ : firedBy x.batch.journal n k = false := by
        cases hf : firedBy x.batch.journal n k
        · rfl
        · exact absurd (consumedBy_of_firedBy hf) hcJ
      cases c.takes n k <;> simp [hcJ, hfJ]
  removed := by
    intro n hr
    simp only [Txn.applied, Txn.journal_record, Txn.tree_record, removedBy_cons,
      Bool.or_eq_true] at hr ⊢
    rcases hr with hr | hr
    · exact hstep.removed hwf hr
    · exact hstep.absent (h.removed n hr).1 (h.removed n hr).2

/-- Every step of an edit keeps the invariant. -/
theorem step (h : x.Tracks S) (hwf : x.store.WF) {y : Txn} (hs : x.Step y) : y.Tracks S := by
  cases hs with
  | change hstep => exact h.applied hwf.tree hstep
  | bump hp =>
    refine ⟨?_, ?_, h.waiting, h.taken, ?_⟩
    · exact h.undo.trans ((Tree.advanced_bump hp).foldl_revert _)
    · simpa [Tree.setNode] using h.nextId
    · intro n hr
      obtain ⟨hn, hlt⟩ := h.removed n hr
      refine ⟨?_, by simpa [Tree.setNode] using hlt⟩
      rw [Tree.getElem?_setNode, if_neg (Tree.ne_of_get_of_none hp hn)]
      exact hn

/-- An edit that ran from a well-formed store keeps the invariant all along. -/
theorem steps (h : x.Tracks S) (hwf : x.store.WF) {y : Txn} (hs : Txn.Steps x y) : y.Tracks S := by
  induction hs with
  | refl => exact h
  | tail hxy hstep ih => exact ih.step (hwf.steps hxy) hstep

/-! ## Keeping the edit -/

/-- A taken set is the set its node and kind had at the start. -/
theorem eq_of_mem_taken (h : x.Tracks S) {tk : Taken} (htk : tk ∈ x.batch.taken) :
    tk = ⟨tk.node, tk.kind, S.watches.waiting tk.node tk.kind,
      firedBy x.batch.journal tk.node tk.kind⟩ ∧
      consumedBy x.batch.journal tk.node tk.kind = true := by
  have hmem : tk ∈ x.batch.taken.filter (·.isAt tk.node tk.kind) :=
    List.mem_filter.2 ⟨htk, Taken.isAt_self tk⟩
  rw [h.taken] at hmem
  split_ifs at hmem with hc
  · exact ⟨List.mem_singleton.1 hmem, hc.1⟩
  · cases hmem

/-- A kept edit delivers exactly the watchers that waited at the start on a set it fired. -/
theorem mem_pending (h : x.Tracks S) {w : Nat} :
    w ∈ x.pending ↔ ∃ n k, firedBy x.batch.journal n k = true ∧ w ∈ S.watches.waiting n k := by
  simp only [Txn.pending, List.mem_eraseDups, List.mem_flatMap, List.mem_filter]
  constructor
  · rintro ⟨tk, ⟨htk, hfire⟩, hw⟩
    obtain ⟨heq, -⟩ := h.eq_of_mem_taken htk
    rw [heq] at hfire hw
    exact ⟨tk.node, tk.kind, hfire, hw⟩
  · rintro ⟨n, k, hf, hw⟩
    have hne : S.watches.waiting n k ≠ [] := List.ne_nil_of_mem hw
    have hmem : (⟨n, k, S.watches.waiting n k, firedBy x.batch.journal n k⟩ : Taken) ∈
        x.batch.taken.filter (·.isAt n k) := by
      rw [h.taken n k, if_pos ⟨consumedBy_of_firedBy hf, hne⟩]
      exact List.mem_singleton_self _
    exact ⟨_, ⟨(List.mem_filter.1 hmem).1, hf⟩, hw⟩

theorem nodup_pending (x : Txn) : x.pending.Nodup :=
  nodup_eraseDups _

/-! ## Taking the edit back -/

/-- Restoring the taken sets, one after the other, on the nodes of a tree. -/
def restoreOn (tree : Tree) (r : Registry) (tk : Taken) : Registry :=
  if tree.nodes.contains tk.node then r.restore tk.node tk.kind tk.watchers else r

/-- Restoring a list of sets acts on each node and kind through the sets of that node and kind
alone, in order. -/
theorem waiting_foldl_restoreOn (tree : Tree) (n : Nat) (k : WatchKind) :
    ∀ (l : List Taken) (r : Registry), (l.foldl (restoreOn tree) r).waiting n k =
      (l.filter (·.isAt n k)).foldl
        (fun ws tk => if tree.nodes.contains n then ws ++ tk.watchers.filter (· ∉ ws) else ws)
        (r.waiting n k)
  | [], _ => rfl
  | tk :: l, r => by
    rw [List.foldl_cons, waiting_foldl_restoreOn tree n k l, List.filter_cons]
    by_cases hat : tk.isAt n k = true
    · have hn : tk.node = n ∧ tk.kind = k := by simpa [Taken.isAt] using hat
      obtain ⟨rfl, rfl⟩ := hn
      simp only [hat, if_true, List.foldl_cons, restoreOn]
      split_ifs <;> simp [Registry.waiting_restore]
    · have hn : ¬ (tk.node = n ∧ tk.kind = k) := by simpa [Taken.isAt] using hat
      simp only [hat, Bool.false_eq_true, if_false, restoreOn]
      split_ifs <;> simp [Registry.waiting_restore, hn]

theorem sound_foldl_restoreOn (tree : Tree) :
    ∀ (l : List Taken) {r : Registry}, r.Sound → (∀ tk ∈ l, tk.watchers.Nodup) →
      (l.foldl (restoreOn tree) r).Sound
  | [], _, hr, _ => hr
  | tk :: l, r, hr, hl => by
    rw [List.foldl_cons]
    refine sound_foldl_restoreOn tree l ?_ (fun tk' h' => hl tk' (List.mem_cons_of_mem _ h'))
    unfold restoreOn
    split_ifs
    · exact hr.restore _ _ (hl tk List.mem_cons_self)
    · exact hr

theorem rollback_tree (h : x.Tracks S) : Tree.Advanced S.tree x.rollback.tree :=
  h.undo

/-- Taking an edit back gives the registry it started from: every consumed set that was not
empty sits on a node present at the start, so also after the revert, and is put back whole. -/
theorem rollback_watches (h : x.Tracks S) (hS : S.WF) (hx : x.store.watches.Sound) :
    x.rollback.watches = S.watches := by
  have hrestore : x.rollback.watches =
      x.batch.taken.foldl (restoreOn x.rollback.tree) x.store.watches := rfl
  have hsound : x.rollback.watches.Sound := by
    rw [hrestore]
    refine sound_foldl_restoreOn _ _ hx ?_
    intro tk htk
    rw [(h.eq_of_mem_taken htk).1]
    exact Registry.nodup_waiting hS.sound _ _
  refine Registry.ext_waiting hsound hS.sound fun n k => ?_
  rw [hrestore, waiting_foldl_restoreOn, h.taken n k, h.waiting n k]
  by_cases hc : consumedBy x.batch.journal n k = true ∧ S.watches.waiting n k ≠ []
  · -- the node had watchers at the start, so it is present then and after the revert
    obtain ⟨m, hm⟩ := hS.present hc.2
    have hpresent : x.rollback.tree.nodes.contains n = true := by
      have hslot := h.rollback_tree.nodes n
      rw [hm] at hslot
      cases hr : x.rollback.tree.nodes[n]? with
      | none => rw [hr] at hslot; cases hslot
      | some _ => exact Std.ExtTreeMap.contains_iff_mem.2 (Std.ExtTreeMap.mem_iff_isSome_getElem?.2 (by simp [hr]))
    simp [hc.1, hc.2, hpresent]
  · rw [if_neg hc]
    by_cases hcons : consumedBy x.batch.journal n k = true
    · have : S.watches.waiting n k = [] := by simpa [hcons] using hc
      simp [hcons, this]
    · simp [hcons]

end Txn.Tracks

end CoordStore
