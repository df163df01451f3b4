import CoordStore.Proofs.Service.PrefixView
import CoordStore.Proofs.Service.Watched

/-!
# Where a node is

Nodes never move: an operation adds nodes and removes childless ones, and that is all it does
to the tree's links. So a child link whose child is still there after an operation is still
there (`Action.childAt_step`), and a path that found a node still there finds it again
(`Action.resolve_step`). A watcher that waits on a node it found by a path can therefore rely
on the path as long as the node lasts.

The other way round, a node is found by one path only. A walk down from a node of a
well-formed tree goes down exactly the names that the path of the node it reaches adds to the
path of the node it started from (`Tree.WF.namesOf_descend`), and a path is fixed by its names
(`Path.segments_inj`); so two paths that find one node from one root are one path
(`Store.resolve_inj`).
-/

namespace CoordStore

/-! ## Links that last -/

namespace Tree.Step

variable {t t' : Tree} {c : Change}

/-- A tree step keeps every child link, unless it removes the child. -/
theorem childAt_or_removes (hwf : t.WF) (h : t.Step c t') {p : Nat} {name : String} {d : Nat}
    (hc : t.ChildAt p name d) : t'.ChildAt p name d ∨ c.removes d = true := by
  cases h with
  | created hp _ hfree => exact .inl ((childAt_addNode hwf hp hfree).2 (.inl hc))
  | dataChanged data hid =>
    exact .inl ((sameSkeleton_setNode hid (by simp [Node.skeleton])).childAt hc)
  | @deleted p' pn' name' c' n' hp hpc hn hempty =>
    by_cases hlink : p = p' ∧ name = name'
    · -- the removed link: its child is the removed node
      obtain ⟨rfl, rfl⟩ := hlink
      obtain ⟨pn, hpn, hch⟩ := hc
      rw [hp] at hpn
      cases hpn
      rw [hpc] at hch
      cases hch
      exact .inr (by simp [Change.removes])
    · exact .inl ((childAt_removeNode hwf hp hpc hn hempty).2 ⟨hc, hlink⟩)

end Tree.Step

namespace Txn

/-- A step of an edit keeps every child link, unless its journal removes the child. -/
theorem Step.childAt_or_removed {x y : Txn} (hwf : x.store.WF) (h : x.Step y) {p : Nat}
    {name : String} {d : Nat}
    (hc : x.store.tree.ChildAt p name d ∨ removedBy x.batch.journal d = true) :
    y.store.tree.ChildAt p name d ∨ removedBy y.batch.journal d = true := by
  cases h with
  | change hstep =>
    simp only [applied, tree_record, journal_record, removedBy_cons, Bool.or_eq_true]
    rcases hc with hc | hc
    · exact (hstep.childAt_or_removes hwf.tree hc).imp_right .inl
    · exact .inr (.inr hc)
  | bump hp =>
    exact hc.imp_left (Tree.sameSkeleton_setNode hp (by simp [Node.skeleton])).childAt

theorem Steps.childAt_or_removed {x y : Txn} (hwf : x.store.WF) (h : Txn.Steps x y) {p : Nat}
    {name : String} {d : Nat}
    (hc : x.store.tree.ChildAt p name d ∨ removedBy x.batch.journal d = true) :
    y.store.tree.ChildAt p name d ∨ removedBy y.batch.journal d = true := by
  induction h with
  | refl => exact hc
  | tail hxy hstep ih => exact hstep.childAt_or_removed (hwf.steps hxy) ih

end Txn

namespace Action

variable {sv : Service}

/-- An operation keeps every child link whose child is still there. -/
theorem childAt_step (a : Action) (hwf : sv.store.WF) {p : Nat} {name : String} {d : Nat}
    (hc : sv.store.tree.ChildAt p name d) :
    (a.step sv).1.store.tree.ChildAt p name d ∨ (a.step sv).1.store.tree.nodes[d]? = none := by
  cases hsucc : a.succeeds sv
  · exact .inl ((a.advanced_of_fails hwf hsucc).sameSkeleton.childAt hc)
  · cases hwr : a.isWrite
    · obtain ⟨id, k, -, hstore⟩ := read_of_succeeds hwr hsucc
      rw [hstore, Store.tree_arm]
      exact .inl hc
    · -- a write went by steps, and what its journal removed is gone
      obtain ⟨x, hsteps, -, hstore, -⟩ := steps_of_succeeds hwf hwr hsucc
      rw [hstore]
      exact (Txn.Steps.childAt_or_removed hwf hsteps (.inl hc)).imp_right fun hrm =>
        (((Txn.Tracks.start sv.store).steps hwf hsteps).removed d hrm).1

end Action

/-! ## Paths that last -/

namespace Tree

/-- A walk down child links that all last, to a node that is still there, is walked again. -/
theorem resolve_of_kept {t t' : Tree}
    (hkeep : ∀ p name d, t.ChildAt p name d → t'.ChildAt p name d ∨ t'.nodes[d]? = none) :
    ∀ {start : Nat} {names : List String} {id : Nat}, t.resolve start names = .ok id →
      (∃ m, t'.nodes[id]? = some m) → t'.resolve start names = .ok id
  | start, [], id, h, ⟨m, hm⟩ => by
    obtain ⟨n, hn⟩ := get_of_resolve_eq_ok h
    simp only [resolve_of_get hn, descend, Except.ok.injEq] at h
    subst h
    rw [resolve_of_get hm]
    rfl
  | start, name :: rest, id, h, hid => by
    obtain ⟨n, hn⟩ := get_of_resolve_eq_ok h
    rw [resolve_of_get hn] at h
    cases hc : n.children[name]? with
    | none => simp [descend, hc] at h
    | some c =>
      cases hm : t.nodes[c]? with
      | none => simp [descend, hc, node, hm, bind, Except.bind] at h
      | some m =>
        simp only [descend, hc, node, hm, bind, Except.bind] at h
        -- the rest of the walk, from the child, is walked again; so the child is there, and
        -- with it the link to it
        have hrest := resolve_of_kept hkeep (by rw [resolve_of_get hm]; exact h) hid
        obtain ⟨m', hm'⟩ := get_of_resolve_eq_ok hrest
        rcases hkeep start name c ⟨n, hn, hc⟩ with ⟨n', hn', hc'⟩ | hgone
        · rw [resolve_of_get hm'] at hrest
          simp only [resolve_of_get hn', descend, hc', node, hm', bind, Except.bind]
          exact hrest
        · simp [hgone] at hm'

end Tree

theorem Store.resolve_of_kept {s s' : Store}
    (hkeep : ∀ p name d, s.tree.ChildAt p name d →
      s'.tree.ChildAt p name d ∨ s'.tree.nodes[d]? = none)
    {root : Nat} {path : String} {id : Nat} (h : s.resolve root path = .ok id)
    (hid : ∃ m, s'.tree.nodes[id]? = some m) : s'.resolve root path = .ok id := by
  unfold resolve at h ⊢
  cases hp : Path.segments path with
  | error e => simp [hp, Except.mapError, bind, Except.bind] at h
  | ok names =>
    simp only [hp, Except.mapError, bind, Except.bind] at h ⊢
    exact Tree.resolve_of_kept hkeep h hid

/-- A path that found a node still there after an operation finds it again. -/
theorem Action.resolve_step (a : Action) {sv : Service} (hwf : sv.store.WF) {root : Nat}
    {path : String} {id : Nat} (h : sv.store.resolve root path = .ok id)
    (hid : ∃ m, (a.step sv).1.store.tree.nodes[id]? = some m) :
    (a.step sv).1.store.resolve root path = .ok id :=
  Store.resolve_of_kept (fun _ _ _ hc => a.childAt_step hwf hc) h hid

/-! ## One path to a node -/

namespace Path

/-- Putting the separators back between the pieces gives the text back. -/
theorem intercalate_pieces (cs : List Char) : ['/'].intercalate (pieces cs) = cs := by
  rw [pieces_eq_splitOn]
  exact List.intercalate_splitOn '/'

/-- A path is fixed by its names. -/
theorem segments_inj {p q : String} {names : List String} (hp : segments p = .ok names)
    (hq : segments q = .ok names) : p = q := by
  by_cases hroot : p = "/"
  · subst hroot
    rw [segments_eq_nil.2 rfl] at hp
    cases hp
    exact (segments_eq_nil.1 hq).symm
  have hq' : q ≠ "/" := by
    rintro rfl
    rw [segments_eq_nil.2 rfl] at hq
    cases hq
    exact hroot (segments_eq_nil.1 hp)
  obtain ⟨rp, hlp, -, hnp⟩ := toList_of_segments hp hroot
  obtain ⟨rq, hlq, -, hnq⟩ := toList_of_segments hq hq'
  have hpieces : pieces rp = pieces rq :=
    List.map_injective_iff.2 (fun _ _ h => String.ofList_injective h) (hnp.symm.trans hnq)
  have hrest : rp = rq := by
    rw [← intercalate_pieces rp, hpieces, intercalate_pieces]
  exact String.toList_inj.1 (by rw [hlp, hlq, hrest])

/-- Below one parent path, the joined path fixes the name. -/
theorem join_right_inj {p a b : String} (h : join p a = join p b) : a = b := by
  have h' := congrArg String.toList h
  rw [toList_join_trimEnd, toList_join_trimEnd] at h'
  exact String.toList_inj.1 (List.cons.inj (List.append_cancel_left h')).2

end Path

namespace Tree.WF

variable {t : Tree} (hwf : t.WF)
include hwf

/-- A walk goes down exactly the names that the path of the node it reaches adds to the path of
the node it started from. -/
theorem namesOf_descend : ∀ {n : Node} {start : Nat} {names : List String} {c : Nat} {m : Node},
    t.nodes[start]? = some n → t.descend n start names = .ok c → t.nodes[c]? = some m →
    Path.namesOf m.path.toList = Path.namesOf n.path.toList ++ names
  | n, start, [], c, m, hn, h, hm => by
    simp only [descend, Except.ok.injEq] at h
    subst h
    rw [hn] at hm
    cases hm
    simp
  | n, start, name :: rest, c, m, hn, h, hm => by
    cases hc : n.children[name]? with
    | none => simp [descend, hc] at h
    | some c' =>
      obtain ⟨m', hm'⟩ := hwf.present ⟨n, hn, hc⟩
      simp only [descend, hc, node, hm', bind, Except.bind] at h
      rw [namesOf_descend hm' h hm, hwf.path_of_childAt hn hc hm',
        Path.namesOf_join (hwf.unslashed hn) (hwf.names ⟨n, hn, hc⟩)]
      simp

/-- Two walks from one node to one node go down the same names. -/
theorem resolve_inj {start : Nat} {A B : List String} {c : Nat}
    (hA : t.resolve start A = .ok c) (hB : t.resolve start B = .ok c) : A = B := by
  obtain ⟨n, hn⟩ := get_of_resolve_eq_ok hA
  obtain ⟨m, hm⟩ := get_of_resolve_eq_ok' hA
  rw [resolve_of_get hn] at hA hB
  exact List.append_cancel_left
    ((hwf.namesOf_descend hn hA hm).symm.trans (hwf.namesOf_descend hn hB hm))

end Tree.WF

/-- A walk fails only for want of a node: a missing child or a missing start. -/
theorem Tree.isNotFound_of_descend {t : Tree} : ∀ {n : Node} {start : Nat} {names : List String}
    {err : DirError}, t.descend n start names = .error err → err.isNotFound = true
  | n, start, [], err, h => by simp [descend] at h
  | n, start, name :: rest, err, h => by
    unfold descend at h
    cases hc : n.children[name]? with
    | none =>
      simp only [hc, Except.error.injEq] at h
      subst h
      rfl
    | some c =>
      simp only [hc, node] at h
      cases hm : t.nodes[c]? with
      | none =>
        simp only [hm, bind, Except.bind, Except.error.injEq] at h
        subst h
        rfl
      | some m =>
        simp only [hm, bind, Except.bind] at h
        exact isNotFound_of_descend h

/-- A path, once it is a path, fails to find a node only for want of one. -/
theorem Store.isNotFound_of_resolve {s : Store} {root : Nat} {path : String}
    {names : List String} (hp : Path.segments path = .ok names) {err : DirError}
    (h : s.resolve root path = .error err) : err.isNotFound = true := by
  simp only [resolve, hp, Except.mapError, bind, Except.bind, Tree.resolve, Tree.node] at h
  cases hs : s.tree.nodes[root]? with
  | none =>
    simp only [hs, Except.error.injEq] at h
    subst h
    rfl
  | some n =>
    simp only [hs] at h
    exact Tree.isNotFound_of_descend h

/-- A path that finds a node is a path. -/
theorem Store.segments_of_resolve {s : Store} {root : Nat} {path : String} {id : Nat}
    (h : s.resolve root path = .ok id) : ∃ names, Path.segments path = .ok names := by
  cases hp : Path.segments path with
  | error e => simp [resolve, hp, Except.mapError, bind, Except.bind] at h
  | ok names => exact ⟨names, rfl⟩

/-- Two paths that find one node from one root are one path. -/
theorem Store.resolve_inj {s : Store} (hwf : s.tree.WF) {root : Nat} {p q : String} {id : Nat}
    (hp : s.resolve root p = .ok id) (hq : s.resolve root q = .ok id) : p = q := by
  unfold resolve at hp hq
  cases hsp : Path.segments p with
  | error e => simp [hsp, Except.mapError, bind, Except.bind] at hp
  | ok A =>
    cases hsq : Path.segments q with
    | error e => simp [hsq, Except.mapError, bind, Except.bind] at hq
    | ok B =>
      simp only [hsp, hsq, Except.mapError, bind, Except.bind] at hp hq
      obtain rfl := hwf.resolve_inj hp hq
      exact Path.segments_inj hsp hsq

end CoordStore
