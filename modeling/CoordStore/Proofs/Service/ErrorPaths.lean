import CoordStore.Proofs.Service.Failure
import CoordStore.Proofs.Service.Place

/-!
# Errors name absolute paths

Whichever handle an operation comes through, a path its error names is absolute: the stored
path `P` of the handle's root followed by the path the operation was given, or by the part of
it that was walked. Paths given to a handle are relative to its root, but the tree builds
every error path by joining a name below the stored path of the node it stands on, and a node
reached by walking names down from the root stores the root's path with those names joined on
(`Tree.WF.join_path_of_descend`).

A walk that fails stops at its first missing name, having walked the names before it
(`Tree.WF.descend_eq_error`), so the error of a walk names `P` followed by the names up to the
missing one. The other refusals name the path asked for: a node that still has children, a
plain name that is taken, an ephemeral parent (with the name as asked, before any number is
added); a sequential name that is taken is named with its number.
-/

namespace CoordStore

namespace Path

/-- Below a stored path, joining writes one separator and the name. -/
theorem join_eq_append {p : String} (hp : Unslashed p) (name : String) :
    join p name = p ++ "/" ++ name :=
  String.toList_inj.1 (by simp [toList_join hp, String.toList_append])

/-- A path with names is a separator followed by its names, with separators between them. -/
theorem eq_slash_intercalate {p : String} {names : List String} (h : segments p = .ok names)
    (hp : p ≠ "/") : p = "/" ++ "/".intercalate names := by
  obtain ⟨rest, hl, -, rfl⟩ := toList_of_segments h hp
  apply String.toList_inj.1
  simp [String.toList_append, hl, intercalate_pieces]

/-- A text put after a joined name lengthens the joined path. -/
theorem join_append (p name suffix : String) : join p (name ++ suffix) = join p name ++ suffix := by
  simp [join, String.append_assoc]

end Path

namespace Tree

variable {t : Tree}

/-- A walk down two lists of names is the walk down the first, then down the second from the
node it reached. -/
theorem descend_append_bind : ∀ {n : Node} {start : Nat} (as bs : List String),
    t.nodes[start]? = some n →
    t.descend n start (as ++ bs) =
      (t.descend n start as >>= fun q => t.node q >>= fun qn => t.descend qn q bs)
  | n, start, [], bs, hn => by
    simp [descend, node, hn, bind, Except.bind]
  | n, start, a :: as, bs, _ => by
    cases hc : n.children[a]? with
    | none => simp [descend, hc, bind, Except.bind]
    | some c =>
      cases hm : t.nodes[c]? with
      | none => simp [descend, hc, node, hm, bind, Except.bind]
      | some m =>
        simp only [List.cons_append, descend, hc, node, hm, bind, Except.bind]
        exact descend_append_bind as bs hm

/-- A walk that found a node went down every prefix of its names. -/
theorem resolve_append_eq_ok {start : Nat} {as bs : List String} {c : Nat}
    (h : t.resolve start (as ++ bs) = .ok c) :
    ∃ q qn, t.resolve start as = .ok q ∧ t.nodes[q]? = some qn ∧ t.descend qn q bs = .ok c := by
  obtain ⟨n, hn⟩ := get_of_resolve_eq_ok h
  rw [resolve_of_get hn, descend_append_bind as bs hn] at h
  rw [resolve_of_get hn]
  cases hq : t.descend n start as with
  | error e => simp [hq, bind, Except.bind] at h
  | ok q =>
    cases hqn : t.nodes[q]? with
    | none => simp [hq, hqn, node, bind, Except.bind] at h
    | some qn =>
      simp only [hq, hqn, node, bind, Except.bind] at h
      exact ⟨q, qn, rfl, hqn, h⟩

/-! ## Refusals of the tree's operations -/

section Refusals

variable {p : Nat} {pn : Node} {name : String}

theorem deleteChild_of_absent (hp : t.nodes[p]? = some pn) (hname : pn.children[name]? = none) :
    deleteChild p name t = .error (.notFound (Path.join pn.path name)) t := by
  simp [deleteChild, hp, hname]

theorem deleteChild_of_nonempty {c : Nat} {cn : Node} (hp : t.nodes[p]? = some pn)
    (hname : pn.children[name]? = some c) (hc : t.nodes[c]? = some cn)
    (hkids : cn.children ≠ ∅) :
    deleteChild p name t = .error (.notEmpty (Path.join pn.path name)) t := by
  have hne : cn.children.isEmpty = false := by
    simpa [Std.ExtTreeMap.isEmpty_iff] using hkids
  simp [deleteChild, hp, hname, hc, hne]

theorem addChild_of_taken {data : Option (List UInt8)} {mode : CreateMode} {owner : Int}
    (hp : t.nodes[p]? = some pn) (hseq : mode.isSequential = false)
    (htaken : pn.children.contains name = true) :
    addChild p name data mode owner t = .error (.alreadyExists (Path.join pn.path name)) t := by
  simp [addChild, hp, hseq, htaken]

/-- Below an ephemeral node nothing is created; the name as asked is reported. -/
theorem addChild_of_ephemeral {data : Option (List UInt8)} {mode : CreateMode} {owner : Int}
    (hp : t.nodes[p]? = some pn) (heph : pn.mode.isEphemeral = true)
    (hfree : pn.children.contains name = false) :
    addChild p name data mode owner t = .error (.ephemeralParent (Path.join pn.path name)) t := by
  simp [addChild, hp, heph, hfree]

end Refusals

namespace WF

variable (hwf : t.WF)
include hwf

/-- Joining a name below the node a walk reaches gives the path of the node the walk started
from, followed by the walked names and that name. -/
theorem join_path_of_descend : ∀ {n : Node} {start : Nat} {names : List String} {c : Nat}
    {m : Node}, t.nodes[start]? = some n → t.descend n start names = .ok c →
    t.nodes[c]? = some m →
    ∀ x, Path.join m.path x = n.path ++ "/" ++ "/".intercalate (names ++ [x])
  | n, start, [], c, m, hn, h, hm, x => by
    simp only [descend, Except.ok.injEq] at h
    subst h
    rw [hn] at hm
    cases hm
    simp [Path.join_eq_append (hwf.unslashed hn)]
  | n, start, a :: rest, c, m, hn, h, hm, x => by
    cases ha : n.children[a]? with
    | none => simp [descend, ha] at h
    | some c' =>
      obtain ⟨m', hm'⟩ := hwf.present ⟨n, hn, ha⟩
      simp only [descend, ha, node, hm', bind, Except.bind] at h
      -- one name down, then the rest of the walk from the child
      rw [join_path_of_descend hm' h hm x, hwf.path_of_childAt hn ha hm',
        Path.join_eq_append (hwf.unslashed hn), List.cons_append,
        String.intercalate_cons_of_ne_nil (by simp)]
      simp [String.append_assoc]

/-- A walk that fails stops at its first missing name: the names before it lead to a node that
has no child of that name, and the error names the path that child would have. -/
theorem descend_eq_error : ∀ {n : Node} {start : Nat} {names : List String} {e : DirError},
    t.nodes[start]? = some n → t.descend n start names = .error e →
    ∃ pre s rest q qn, names = pre ++ s :: rest ∧ t.descend n start pre = .ok q ∧
      t.nodes[q]? = some qn ∧ qn.children[s]? = none ∧ e = .notFound (Path.join qn.path s)
  | n, start, [], e, _, h => by simp [descend] at h
  | n, start, a :: rest, e, hn, h => by
    cases ha : n.children[a]? with
    | none =>
      -- the first name is the missing one
      simp only [descend, ha, Except.error.injEq] at h
      exact ⟨[], a, rest, start, n, rfl, rfl, hn, ha, h.symm⟩
    | some c =>
      obtain ⟨m, hm⟩ := hwf.present ⟨n, hn, ha⟩
      simp only [descend, ha, node, hm, bind, Except.bind] at h
      obtain ⟨pre, s, rest', q, qn, rfl, hpre, hq, hs, rfl⟩ := descend_eq_error hm h
      refine ⟨a :: pre, s, rest', q, qn, rfl, ?_, hq, hs, rfl⟩
      simpa [descend, ha, node, hm, bind, Except.bind] using hpre

section FromRoot

variable {r : Nat} {rn : Node} (hr : t.nodes[r]? = some rn)
include hr

theorem join_path_of_resolve {names : List String} {c : Nat} {cn : Node}
    (h : t.resolve r names = .ok c) (hc : t.nodes[c]? = some cn) (x : String) :
    Path.join cn.path x = rn.path ++ "/" ++ "/".intercalate (names ++ [x]) := by
  rw [resolve_of_get hr] at h
  exact hwf.join_path_of_descend hr h hc x

/-- A walk from a node that fails stops at its first missing name, and names the node's path
followed by the names up to that one. -/
theorem resolve_eq_error {names : List String} {e : DirError} (h : t.resolve r names = .error e) :
    ∃ pre s rest q qn, names = pre ++ s :: rest ∧ t.resolve r pre = .ok q ∧
      t.nodes[q]? = some qn ∧ qn.children[s]? = none ∧
      e = .notFound (rn.path ++ "/" ++ "/".intercalate (pre ++ [s])) := by
  rw [resolve_of_get hr] at h
  obtain ⟨pre, s, rest, q, qn, rfl, hpre, hq, hs, rfl⟩ := hwf.descend_eq_error hr h
  have hwalk : t.resolve r pre = .ok q := by rwa [resolve_of_get hr]
  exact ⟨pre, s, rest, q, qn, rfl, hwalk, hq, hs, by rw [hwf.join_path_of_resolve hr hwalk hq]⟩

/-- The parent of a path with names, found from a node, has as its path with the last name
joined on the node's path followed by the path. -/
theorem join_path_of_splitParent {p : String} {parents : List String} {name : String}
    (hs : Path.splitParent p = .ok (parents, name)) {q : Nat} {qn : Node}
    (hq : t.resolve r parents = .ok q) (hqn : t.nodes[q]? = some qn) :
    Path.join qn.path name = rn.path ++ p := by
  have hseg := Path.splitParent_eq_ok.1 hs
  have hp : p ≠ "/" := by
    rintro rfl
    rw [Path.segments_eq_nil.2 rfl] at hseg
    simp at hseg
  rw [hwf.join_path_of_resolve hr hq hqn, Path.eq_slash_intercalate hseg hp, String.append_assoc]

/-- A walk that fails on its last name failed before it, or reached a node without a child of
that name. -/
theorem resolve_concat_eq_error {parents : List String} {name : String} {e : DirError}
    (h : t.resolve r (parents ++ [name]) = .error e) :
    t.resolve r parents = .error e ∨ ∃ q qn, t.resolve r parents = .ok q ∧
      t.nodes[q]? = some qn ∧ qn.children[name]? = none ∧
      e = .notFound (Path.join qn.path name) := by
  rw [resolve_of_get hr, descend_append_bind parents [name] hr] at h
  rw [resolve_of_get hr]
  cases hq : t.descend rn r parents with
  | error e' =>
    simp only [hq, bind, Except.bind] at h
    exact .inl (by rw [h])
  | ok q =>
    obtain ⟨qn, hqn⟩ := get_of_descend_eq_ok hr hq
    simp only [hq, hqn, node, bind, Except.bind] at h
    cases hc : qn.children[name]? with
    | none =>
      simp only [descend, hc, Except.error.injEq] at h
      exact .inr ⟨q, qn, rfl, hqn, hc, h.symm⟩
    | some c =>
      -- a child that is linked is there, so the walk would have gone through
      obtain ⟨m, hm⟩ := hwf.present ⟨qn, hqn, hc⟩
      simp [descend, hc, node, hm, bind, Except.bind] at h

end FromRoot

end WF

/-- A walk that found a node through a last name went through that name's parent. -/
theorem resolve_concat_eq_ok {r : Nat} {parents : List String} {name : String} {c : Nat}
    (h : t.resolve r (parents ++ [name]) = .ok c) :
    ∃ q qn, t.resolve r parents = .ok q ∧ t.nodes[q]? = some qn ∧
      qn.children[name]? = some c := by
  obtain ⟨q, qn, hq, hqn, hlast⟩ := resolve_append_eq_ok h
  cases hc : qn.children[name]? with
  | none => simp [descend, hc] at hlast
  | some c' =>
    cases hm : t.nodes[c']? with
    | none => simp [descend, hc, node, hm, bind, Except.bind] at hlast
    | some m =>
      simp only [descend, hc, node, hm, bind, Except.bind, Except.ok.injEq] at hlast
      exact ⟨q, qn, hq, hqn, hlast ▸ hc⟩

end Tree

namespace Store

/-- A path with names leads from a node where its names lead. -/
theorem resolve_of_segments {s : Store} {root : Nat} {p : String} {names : List String}
    (hp : Path.segments p = .ok names) : s.resolve root p = s.tree.resolve root names := by
  simp [Store.resolve, hp, Except.mapError, bind, Except.bind]

/-- A path other than `/` that leads to a node leads through its parent, which links the node
under the last name. -/
theorem parent_of_resolve {s : Store} {root : Nat} {p : String} {c : Nat}
    (h : s.resolve root p = .ok c) (hp : p ≠ "/") :
    ∃ parents name q qn, Path.splitParent p = .ok (parents, name) ∧
      s.tree.resolve root parents = .ok q ∧ s.tree.nodes[q]? = some qn ∧
      qn.children[name]? = some c := by
  obtain ⟨names, hseg⟩ := segments_of_resolve h
  obtain ⟨parents, name, hs⟩ := Path.splitParent_of_segments hseg hp
  rw [resolve_of_segments (Path.splitParent_eq_ok.1 hs)] at h
  obtain ⟨q, qn, hq, hqn, hc⟩ := Tree.resolve_concat_eq_ok h
  exact ⟨parents, name, q, qn, hs, hq, hqn, hc⟩

end Store

namespace Edit

variable {root : Nat} {path : String} {data : Option (List UInt8)} {mode : CreateMode}
  {session : Int} {x : Txn} {names : List String} {name : String} {e : DirError}

theorem setData_of_resolve_error (h : x.store.resolve root path = .error e) :
    setData root path data x = .error e x := by
  simp [setData, h, bind, EStateM.bind, ofExcept_error_apply, store]

section Split

variable (hsplit : Path.splitParent path = .ok (names, name))
include hsplit

theorem delete_of_resolve_error (h : x.store.tree.resolve root names = .error e) :
    delete root path x = .error e x := by
  simp [delete, hsplit, h, bind, EStateM.bind, ofExcept_ok_apply, ofExcept_error_apply, store,
    Except.mapError]

theorem delete_of_deleteChild_error {q : Nat} (hq : x.store.tree.resolve root names = .ok q)
    (hd : Tree.deleteChild q name x.store.tree = .error e x.store.tree) :
    delete root path x = .error e x := by
  simp [delete, hsplit, hq, hd, bind, EStateM.bind, ofExcept_ok_apply, store, onTree,
    Except.mapError]

theorem create_of_resolve_error (h : x.store.tree.resolve root names = .error e) :
    create root path data mode session x = .error e x := by
  simp [create, hsplit, h, bind, EStateM.bind, ofExcept_ok_apply, ofExcept_error_apply, store,
    Except.mapError]

theorem create_of_addChild_error {q : Nat} (hq : x.store.tree.resolve root names = .ok q)
    (ha : Tree.addChild q name data mode session x.store.tree = .error e x.store.tree) :
    create root path data mode session x = .error e x := by
  simp [create, hsplit, hq, ha, bind, EStateM.bind, ofExcept_ok_apply, store, onTree,
    Except.mapError]

end Split

end Edit

/-- The errors that the operations of a handle report when they fail on a path, with `P` the
stored path of the handle's root: each names `P` followed by the path given, or by the part of
it that was walked, and so starts with a separator. -/
structure Handle.AbsoluteErrors (h : Handle) (sv : Service) (P : String) : Prop where
  /-- A walk down names from the root that fails stops at its first missing name `s`: the
  names before it lead to a node that has no child `s`, and the error names `P` followed by
  the names up to `s`. -/
  walk : ∀ {names : List String} {e : DirError}, sv.store.tree.resolve h.root names = .error e →
    ∃ pre s rest q qn, names = pre ++ s :: rest ∧ sv.store.tree.resolve h.root pre = .ok q ∧
      sv.store.tree.nodes[q]? = some qn ∧ qn.children[s]? = none ∧
      e = .notFound (P ++ "/" ++ "/".intercalate (pre ++ [s]))
  /-- A replacement, a read and a deletion whose path leads to no node fail with the error of
  the walk down its names. -/
  missing : ∀ {p : String} {names : List String} {e : DirError}, Path.segments p = .ok names →
    sv.store.tree.resolve h.root names = .error e →
    (∀ d, (h.update sv p d).result = .error e) ∧ (∀ w, h.get sv p w = .error e) ∧
      (∀ w, h.children sv p w = .error e) ∧ (h.delete sv p).result = .error e
  /-- A creation whose parent path leads to no node fails with the error of the walk down the
  parent's names. -/
  missingParent : ∀ {p : String} {parents : List String} {name : String} {e : DirError},
    Path.splitParent p = .ok (parents, name) → sv.store.tree.resolve h.root parents = .error e →
    ∀ d m, (h.add sv p d m).result = .error e
  /-- Deleting a node that has children fails naming `P` followed by the path. -/
  notEmpty : ∀ {p : String} {c : Nat} {cn : Node}, p ≠ "/" → sv.store.resolve h.root p = .ok c →
    sv.store.tree.nodes[c]? = some cn → cn.children ≠ ∅ →
    (h.delete sv p).result = .error (.notEmpty (P ++ p))
  /-- Creating a plain node where one is fails naming `P` followed by the path. -/
  taken : ∀ {p : String} {c : Nat}, p ≠ "/" → sv.store.resolve h.root p = .ok c →
    ∀ d m, m.isSequential = false → (h.add sv p d m).result = .error (.alreadyExists (P ++ p))
  /-- A sequential creation whose numbered name is taken fails naming `P` followed by the path
  and the number. -/
  numberTaken : ∀ {p : String} {parents : List String} {name : String} {q : Nat} {qn : Node},
    Path.splitParent p = .ok (parents, name) → sv.store.tree.resolve h.root parents = .ok q →
    sv.store.tree.nodes[q]? = some qn → qn.mode.isEphemeral = false →
    qn.children.contains (name ++ sequenceSuffix qn.sequence) = true →
    ∀ d m, m.isSequential = true →
      (h.add sv p d m).result = .error (.alreadyExists (P ++ p ++ sequenceSuffix qn.sequence))
  /-- A creation below an ephemeral node fails naming `P` followed by the path as asked,
  without a number. -/
  ephemeralParent : ∀ {p : String} {parents : List String} {name : String} {q : Nat}
    {qn : Node}, Path.splitParent p = .ok (parents, name) →
    sv.store.tree.resolve h.root parents = .ok q → sv.store.tree.nodes[q]? = some qn →
    qn.mode.isEphemeral = true → ∀ d m, (h.add sv p d m).result = .error (.ephemeralParent (P ++ p))
  /-- `P` followed by a path that starts with a separator starts with one. -/
  absolute : ∀ {q : String}, q.toList.head? = some '/' → (P ++ q).toList.head? = some '/'

namespace Handle

variable {sv : Service} (h : Handle) {rn : Node}

/-- Errors name absolute paths. In every reachable state, through every handle whose root node
is there with stored path `P`, an operation that fails on a path reports `P` followed by the
path: a walk that fails stops at its first missing name and names `P` with the names up to it,
and replacing, reading and deleting fail with that error, creating with the error of the walk to
the parent; deleting a node with children, creating a plain node where one is, and creating below
an ephemeral node name `P` with the path as given, and a sequential creation whose numbered name
is taken names it with the number. Each such path starts with a separator. -/
theorem errors_name_absolute_paths (hsv : sv.Reachable)
    (hr : sv.store.tree.nodes[h.root]? = some rn) : h.AbsoluteErrors sv rn.path where
  walk := fun hres => hsv.wf.tree.resolve_eq_error hr hres
  missing := by
    intro p names e hp hres
    have hstore : sv.store.resolve h.root p = .error e := by
      rw [Store.resolve_of_segments hp]
      exact hres
    refine ⟨fun d => (Service.single_of_eq_error (Edit.setData_of_resolve_error hstore)).1,
      fun w => (h.get_eq_error_iff w).2 hstore, fun w => (h.children_eq_error_iff w).2 hstore, ?_⟩
    -- a walk from a present node fails only on a name, so the path has a last one
    obtain ⟨parents, name, hs⟩ : ∃ parents name, Path.splitParent p = .ok (parents, name) := by
      refine Path.splitParent_of_segments hp ?_
      rintro rfl
      rw [Path.segments_eq_nil.2 rfl] at hp
      cases hp
      simp [Tree.resolve_of_get hr, Tree.descend] at hres
    obtain rfl : names = parents ++ [name] := by
      simpa [hp] using Path.splitParent_eq_ok.1 hs
    rcases hsv.wf.tree.resolve_concat_eq_error hr hres with hpar | ⟨q, qn, hq, hqn, hc, rfl⟩
    · exact (Service.single_of_eq_error (Edit.delete_of_resolve_error hs hpar)).1
    · exact (Service.single_of_eq_error (Edit.delete_of_deleteChild_error hs hq
        (Tree.deleteChild_of_absent hqn hc))).1
  missingParent := by
    intro p parents name e hs hres d m
    exact (Service.single_of_eq_error (Edit.create_of_resolve_error hs hres)).1
  notEmpty := by
    intro p c cn hp hres hc hkids
    obtain ⟨parents, name, q, qn, hs, hq, hqn, hchild⟩ := Store.parent_of_resolve hres hp
    rw [← hsv.wf.tree.join_path_of_splitParent hr hs hq hqn]
    exact (Service.single_of_eq_error (Edit.delete_of_deleteChild_error hs hq
      (Tree.deleteChild_of_nonempty hqn hchild hc hkids))).1
  taken := by
    intro p c hp hres d m hseq
    obtain ⟨parents, name, q, qn, hs, hq, hqn, hchild⟩ := Store.parent_of_resolve hres hp
    have htaken : qn.children.contains name = true := by
      simp [Std.ExtTreeMap.contains_eq_isSome_getElem?, hchild]
    rw [← hsv.wf.tree.join_path_of_splitParent hr hs hq hqn]
    exact (Service.single_of_eq_error (Edit.create_of_addChild_error hs hq
      (Tree.addChild_of_taken hqn hseq htaken))).1
  numberTaken := by
    intro p parents name q qn hs hq hqn heph htaken d m hseq
    rw [← hsv.wf.tree.join_path_of_splitParent hr hs hq hqn, ← Path.join_append]
    exact (Service.single_of_eq_error
      (Edit.create_of_sequential_taken hs hq hqn heph hseq htaken)).1
  ephemeralParent := by
    intro p parents name q qn hs hq hqn heph d m
    -- an ephemeral node has no children, so the name as asked is free there
    have hfree : qn.children.contains name = false := by
      simp [hsv.wf.tree.leaf hqn heph]
    rw [← hsv.wf.tree.join_path_of_splitParent hr hs hq hqn]
    exact (Service.single_of_eq_error (Edit.create_of_addChild_error hs hq
      (Tree.addChild_of_ephemeral hqn heph hfree))).1
  absolute := by
    intro q hq
    rcases hsv.wf.tree.stored_path hr with hP | ⟨hP, hP'⟩
    · simpa [hP] using hq
    · obtain ⟨rest, hl, -⟩ := Path.toList_of_segments hP hP'
      simp [String.toList_append, hl]

end Handle

/-- On the first store, the handle on the root reports the paths of its errors from the root's
empty path. -/
theorem errors_name_absolute_paths_at_root :
    Service.empty.Reachable ∧
      Service.empty.store.tree.nodes[(Handle.top 0).root]? =
        some (Node.fresh "" none .persistent none) ∧
      (Handle.top 0).AbsoluteErrors Service.empty "" := by
  have hr : Service.empty.store.tree.nodes[(Handle.top 0).root]? =
      some (Node.fresh "" none .persistent none) := by
    simp [Service.empty, Store.empty, Handle.top, Tree.getElem?_empty]
  exact ⟨.empty, hr, Handle.errors_name_absolute_paths (Handle.top 0) .empty hr⟩

/-- Through a handle on the node `/a`, replacing the payload at `/b/c` names `/a/b`, the first
path that is missing. -/
example : (({ root := 1, session := 0 } : Handle).update
    ((Handle.top 0).add Service.empty "/a" none .persistent).service "/b/c" none).result =
      .error (.notFound "/a/b") := by
  decide

end CoordStore
