import CoordStore.Proofs.Service.Sequential
import CoordStore.Proofs.Store.Refine

/-!
# Handles below the root are prefix views

A handle rooted at a node with stored path `P` reads every path `p` it is given as the
absolute path `P` followed by `p` (`Path.below`). Each operation through it is the same
operation through a handle on the tree's root, for the same session, on that absolute path:
the same tree and registry afterwards, the same watchers notified, the same value or error,
except that the paths a creation gives back lose their prefix `P` (`handle_eq_top_below`).

The argument is that resolving `p` from the node is resolving the absolute path from the root
(`Store.resolve_below`): the names of a stored path lead from the root to its node, and a
write through the handle keeps the node and its path, so a whole batch runs below it.
-/

namespace CoordStore

namespace Path

/-- The absolute path of a path `p` given below a node whose stored path is `P`: `P` followed
by `p`, and `P` itself (`/` for the root) when `p` is `/`. -/
def below (P p : String) : String :=
  if p = "/" then (if P = "" then "/" else P) else P ++ p

/-- An absolute path with its first `P.length` characters, the prefix `P`, taken off. -/
def strip (P a : String) : String :=
  String.ofList (a.toList.drop P.length)

theorem pieces_ne_nil (cs : List Char) : pieces cs ≠ [] := by
  rw [pieces_eq_splitOn]
  exact List.splitOn_ne_nil _ _

/-- Only `/` has no names. -/
theorem segments_eq_nil {p : String} : segments p = .ok [] ↔ p = "/" := by
  constructor
  · intro h
    unfold segments at h
    split at h
    · rename_i hp
      exact String.toList_inj.1 (by simpa using hp)
    · rename_i rest _ _
      simp only at h
      split at h
      · cases h
      · simp only [Except.ok.injEq, List.map_eq_nil_iff] at h
        exact absurd h (pieces_ne_nil rest)
    · cases h
  · rintro rfl
    rfl

/-- A path other than `/` is a separator followed by its non-empty words. -/
theorem toList_of_segments {p : String} {names : List String} (h : segments p = .ok names)
    (hp : p ≠ "/") :
    ∃ rest, p.toList = '/' :: rest ∧ (pieces rest).any List.isEmpty = false ∧
      names = (pieces rest).map String.ofList := by
  unfold segments at h
  split at h
  · rename_i hl
    exact absurd (String.toList_inj.1 (by simpa using hl)) hp
  · rename_i rest _ hl
    simp only at h
    split at h
    · cases h
    · rename_i hne
      simp only [Except.ok.injEq] at h
      exact ⟨rest, hl, Bool.eq_false_iff.2 hne, h.symm⟩
  · cases h

/-- The names of two paths one after the other are the names of the first, then those of the
second. -/
theorem segments_append {P q : String} {A B : List String} (hP : segments P = .ok A)
    (hP' : P ≠ "/") (hq : segments q = .ok B) (hq' : q ≠ "/") :
    segments (P ++ q) = .ok (A ++ B) := by
  obtain ⟨restP, hPl, hPe, rfl⟩ := toList_of_segments hP hP'
  obtain ⟨restq, hql, hqe, rfl⟩ := toList_of_segments hq hq'
  have hl : (P ++ q).toList = '/' :: (restP ++ '/' :: restq) := by
    simp [String.toList_append, hPl, hql]
  unfold segments
  rw [hl]
  split
  · rename_i h
    simp at h
  · rename_i rest _ h
    obtain rfl : restP ++ '/' :: restq = rest := by simpa using h
    simp [pieces_append_slash, hPe, hqe]
  · rename_i h
    simp at h

/-- One name below the root. -/
theorem segments_slash_name {name : String} (h : IsName name) :
    segments ("/" ++ name) = .ok [name] := by
  have hne : name.toList ≠ [] := fun he => h.1 (String.toList_inj.1 (by simp [he]))
  have hl : ("/" ++ name).toList = '/' :: name.toList := by simp [String.toList_append]
  unfold segments
  rw [hl]
  split
  · rename_i he
    simp only [List.cons.injEq, true_and] at he
    exact absurd he hne
  · rename_i rest _ he
    obtain rfl : name.toList = rest := by simpa using he
    simp [pieces_of_slash_not_mem h.2, hne]
  · rename_i he
    simp at he

@[simp] theorem namesOf_nil : namesOf [] = [] := rfl

/-- The names of `p` read below a stored path `P`: those of `P`, then those of `p`. -/
theorem segments_below {P p : String} {names : List String}
    (hP : P = "" ∨ segments P = .ok (namesOf P.toList) ∧ P ≠ "/")
    (hp : segments p = .ok names) :
    segments (below P p) = .ok (namesOf P.toList ++ names) := by
  unfold below
  by_cases hroot : p = "/"
  · subst hroot
    rw [segments_eq_nil.2 rfl] at hp
    cases hp
    rcases hP with rfl | ⟨hP, hP'⟩
    · rfl
    · have hne : P ≠ "" := by
        rintro rfl
        simp [segments] at hP
      simp [hne, hP]
  · rw [if_neg hroot]
    rcases hP with rfl | ⟨hP, hP'⟩
    · simpa using hp
    · exact segments_append hP hP' hp hroot

/-- Read below `P`, a path other than `/` has the same last name, and its parent names follow
those of `P`. -/
theorem splitParent_below {P p : String} {names : List String}
    (hP : P = "" ∨ segments P = .ok (namesOf P.toList) ∧ P ≠ "/")
    (hp : segments p = .ok names) (hroot : p ≠ "/") :
    ∃ parents name, splitParent p = .ok (parents, name) ∧
      splitParent (below P p) = .ok (namesOf P.toList ++ parents, name) := by
  have hne : names ≠ [] := by
    rintro rfl
    exact hroot (segments_eq_nil.1 hp)
  obtain ⟨parents, name, rfl⟩ := (List.eq_nil_or_concat names).resolve_left hne
  rw [List.concat_eq_append] at hp
  refine ⟨parents, name, splitParent_eq_ok.2 hp, splitParent_eq_ok.2 ?_⟩
  rw [segments_below hP hp, List.append_assoc]

end Path

namespace Tree.WF

variable {t : Tree} (hwf : t.WF)
include hwf

/-- The names of a stored path below the root are its words. -/
theorem segments_path {i : Nat} {n : Node} (hn : t.nodes[i]? = some n) (hi : i ≠ rootId) :
    Path.segments n.path = .ok (Path.namesOf n.path.toList) := by
  -- strong induction on the length of the path, through the parent
  induction hlen : n.path.length using Nat.strongRecOn generalizing i n with
  | ind len ih =>
    obtain ⟨p, pn, name, hp, -, hname, hpath, hlt⟩ := hwf.exists_parent hn hi
    have hjoin : Path.join pn.path name = pn.path ++ ("/" ++ name) :=
      String.toList_inj.1 (by simp [Path.toList_join (hwf.unslashed hp), String.toList_append])
    rw [hpath, Path.namesOf_join (hwf.unslashed hp) hname, hjoin]
    by_cases hpr : p = rootId
    · subst hpr
      rw [hwf.path_root hp]
      simpa using Path.segments_slash_name hname
    · have hslash : pn.path ≠ "/" := fun h => hwf.unslashed hp (by simp [h])
      have hname' : "/" ++ name ≠ "/" := fun h => hname.1 (by simpa using h)
      exact Path.segments_append (ih _ (hlen ▸ hlt) hp hpr rfl) hslash
        (Path.segments_slash_name hname) hname'

/-- A stored path is the root's empty path, or a path with names other than `/`. -/
theorem stored_path {i : Nat} {n : Node} (hn : t.nodes[i]? = some n) :
    n.path = "" ∨ Path.segments n.path = .ok (Path.namesOf n.path.toList) ∧ n.path ≠ "/" := by
  by_cases hroot : i = rootId
  · subst hroot
    exact .inl (hwf.path_root hn)
  · exact .inr ⟨hwf.segments_path hn hroot, fun h => hwf.unslashed hn (by simp [h])⟩

/-- Resolving from the root the names of a node's path and then more names is resolving those
from the node. -/
theorem resolve_namesOf_append {r : Nat} {rn : Node} (hr : t.nodes[r]? = some rn)
    (names : List String) :
    t.resolve rootId (Path.namesOf rn.path.toList ++ names) = t.resolve r names := by
  obtain ⟨root, hroot, -⟩ := hwf.root
  have hwalk := hwf.resolve_namesOf hr
  rw [resolve_of_get hroot] at hwalk ⊢
  rw [descend_append names hroot hwalk hr, resolve_of_get hr]

end Tree.WF

namespace Store

/-- A path read from a node of a well-formed tree is its absolute path read from the root. -/
theorem resolve_below {s : Store} (hwf : s.tree.WF) {r : Nat} {rn : Node}
    (hr : s.tree.nodes[r]? = some rn) {p : String} {names : List String}
    (hp : Path.segments p = .ok names) :
    s.resolve Tree.rootId (Path.below rn.path p) = s.resolve r p := by
  simp only [Store.resolve, Path.segments_below (hwf.stored_path hr) hp, hp, Except.mapError,
    bind, Except.bind, hwf.resolve_namesOf_append hr]

end Store

/-! ## Writes below a node -/

namespace Write

/-- The write on absolute paths that a write given below a node with stored path `P` is. -/
def below (P : String) : Write → Write
  | create p d m => create (Path.below P p) d m
  | setData p d => setData (Path.below P p) d
  | delete p => delete (Path.below P p)

/-- The paths a view below a node reads as it is: paths with names, other than `/` for a
creation or a deletion. -/
def Accepted : Write → Prop
  | create p _ _ => (∃ names, Path.segments p = .ok names) ∧ p ≠ "/"
  | setData p _ => ∃ names, Path.segments p = .ok names
  | delete p => (∃ names, Path.segments p = .ok names) ∧ p ≠ "/"

end Write

namespace BatchOp

/-- A batch operation with its path read below a node with stored path `P`. -/
def below (P : String) : BatchOp → BatchOp
  | create p d m => create (Path.below P p) d m
  | setData p d => setData (Path.below P p) d
  | delete p => delete (Path.below P p)
  | check p v => check (Path.below P p) v

/-- A batch operation whose write, if it has one, is accepted. -/
def Accepted (op : BatchOp) : Prop :=
  ∀ w ∈ op.toWrite?, w.Accepted

theorem toWrite?_below (P : String) (op : BatchOp) :
    (op.below P).toWrite? = op.toWrite?.map (Write.below P) := by
  cases op <;> rfl

theorem mapM_toWrite?_below (P : String) :
    ∀ ops : List BatchOp,
      (ops.map (below P)).mapM toWrite? = (ops.mapM toWrite?).map (List.map (Write.below P))
  | [] => rfl
  | op :: ops => by
    rw [List.map_cons, List.mapM_cons, List.mapM_cons, toWrite?_below, mapM_toWrite?_below P ops]
    cases op.toWrite? <;> cases ops.mapM toWrite? <;> rfl

theorem map_toOp_below (P : String) (ws : List Write) :
    (ws.map Write.toOp).map (below P) = (ws.map (Write.below P)).map Write.toOp := by
  induction ws with
  | nil => rfl
  | cons w ws ih =>
    cases w <;> simp only [List.map_cons, ih] <;> rfl

end BatchOp

/-- A result with the path a creation gives back written below `P`. -/
def OpResult.strip (P : String) : OpResult → OpResult
  | create p => create (Path.strip P p)
  | r => r

/-! ## Edits below a node -/

namespace Edit

variable {x : Txn} {root root' : Nat} {path path' : String} {data : Option (List UInt8)}
  {mode : CreateMode} {session : Int}

/-- Two creations whose parents resolve alike and that take the same last name run alike, the
paths they give back related by `f`. -/
theorem create_congr {names names' : List String} {name : String} (f : String → String)
    (hs : Path.splitParent path = .ok (names, name))
    (hs' : Path.splitParent path' = .ok (names', name))
    (h : x.store.tree.resolve root names = x.store.tree.resolve root' names')
    (hrel : ∀ parent a c t,
      Tree.addChild parent name data mode session x.store.tree = .ok (a, c) t →
      ({ x.store with tree := t } : Store).relative root a =
        f <$> ({ x.store with tree := t } : Store).relative root' a) :
    create root path data mode session x = (f <$> create root' path' data mode session) x := by
  simp only [create, bind, EStateM.bind, store, hs, hs', Except.mapError, ofExcept, pure,
    EStateM.pure, Functor.map, EStateM.map]
  rw [h]
  cases x.store.tree.resolve root' names' with
  | error e => rfl
  | ok parent =>
    simp only [EStateM.pure, onTree]
    cases hadd : Tree.addChild parent name data mode session x.store.tree with
    | error e t => rfl
    | ok r t =>
      simp only [hrel parent r.1 r.2 t hadd]
      cases ({ x.store with tree := t } : Store).relative root' r.1 <;> rfl

/-- Two payload replacements at paths that resolve alike run alike. -/
theorem setData_congr (h : x.store.resolve root path = x.store.resolve root' path') :
    setData root path data x = setData root' path' data x := by
  simp only [setData, bind, EStateM.bind, store]
  rw [h]

/-- Two deletions whose parents resolve alike and that take the same last name run alike. -/
theorem delete_congr {names names' : List String} {name : String}
    (hs : Path.splitParent path = .ok (names, name))
    (hs' : Path.splitParent path' = .ok (names', name))
    (h : x.store.tree.resolve root names = x.store.tree.resolve root' names') :
    delete root path x = delete root' path' x := by
  simp only [delete, bind, EStateM.bind, store, hs, hs', Except.mapError, ofExcept, pure,
    EStateM.pure]
  rw [h]

section Below

variable {rn : Node} (hwf : x.store.tree.WF) (hr : x.store.tree.nodes[root]? = some rn)
include hwf hr

theorem setData_below {names : List String} (hp : Path.segments path = .ok names) :
    setData root path data x = setData Tree.rootId (Path.below rn.path path) data x :=
  setData_congr (Store.resolve_below hwf hr hp).symm

theorem delete_below {names : List String} (hp : Path.segments path = .ok names)
    (hroot : path ≠ "/") :
    delete root path x = delete Tree.rootId (Path.below rn.path path) x := by
  obtain ⟨parents, name, hs, hs'⟩ := Path.splitParent_below (hwf.stored_path hr) hp hroot
  exact delete_congr hs hs' (hwf.resolve_namesOf_append hr parents).symm

/-- A creation below a node is the creation at the absolute path, the path it gives back
without the node's path: the node and the root keep their paths through the creation. -/
theorem create_below {names : List String} (hp : Path.segments path = .ok names)
    (hroot : path ≠ "/") :
    create root path data mode session x =
      (Path.strip rn.path <$>
        create Tree.rootId (Path.below rn.path path) data mode session) x := by
  obtain ⟨parents, name, hs, hs'⟩ := Path.splitParent_below (hwf.stored_path hr) hp hroot
  refine create_congr _ hs hs' (hwf.resolve_namesOf_append hr parents).symm ?_
  intro parent a c t hadd
  obtain ⟨top, htop, htop_path⟩ := hwf.root
  obtain ⟨rn', hrn', hpath⟩ := hwf.get_of_addChild_eq_ok hadd hr
  obtain ⟨top', htop', htop_path'⟩ := hwf.get_of_addChild_eq_ok hadd htop
  rw [Store.relative_of_get hrn', Store.relative_of_get htop', hpath, htop_path', htop_path]
  simp [Path.strip, Functor.map, Except.map]

theorem apply_below {w : Write} (hw : w.Accepted) :
    apply root session w x =
      (OpResult.strip rn.path <$> apply Tree.rootId session (w.below rn.path)) x := by
  cases w with
  | create p d m =>
    obtain ⟨⟨names, hp⟩, hroot⟩ := hw
    simp only [apply, Write.below, Functor.map, EStateM.map, create_below hwf hr hp hroot]
    cases create Tree.rootId (Path.below rn.path p) d m session x <;> rfl
  | setData p d =>
    obtain ⟨names, hp⟩ := hw
    simp only [apply, Write.below, Functor.map, EStateM.map, setData_below hwf hr hp]
    cases setData Tree.rootId (Path.below rn.path p) d x <;> rfl
  | delete p =>
    obtain ⟨⟨names, hp⟩, hroot⟩ := hw
    simp only [apply, Write.below, Functor.map, EStateM.map, delete_below hwf hr hp hroot]
    cases delete Tree.rootId (Path.below rn.path p) x <;> rfl

end Below

/-- A batch below a node is the batch on absolute paths, with the paths it gives back written
below the node: each write keeps the node and its path, so the next one runs below it too. -/
theorem mapM_apply_below : ∀ (ws : List Write) {x : Txn} {rn : Node}, x.store.WF →
    x.store.tree.nodes[root]? = some rn → (∀ w ∈ ws, w.Accepted) →
    ws.mapM (apply root session) x =
      (List.map (OpResult.strip rn.path) <$>
        (ws.map (Write.below rn.path)).mapM (apply Tree.rootId session)) x
  | [], _, _, _, _, _ => rfl
  | w :: ws, x, rn, hwf, hr, hacc => by
    have hone : apply root session w x =
        (OpResult.strip rn.path <$> apply Tree.rootId session (w.below rn.path)) x :=
      apply_below hwf.tree hr (hacc w List.mem_cons_self)
    rw [List.map_cons, List.mapM_cons, List.mapM_cons]
    simp only [bind, EStateM.bind, Functor.map, EStateM.map] at hone ⊢
    rw [hone]
    cases happ : apply Tree.rootId session (w.below rn.path) x with
    | error e y => rfl
    | ok b y =>
      have hlhs : apply root session w x = .ok (OpResult.strip rn.path b) y := by
        rw [hone, happ]
      -- the rest of the batch runs below the same node, which kept its path
      have hywf : y.store.WF := Store.WF.steps hwf ((stepwise_apply w x).1 _ y hlhs)
      obtain ⟨rn', hr', hpath⟩ := apply_keeps_root hwf.tree hr hlhs
      have ih := mapM_apply_below ws hywf hr' fun w' hw' => hacc w' (List.mem_cons_of_mem w hw')
      rw [hpath] at ih
      simp only [Functor.map, EStateM.map] at ih
      simp only [ih]
      cases (ws.map (Write.below rn.path)).mapM (apply Tree.rootId session) y <;> rfl

end Edit

/-! ## Handles below a node -/

namespace Handle

variable {sv : Service} {h : Handle} {rn : Node} (hwf : sv.store.WF)
  (hr : sv.store.tree.nodes[h.root]? = some rn)
include hwf hr

section Paths

variable {p : String} {names : List String} (hp : Path.segments p = .ok names)
include hp

theorem get_below (w : Option Nat) :
    h.get sv p w = (top h.session).get sv (Path.below rn.path p) w := by
  simp only [get, top, Store.getData, Store.resolve_below hwf.tree hr hp]

theorem children_below (w : Option Nat) :
    h.children sv p w = (top h.session).children sv (Path.below rn.path p) w := by
  simp only [children, top, Store.getChildren, Store.resolve_below hwf.tree hr hp]

theorem has_below : h.has sv p = (top h.session).has sv (Path.below rn.path p) := by
  simp only [has, top, Store.resolve_below hwf.tree hr hp]

theorem update_below (d : Option (List UInt8)) :
    h.update sv p d = (top h.session).update sv (Path.below rn.path p) d := by
  unfold update Service.single
  rw [Edit.setData_below (x := Txn.start sv.store) hwf.tree hr hp]
  rfl

theorem add_below (hroot : p ≠ "/") (d : Option (List UInt8)) (m : CreateMode) :
    h.add sv p d m =
      ((top h.session).add sv (Path.below rn.path p) d m).map (Path.strip rn.path) := by
  rw [add, add, ← Service.single_map]
  unfold Service.single
  rw [Edit.create_below (x := Txn.start sv.store) hwf.tree hr hp hroot]
  rfl

theorem delete_below (hroot : p ≠ "/") :
    h.delete sv p = (top h.session).delete sv (Path.below rn.path p) := by
  unfold delete Service.single
  rw [Edit.delete_below (x := Txn.start sv.store) hwf.tree hr hp hroot]
  rfl

end Paths

/-- A batch below a node is the batch on absolute paths: refused, kept or taken back alike,
with the paths of its creations written below the node. -/
theorem multi_below (ops : List BatchOp) (hacc : ∀ op ∈ ops, op.Accepted) :
    h.multi sv ops =
      ((top h.session).multi sv (ops.map (BatchOp.below rn.path))).map
        (List.map (OpResult.strip rn.path)) := by
  cases hm : ops.mapM BatchOp.toWrite? with
  | none =>
    -- a check refuses both batches before anything runs
    have hm' : (ops.map (BatchOp.below rn.path)).mapM BatchOp.toWrite? = none := by
      rw [BatchOp.mapM_toWrite?_below, hm]
      rfl
    simp only [multi, hm, hm']
    rfl
  | some ws =>
    obtain rfl := BatchOp.mapM_toWrite?_eq_some.1 hm
    have hacc' : ∀ w ∈ ws, w.Accepted := fun w hw =>
      hacc w.toOp (List.mem_map_of_mem hw) w (Write.toWrite?_toOp w)
    rw [BatchOp.map_toOp_below, multi_map_toOp, multi_map_toOp,
      Edit.mapM_apply_below ws hwf hr hacc']
    simp only [top, Functor.map, EStateM.map]
    cases (ws.map (Write.below rn.path)).mapM (Edit.apply Tree.rootId h.session)
      (Txn.start sv.store) <;> rfl

end Handle

/-- The handle `h` reads every path `p` with names as the handle on the tree's root, for the
same session, reads `Path.below P p`: each operation leaves the same service, notifies the same
watchers and gives the same value or error, except that the paths creations give back lose
the prefix `P`. A creation or a deletion at `/` is left out: below a node it names the node. -/
structure Handle.ViewsBelow (h : Handle) (sv : Service) (P : String) : Prop where
  get : ∀ {p names}, Path.segments p = .ok names → ∀ w,
    h.get sv p w = (Handle.top h.session).get sv (Path.below P p) w
  children : ∀ {p names}, Path.segments p = .ok names → ∀ w,
    h.children sv p w = (Handle.top h.session).children sv (Path.below P p) w
  has : ∀ {p names}, Path.segments p = .ok names →
    h.has sv p = (Handle.top h.session).has sv (Path.below P p)
  update : ∀ {p names}, Path.segments p = .ok names → ∀ d,
    h.update sv p d = (Handle.top h.session).update sv (Path.below P p) d
  add : ∀ {p names}, Path.segments p = .ok names → p ≠ "/" → ∀ d m,
    h.add sv p d m = ((Handle.top h.session).add sv (Path.below P p) d m).map (Path.strip P)
  delete : ∀ {p names}, Path.segments p = .ok names → p ≠ "/" →
    h.delete sv p = (Handle.top h.session).delete sv (Path.below P p)
  multi : ∀ ops : List BatchOp, (∀ op ∈ ops, op.Accepted) →
    h.multi sv ops =
      ((Handle.top h.session).multi sv (ops.map (BatchOp.below P))).map
        (List.map (OpResult.strip P))

/-- In every reachable service, a handle rooted at a present node, such as one a handle gives
for a path below its root, however nested, is a view of the tree below that node's stored
path. -/
theorem handle_eq_top_below {sv : Service} (hsv : sv.Reachable) {h : Handle} {rn : Node}
    (hr : sv.store.tree.nodes[h.root]? = some rn) : h.ViewsBelow sv rn.path := by
  have hwf := hsv.wf
  exact
    { get := fun hp => Handle.get_below hwf hr hp
      children := fun hp => Handle.children_below hwf hr hp
      has := fun hp => Handle.has_below hwf hr hp
      update := fun hp => Handle.update_below hwf hr hp
      add := fun hp hroot => Handle.add_below hwf hr hp hroot
      delete := fun hp hroot => Handle.delete_below hwf hr hp hroot
      multi := Handle.multi_below hwf hr }

/-- After `/a` is created, the handle rooted at it views the tree below `/a`. -/
theorem handle_eq_top_below_at_a :
    ((Action.add (Handle.top 0) "/a" none .persistent).step Service.empty).1.Reachable ∧
      ((Action.add (Handle.top 0) "/a" none .persistent).step
        Service.empty).1.store.tree.nodes[1]? = some (Node.fresh "/a" none .persistent none) ∧
      ({ root := 1, session := 0 } : Handle).ViewsBelow
        ((Action.add (Handle.top 0) "/a" none .persistent).step Service.empty).1 "/a" :=
  ⟨.step _ .empty, rfl, handle_eq_top_below (.step _ .empty)
    (show _ = some (Node.fresh "/a" none .persistent none) from rfl)⟩

end CoordStore
