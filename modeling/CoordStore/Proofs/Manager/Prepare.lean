import CoordStore.Proofs.Service.ErrorPaths
import CoordStore.Proofs.Service.Counter
import CoordStore.Proofs.Service.Atomic
import CoordStore.Proofs.Monitor.EntityRefresh
import CoordStore.Proofs.Path.Grammar

/-!
# Creating an entity with the nodes on the way to it

A manager prepares the creation of an entity as one batch: a plain persistent node for each
path on the way down to its root that is not there yet, then the entity's node
(`Manager.prepareCreate`). Each path is looked up on its own, but in a tree the paths that are
there come first: the names of the root lead down to a deepest node that is there
(`Tree.WF.resolve_split`), every prefix down to it is found and every longer one is not
(`Handle.has_prefixes`). So the batch creates the missing nodes top down, each below the one
before, and the entity's node last (`Write.descent`).

Such a batch goes through exactly when its first creation does (`Handle.multi_descent`): the
deepest node found is not ephemeral and, when no node is missing, has no child named by the
id. A node that has a child is never ephemeral, so the handle's root and the prefixes found
are then persistent too (`Manager.persistent_prefixes_iff`). The handle's root counts: a
manager whose handle is rooted at an ephemeral node creates nothing.
-/

namespace CoordStore

/-! ## The prefixes of a path -/

namespace Path

/-- The paths met going down the names `more` from the path of `base`: `base` with the first
name of `more`, then with the first two, and so on down to all of them. -/
def prefixesFrom (base : List String) : List String → List String
  | [] => []
  | a :: more => ofNames (base ++ [a]) :: prefixesFrom (base ++ [a]) more

@[simp] theorem prefixesFrom_nil (base : List String) : prefixesFrom base [] = [] := rfl

theorem prefixesFrom_append (base as bs : List String) :
    prefixesFrom base (as ++ bs) = prefixesFrom base as ++ prefixesFrom (base ++ as) bs := by
  induction as generalizing base with
  | nil => simp
  | cons a as ih => simp [prefixesFrom, ih]

theorem length_prefixesFrom (base more : List String) :
    (prefixesFrom base more).length = more.length := by
  induction more generalizing base with
  | nil => rfl
  | cons a more ih => simp [prefixesFrom, ih]

/-- Each path met going down from `base` is the path of `base` followed by a non-empty first
part of the names. -/
theorem mem_prefixesFrom {base more : List String} {p : String}
    (h : p ∈ prefixesFrom base more) :
    ∃ mid rest, mid ≠ [] ∧ more = mid ++ rest ∧ p = ofNames (base ++ mid) := by
  induction more generalizing base with
  | nil => simp at h
  | cons a more ih =>
    rcases List.mem_cons.1 h with rfl | h
    · exact ⟨[a], more, by simp, rfl, rfl⟩
    · obtain ⟨mid, rest, -, rfl, rfl⟩ := ih h
      exact ⟨a :: mid, rest, by simp, rfl, by simp⟩

theorem ofNames_mem_prefixesFrom (base mid : List String) (hmid : mid ≠ [])
    (rest : List String) : ofNames (base ++ mid) ∈ prefixesFrom base (mid ++ rest) := by
  induction mid generalizing base with
  | nil => exact absurd rfl hmid
  | cons a mid ih =>
    cases mid with
    | nil => simp [prefixesFrom]
    | cons b mid => simpa [prefixesFrom] using Or.inr (ih (base ++ [a]) (by simp))

theorem splitParent_ofNames {names : List String} {a : String}
    (h : ∀ s ∈ names ++ [a], IsName s) : splitParent (ofNames (names ++ [a])) = .ok (names, a) :=
  splitParent_eq_ok.2 (segments_ofNames h)

theorem join_empty (a : String) : join "" a = ofNames [a] :=
  String.toList_inj.1 (by simp [join, ofNames, trimEnd, String.toList_append])

/-- Joining a name below the path of some names adds it to the names. -/
theorem join_ofNames {names : List String} (h : ∀ s ∈ names, IsName s) (a : String) :
    join (ofNames names) a = ofNames (names ++ [a]) := by
  induction names using List.reverseRecOn generalizing a with
  | nil =>
    apply String.toList_inj.1
    simp [join, ofNames, trimEnd, String.toList_append]
  | append_singleton ns b ih =>
    -- the path of `ns ++ [b]` is `b` joined below that of `ns`, so it ends with no separator
    have hun : Unslashed (ofNames (ns ++ [b])) := by
      rw [← ih (fun s hs => h s (by simp [hs]))]
      exact unslashed_join (h b (by simp))
    rw [join_eq_append hun, ofNames, ofNames,
      String.intercalate_append_of_ne_nil (l := ns ++ [b]) (by simp) (by simp)]
    simp [String.append_assoc]

/-- Building the prefixes of a path one name at a time, each joined below the last one built,
gives the paths met going down the names. -/
theorem foldl_join_eq_prefixesFrom {more : List String} : ∀ {acc base : List String},
    (∀ s ∈ base ++ more, IsName s) → (∀ a, join (acc.getLastD "") a = ofNames (base ++ [a])) →
    more.foldl (fun acc n => acc ++ [join (acc.getLastD "") n]) acc =
      acc ++ prefixesFrom base more := by
  induction more with
  | nil =>
    intro acc base _ _
    simp
  | cons a more ih =>
    intro acc base hnames hacc
    -- the prefix just built is the path of the names so far, so the next joins below it
    have hnext : ∀ b, join ((acc ++ [ofNames (base ++ [a])]).getLastD "") b =
        ofNames (base ++ [a] ++ [b]) := by
      intro b
      rw [List.getLastD_eq_getLast?, List.getLast?_concat, Option.getD_some]
      exact join_ofNames (fun s hs => hnames s (by
        simp only [List.mem_append, List.mem_cons] at hs ⊢; tauto)) b
    rw [List.foldl_cons, hacc a, ih (fun s hs => hnames s (by simpa using hs)) hnext]
    simp [prefixesFrom]

end Path

/-! ## Walks that stop, and walks through a new node -/

namespace Tree

variable {t : Tree}

/-- One step further down a walk, to a present child. -/
theorem resolve_concat_of_child {r q c : Nat} {qn cn : Node} {pre : List String} {a : String}
    (hq : t.resolve r pre = .ok q) (hqn : t.nodes[q]? = some qn)
    (ha : qn.children[a]? = some c) (hc : t.nodes[c]? = some cn) :
    t.resolve r (pre ++ [a]) = .ok c := by
  obtain ⟨rn, hrn⟩ := get_of_resolve_eq_ok hq
  rw [resolve_of_get hrn] at hq ⊢
  rw [descend_append [a] hrn hq hqn]
  exact descend_single ha hc

/-- A walk that reaches a node without a child named `a` finds nothing down `a`. -/
theorem resolve_of_child_missing {r q : Nat} {qn : Node} {pre : List String} {a : String}
    (hq : t.resolve r pre = .ok q) (hqn : t.nodes[q]? = some qn) (ha : qn.children[a]? = none)
    (rest : List String) : (t.resolve r (pre ++ a :: rest)).toBool = false := by
  cases hc : t.resolve r (pre ++ a :: rest) with
  | error _ => rfl
  | ok c =>
    rw [show pre ++ a :: rest = (pre ++ [a]) ++ rest by simp] at hc
    obtain ⟨q1, -, hq1, -, -⟩ := resolve_append_eq_ok hc
    obtain ⟨q', qn', hq', hqn', ha'⟩ := resolve_concat_eq_ok hq1
    rw [hq] at hq'
    cases hq'
    rw [hqn] at hqn'
    cases hqn'
    simp [ha] at ha'

namespace WF

variable (hwf : t.WF)
include hwf

/-- A node with a child is not ephemeral. -/
theorem persistent_of_child {p c : Nat} {pn : Node} {a : String} (hp : t.nodes[p]? = some pn)
    (hc : pn.children[a]? = some c) : pn.mode.isEphemeral = false := by
  cases heph : pn.mode.isEphemeral with
  | false => rfl
  | true => simp [hwf.leaf hp heph] at hc

/-- A node that a walk goes on from is not ephemeral. -/
theorem persistent_of_resolve_cons {r c c' : Nat} {cn : Node} {mid rest : List String}
    {b : String} (hgo : t.resolve r (mid ++ b :: rest) = .ok c')
    (hc : t.resolve r mid = .ok c) (hcn : t.nodes[c]? = some cn) :
    cn.mode.isEphemeral = false := by
  rw [show mid ++ b :: rest = (mid ++ [b]) ++ rest by simp] at hgo
  obtain ⟨q1, -, hq1, -, -⟩ := resolve_append_eq_ok hgo
  obtain ⟨q', qn', hq', hqn', hb⟩ := resolve_concat_eq_ok hq1
  rw [hc] at hq'
  cases hq'
  rw [hcn] at hqn'
  cases hqn'
  exact hwf.persistent_of_child hcn hb

/-- One name down from a node a walk reaches is found exactly when the node has that child. -/
theorem resolve_concat_toBool {r q : Nat} {qn : Node} {pre : List String}
    (hq : t.resolve r pre = .ok q) (hqn : t.nodes[q]? = some qn) (a : String) :
    (t.resolve r (pre ++ [a])).toBool = qn.children[a]?.isSome := by
  cases ha : qn.children[a]? with
  | some c =>
    obtain ⟨cn, hcn⟩ := hwf.present ⟨qn, hqn, ha⟩
    simp [resolve_concat_of_child hq hqn ha hcn, Except.toBool]
  | none => simpa using resolve_of_child_missing hq hqn ha []

variable {r : Nat} {rn : Node} (hr : t.nodes[r]? = some rn)
include hr

/-- The names of a path lead from a node down to a deepest node that is there: a first part of
the names is walked, and the node it reaches has no child named by the next one. -/
theorem resolve_split (names : List String) :
    ∃ pre more q qn, names = pre ++ more ∧ t.resolve r pre = .ok q ∧ t.nodes[q]? = some qn ∧
      ∀ a rest, more = a :: rest → qn.children[a]? = none := by
  cases h : t.resolve r names with
  | ok q =>
    obtain ⟨qn, hqn⟩ := get_of_resolve_eq_ok' h
    exact ⟨names, [], q, qn, by simp, h, hqn, by simp⟩
  | error e =>
    obtain ⟨pre, s, rest, q, qn, rfl, hq, hqn, hs, -⟩ := hwf.resolve_eq_error hr h
    exact ⟨pre, s :: rest, q, qn, rfl, hq, hqn, by rintro a rest' ⟨rfl, rfl⟩; exact hs⟩

end WF

section AddNode

variable {p : Nat} {pn : Node} {name : String} {seq : Nat} {data : Option (List UInt8)}
  {mode : CreateMode} {owner : Option Int}

/-- After a creation the new node is found one name below its parent. -/
theorem resolve_addNode (hwf : t.WF) (hp : t.nodes[p]? = some pn)
    (hfree : pn.children[name]? = none) {r : Nat} {base : List String}
    (hq : t.resolve r base = .ok p) :
    (t.addNode p pn name seq data mode owner).resolve r (base ++ [name]) = .ok t.nextId := by
  have hpc : t.nextId ≠ p := Nat.ne_of_gt (hwf.fresh hp)
  have hp' : (t.addNode p pn name seq data mode owner).nodes[p]? =
      some { pn with sequence := seq, children := pn.children.insert name t.nextId } := by
    simp [getElem?_addNode, hpc]
  -- the walk to the parent uses old links only, and they all stay
  have hkept := resolve_of_kept
    (fun q m d hc => .inl ((childAt_addNode hwf hp hfree).2 (.inl hc))) hq ⟨_, hp'⟩
  have hnew : (t.addNode p pn name seq data mode owner).nodes[t.nextId]? =
      some (Node.fresh (Path.join pn.path name) data mode owner) := by
    simp [getElem?_addNode]
  exact resolve_concat_of_child hkept hp' (by simp) hnew

end AddNode

end Tree

/-! ## One creation, and creations one below the other -/

namespace Tree

variable {t : Tree} {p : Nat} {pn : Node} {name : String} {data : Option (List UInt8)}
  {mode : CreateMode} {owner : Int}

/-- A plain creation below a present persistent node, under a name free there, adds the child
with the next number and leaves the parent's counter. -/
theorem addChild_of_free (hp : t.nodes[p]? = some pn) (heph : pn.mode.isEphemeral = false)
    (hseq : mode.isSequential = false) (hfree : pn.children[name]? = none) :
    addChild p name data mode owner t =
      .ok (Path.join pn.path name, .created p name t.nextId)
        (t.addNode p pn name pn.sequence data mode
          (if mode.isEphemeral then some owner else none)) := by
  have hnc : pn.children.contains name = false := by
    simp [Std.ExtTreeMap.contains_eq_isSome_getElem?, hfree]
  simp only [addChild, hp, hseq, heph, childName_of_not_sequential hseq, hnc]
  rfl

end Tree

namespace Edit

variable {root : Nat} {path : String} {data : Option (List UInt8)} {mode : CreateMode}
  {session : Int} {x : Txn} {parents : List String} {name : String} {q : Nat} {pn : Node}

/-- A plain creation below a present persistent parent, under a name free there, creates the
child with the next number. -/
theorem create_of_free (hsplit : Path.splitParent path = .ok (parents, name))
    (hq : x.store.tree.resolve root parents = .ok q) (hpn : x.store.tree.nodes[q]? = some pn)
    (heph : pn.mode.isEphemeral = false) (hseq : mode.isSequential = false)
    (hfree : pn.children[name]? = none) :
    ∃ a, create root path data mode session x =
      .ok a (x.applied
        (x.store.tree.addNode q pn name pn.sequence data mode
          (if mode.isEphemeral then some session else none))
        (.created q name x.store.tree.nextId)) := by
  have hadd : Tree.addChild q name data mode session x.store.tree =
      .ok (Path.join pn.path name, .created q name x.store.tree.nextId)
        (x.store.tree.addNode q pn name pn.sequence data mode
          (if mode.isEphemeral then some session else none)) :=
    Tree.addChild_of_free hpn heph hseq hfree
  -- the handle's root is there before, so also after: the path given back is found
  obtain ⟨rn, hrn⟩ := Tree.get_of_resolve_eq_ok hq
  obtain ⟨rn', hrn'⟩ : ∃ rn', (x.store.tree.addNode q pn name pn.sequence data mode
      (if mode.isEphemeral then some session else none)).nodes[root]? = some rn' := by
    rw [Tree.getElem?_addNode]
    split_ifs <;> simp [hrn]
  exact ⟨_, create_eq_ok.2 ⟨parents, name, q, _, _, _, hsplit, hq, hadd,
    Store.relative_of_get (s := { x.store with tree := _ }) hrn' _, rfl⟩⟩

end Edit

namespace Reply

variable {α β : Type} (f : α → β) (r : Reply α)

@[simp] theorem result_map : (r.map f).result = f <$> r.result := rfl

@[simp] theorem service_map : (r.map f).service = r.service := rfl

end Reply

namespace Write

/-- The writes that create plain persistent nodes one below the other down the names `more`
from the path of `base`, then the node `x` with payload `d` below the last of them. -/
def descent (base more : List String) (x : String) (d : Option (List UInt8)) : List Write :=
  (Path.prefixesFrom base more).map (fun p => .create p none .persistent) ++
    [.create (Path.ofNames (base ++ more ++ [x])) d .persistent]

variable (base : List String) (x : String) (d : Option (List UInt8))

theorem descent_nil : descent base [] x d = [.create (Path.ofNames (base ++ [x])) d .persistent] := by
  simp [descent]

theorem descent_cons (b : String) (more : List String) :
    descent base (b :: more) x d =
      .create (Path.ofNames (base ++ [b])) none .persistent :: descent (base ++ [b]) more x d := by
  simp [descent, Path.prefixesFrom]

end Write

namespace Handle

variable (h : Handle) {sv : Service} {path : String} {parents : List String} {name : String}
  {q : Nat} {qn : Node}

section Create

variable (hsplit : Path.splitParent path = .ok (parents, name))
  (hq : sv.store.tree.resolve h.root parents = .ok q)
include hsplit hq

/-- A plain creation through a handle, below a present persistent node under a name free there,
goes through and adds the child to the tree. -/
theorem add_of_free (data : Option (List UInt8)) (mode : CreateMode)
    (hqn : sv.store.tree.nodes[q]? = some qn)
    (heph : qn.mode.isEphemeral = false) (hseq : mode.isSequential = false)
    (hfree : qn.children[name]? = none) :
    (∃ a, (h.add sv path data mode).result = .ok a) ∧
      (h.add sv path data mode).service.store.tree =
        sv.store.tree.addNode q qn name qn.sequence data mode
          (if mode.isEphemeral then some h.session else none) := by
  obtain ⟨a, ha⟩ := Edit.create_of_free (x := Txn.start sv.store) hsplit hq hqn heph hseq hfree
  obtain ⟨hres, hstore⟩ := Service.single_of_eq_ok ha
  rw [add, hres, hstore]
  exact ⟨⟨a, rfl⟩, by simp [Txn.start]⟩

/-- A creation through a handle that the tree refuses fails with the tree's error. -/
theorem add_of_addChild_error {data : Option (List UInt8)} {mode : CreateMode} {e : DirError}
    (ha : Tree.addChild q name data mode h.session sv.store.tree = .error e sv.store.tree) :
    (h.add sv path data mode).result = .error e :=
  (Service.single_of_eq_error (Edit.create_of_addChild_error (x := Txn.start sv.store) hsplit hq
    ha)).1

end Create

@[simp] theorem oneByOne_nil : h.oneByOne [] sv = (.ok [], sv, []) := rfl

theorem oneByOne_cons_of_error (ws : List Write) {w : Write} {e : DirError}
    (hw : (h.write sv w).result = .error e) : (h.oneByOne (w :: ws) sv).1 = .error e := by
  simp [oneByOne, hw]

theorem oneByOne_cons_of_ok (ws : List Write) {w : Write} {a : OpResult}
    (hw : (h.write sv w).result = .ok a) :
    (h.oneByOne (w :: ws) sv).1 = (a :: ·) <$> (h.oneByOne ws (h.write sv w).service).1 ∧
      (h.oneByOne (w :: ws) sv).2.1 = (h.oneByOne ws (h.write sv w).service).2.1 := by
  simp [oneByOne, hw]

section Descent

variable (x : String) (d : Option (List UInt8))

/-- The creation of a free name below a persistent node that a walk reaches goes through; the
name then resolves to a fresh node, numbered next, with the given payload. -/
theorem write_create_of_free {sv : Service} {base : List String} {b : String} {q : Nat}
    {qn : Node} (hwf : sv.store.WF) (hnames : ∀ s ∈ base ++ [b], Path.IsName s)
    (hq : sv.store.tree.resolve h.root base = .ok q) (hqn : sv.store.tree.nodes[q]? = some qn)
    (heph : qn.mode.isEphemeral = false) (hfree : qn.children[b]? = none)
    (data : Option (List UInt8)) :
    (∃ a, (h.write sv (.create (Path.ofNames (base ++ [b])) data .persistent)).result =
        .ok (.create a)) ∧
      (h.write sv (.create (Path.ofNames (base ++ [b])) data .persistent)).service.store.WF ∧
      (h.write sv (.create (Path.ofNames (base ++ [b])) data .persistent)).service.store.tree.resolve
        h.root (base ++ [b]) = .ok sv.store.tree.nextId ∧
      (h.write sv (.create (Path.ofNames (base ++ [b])) data .persistent)).service.store.tree.nodes[
        sv.store.tree.nextId]? = some (Node.fresh (Path.join qn.path b) data .persistent none) := by
  have hsplit : Path.splitParent (Path.ofNames (base ++ [b])) = .ok (base, b) :=
    Path.splitParent_ofNames hnames
  obtain ⟨⟨a, ha⟩, htree⟩ := h.add_of_free hsplit hq data .persistent hqn heph rfl hfree
  refine ⟨⟨a, by simp [write, ha]⟩, ?_, ?_, ?_⟩
  · rw [write, Reply.service_map]
    exact (Action.add h _ data .persistent).wf_step hwf
  · rw [write, Reply.service_map, htree]
    exact Tree.resolve_addNode hwf.tree hqn hfree hq
  · rw [write, Reply.service_map, htree]
    simp [Tree.getElem?_addNode, CreateMode.isEphemeral]

/-- The creations of a descent below a persistent node, whose child named first is free, go
through one after the other: each creates a node with no children yet below the one before,
and the last leaves the node `x` with its payload at the end of the names. -/
theorem oneByOne_descent : ∀ (more : List String) {sv : Service} {base : List String} {q : Nat}
    {qn : Node}, sv.store.WF → (∀ s ∈ base ++ more ++ [x], Path.IsName s) →
    sv.store.tree.resolve h.root base = .ok q → sv.store.tree.nodes[q]? = some qn →
    qn.mode.isEphemeral = false → qn.children[more.headD x]? = none →
    ∃ rs c cn, (h.oneByOne (Write.descent base more x d) sv).1 = .ok rs ∧
      (h.oneByOne (Write.descent base more x d) sv).2.1.store.tree.resolve h.root
        (base ++ more ++ [x]) = .ok c ∧
      (h.oneByOne (Write.descent base more x d) sv).2.1.store.tree.nodes[c]? = some cn ∧
      cn.data = d
  | [], sv, base, q, qn, hwf, hnames, hq, hqn, heph, hfree => by
    obtain ⟨⟨a, hw⟩, -, hc, hcn⟩ :=
      h.write_create_of_free (b := x) hwf (by simpa using hnames) hq hqn heph hfree d
    obtain ⟨hres, hsv⟩ := h.oneByOne_cons_of_ok [] hw
    refine ⟨[.create a], sv.store.tree.nextId, Node.fresh (Path.join qn.path x) d .persistent none,
      ?_, ?_, ?_, rfl⟩
    · rw [Write.descent_nil, hres, oneByOne_nil]
      rfl
    · rw [Write.descent_nil, hsv, oneByOne_nil, List.append_nil]
      exact hc
    · rw [Write.descent_nil, hsv, oneByOne_nil]
      exact hcn
  | b :: more, sv, base, q, qn, hwf, hnames, hq, hqn, heph, hfree => by
    -- the first creation makes `b` a fresh persistent node below `q`, with no children
    obtain ⟨⟨a, hw⟩, hwf', hb, hbn⟩ := h.write_create_of_free (b := b) hwf
      (fun s hs => hnames s (by simp at hs ⊢; tauto)) hq hqn heph hfree none
    obtain ⟨rs, c, cn, hrs, hc, hcn, hd⟩ := oneByOne_descent more hwf' (by simpa using hnames)
      hb hbn rfl (by simp [Node.fresh])
    obtain ⟨hres, hsv⟩ := h.oneByOne_cons_of_ok (Write.descent (base ++ [b]) more x d) hw
    refine ⟨.create a :: rs, c, cn, ?_, ?_, ?_, hd⟩
    · rw [Write.descent_cons, hres, hrs]
      rfl
    · rw [Write.descent_cons, hsv]
      simpa using hc
    · rw [Write.descent_cons, hsv]
      exact hcn

variable {base more : List String}

/-- A descent whose first creation the tree refuses fails at once: the node it starts below is
ephemeral, or no node is missing and `x` is taken there. -/
theorem oneByOne_descent_of_refused (hnames : ∀ s ∈ base ++ more ++ [x], Path.IsName s)
    (hq : sv.store.tree.resolve h.root base = .ok q) (hqn : sv.store.tree.nodes[q]? = some qn)
    (hmore : ∀ a rest, more = a :: rest → qn.children[a]? = none)
    (hrefused : ¬ (qn.mode.isEphemeral = false ∧ (more = [] → qn.children[x]? = none))) :
    ∃ e, (h.oneByOne (Write.descent base more x d) sv).1 = .error e := by
  cases more with
  | nil =>
    have hsplit : Path.splitParent (Path.ofNames (base ++ [x])) = .ok (base, x) :=
      Path.splitParent_ofNames (by simpa using hnames)
    -- the name is taken, or else the node is ephemeral
    obtain ⟨e, he⟩ : ∃ e, Tree.addChild q x d .persistent h.session sv.store.tree =
        .error e sv.store.tree := by
      cases hx : qn.children.contains x with
      | true => exact ⟨_, Tree.addChild_of_taken hqn rfl hx⟩
      | false =>
        have hnone : qn.children[x]? = none :=
          Std.ExtTreeMap.getElem?_eq_none_of_contains_eq_false hx
        have heph : qn.mode.isEphemeral = true := by
          simpa [hnone] using hrefused
        exact ⟨_, Tree.addChild_of_ephemeral hqn heph hx⟩
    refine ⟨e, h.oneByOne_cons_of_error _ ?_⟩
    simp [write, h.add_of_addChild_error hsplit hq he]
  | cons b rest =>
    have hsplit : Path.splitParent (Path.ofNames (base ++ [b])) = .ok (base, b) :=
      Path.splitParent_ofNames (fun s hs => hnames s (by simp at hs ⊢; tauto))
    have heph : qn.mode.isEphemeral = true := by
      simpa using hrefused
    have hfree : qn.children.contains b = false := by
      simp [Std.ExtTreeMap.contains_eq_isSome_getElem?, hmore b rest rfl]
    have he : Tree.addChild q b none .persistent h.session sv.store.tree =
        .error (.ephemeralParent (Path.join qn.path b)) sv.store.tree :=
      Tree.addChild_of_ephemeral hqn heph hfree
    rw [Write.descent_cons]
    refine ⟨.ephemeralParent (Path.join qn.path b), h.oneByOne_cons_of_error _ ?_⟩
    simp [write, h.add_of_addChild_error hsplit hq he]

end Descent

/-! ## The batch as a whole -/

section Batch

variable {x : String} {d : Option (List UInt8)} {base more : List String}

/-- A descent as a batch goes through exactly when its first creation does: the node it starts
below is not ephemeral and, when no node is missing on the way, has no child `x`. It then
leaves the node `x` with its payload at the end of the names. -/
theorem multi_descent (hwf : sv.store.WF) (hnames : ∀ s ∈ base ++ more ++ [x], Path.IsName s)
    (hq : sv.store.tree.resolve h.root base = .ok q) (hqn : sv.store.tree.nodes[q]? = some qn)
    (hmore : ∀ a rest, more = a :: rest → qn.children[a]? = none) :
    ((∃ rs, (h.multi sv ((Write.descent base more x d).map Write.toOp)).result = .ok rs) ↔
        qn.mode.isEphemeral = false ∧ (more = [] → qn.children[x]? = none)) ∧
      ∀ rs, (h.multi sv ((Write.descent base more x d).map Write.toOp)).result = .ok rs →
        ∃ c cn, (h.multi sv ((Write.descent base more x d).map Write.toOp)).service.store.tree.resolve
            h.root (base ++ more ++ [x]) = .ok c ∧
          (h.multi sv ((Write.descent base more x d).map Write.toOp)).service.store.tree.nodes[c]? =
            some cn ∧ cn.data = d := by
  have hfree : (more = [] → qn.children[x]? = none) → qn.children[more.headD x]? = none := by
    intro hx
    cases more with
    | nil => exact hx rfl
    | cons a rest => exact hmore a rest rfl
  -- the batch runs as its writes issued one by one
  obtain ⟨herror, hok⟩ := h.mapM_apply_oneByOne (Write.descent base more x d) sv
  rw [multi_map_toOp]
  cases hrun : ((Write.descent base more x d).mapM (Edit.apply h.root h.session))
      (Txn.start sv.store) with
  | error e y =>
    have hfail := herror e y hrun
    refine ⟨⟨fun hres => ?_, fun hcond => ?_⟩, fun rs hres => ?_⟩
    · obtain ⟨rs, hrs⟩ := hres
      cases hrs
    · obtain ⟨rs, -, -, hrs, -, -, -⟩ := h.oneByOne_descent x d more hwf hnames hq hqn hcond.1
        (hfree hcond.2)
      rw [hfail] at hrs
      cases hrs
    · cases hres
  | ok rs y =>
    obtain ⟨hrs, hstore, -⟩ := hok rs y hrun
    have hcond : qn.mode.isEphemeral = false ∧ (more = [] → qn.children[x]? = none) := by
      by_contra hno
      obtain ⟨e, he⟩ := h.oneByOne_descent_of_refused x d hnames hq hqn hmore hno
      rw [hrs] at he
      cases he
    obtain ⟨rs', c, cn, -, hc, hcn, hd⟩ := h.oneByOne_descent x d more hwf hnames hq hqn
      hcond.1 (hfree hcond.2)
    refine ⟨⟨fun _ => hcond, fun _ => ⟨rs, rfl⟩⟩, fun _ _ => ⟨c, cn, ?_, ?_, hd⟩⟩
    · simpa [Service.delivered, hstore] using hc
    · simpa [Service.delivered, hstore] using hcn

end Batch

/-! ## The prefixes a handle finds -/

section Prefixes

variable {pre more : List String}

theorem has_ofNames {ns : List String} (hns : ∀ s ∈ ns, Path.IsName s) :
    h.has sv (Path.ofNames ns) = (sv.store.tree.resolve h.root ns).toBool := by
  rw [has, Store.resolve_of_segments (Path.segments_ofNames hns)]

variable (hnames : ∀ s ∈ pre ++ more, Path.IsName s)
  (hq : sv.store.tree.resolve h.root pre = .ok q) (hqn : sv.store.tree.nodes[q]? = some qn)
  (hmore : ∀ a rest, more = a :: rest → qn.children[a]? = none)
include hnames hq hqn hmore

/-- Along the names of a path, every prefix down to a node that is there is found, and every
longer one, below a name missing there, is not. -/
theorem has_prefixes :
    (∀ p ∈ Path.prefixesFrom [] pre, h.has sv p = true) ∧
      ∀ p ∈ Path.prefixesFrom pre more, h.has sv p = false := by
  constructor
  · intro p hp
    obtain ⟨mid, rest, hmid, rfl, rfl⟩ := Path.mem_prefixesFrom hp
    obtain ⟨c, -, hc, -, -⟩ := Tree.resolve_append_eq_ok hq
    rw [List.nil_append, h.has_ofNames (fun s hs => hnames s (by simp [hs])), hc]
    rfl
  · intro p hp
    obtain ⟨mid, rest, hmid, rfl, rfl⟩ := Path.mem_prefixesFrom hp
    obtain ⟨a, mid, rfl⟩ := List.exists_cons_of_ne_nil hmid
    rw [h.has_ofNames (fun s hs => hnames s (by simp at hs ⊢; tauto))]
    exact Tree.resolve_of_child_missing hq hqn (hmore a (mid ++ rest) rfl) mid

/-- The prefixes a handle does not find are exactly those below the deepest node found. -/
theorem filter_has_prefixes :
    (Path.prefixesFrom [] (pre ++ more)).filter (fun p => !h.has sv p) =
      Path.prefixesFrom pre more := by
  obtain ⟨hfound, hmissing⟩ := h.has_prefixes hnames hq hqn hmore
  rw [Path.prefixesFrom_append, List.nil_append, List.filter_append,
    List.filter_eq_nil_iff.2 (fun p hp => by simp [hfound p hp]),
    List.filter_eq_self.2 (fun p hp => by simp [hmissing p hp]), List.nil_append]

/-- Along the names of a path, the node a handle is rooted at and every node a prefix finds are
persistent exactly when the deepest node found is: each of the others has a child on the way
down. -/
theorem persistent_prefixes_iff (hwf : sv.store.WF) {rn : Node}
    (hr : sv.store.tree.nodes[h.root]? = some rn) :
    (rn.mode.isEphemeral = false ∧ ∀ p ∈ Path.prefixesFrom [] (pre ++ more), ∀ c cn,
        sv.store.resolve h.root p = .ok c → sv.store.tree.nodes[c]? = some cn →
        cn.mode.isEphemeral = false) ↔ qn.mode.isEphemeral = false := by
  have hstart : sv.store.tree.resolve h.root [] = .ok h.root := by
    rw [Tree.resolve_of_get hr]
    rfl
  -- with no prefix found, the deepest node is the handle's root
  have hroot : pre = [] → qn = rn := by
    rintro rfl
    rw [hstart] at hq
    cases hq
    rw [hr] at hqn
    cases hqn
    rfl
  have hmissing := (h.has_prefixes hnames hq hqn hmore).2
  constructor
  · rintro ⟨hrn, hpre⟩
    rcases List.eq_nil_or_concat pre with hnil | ⟨pre', b, rfl⟩
    · rw [hroot hnil]
      exact hrn
    · rw [List.concat_eq_append] at hq hnames hpre
      have hmem := Path.ofNames_mem_prefixesFrom [] (pre' ++ [b]) (by simp) more
      refine hpre _ (by simpa using hmem) q qn ?_ hqn
      rw [Store.resolve_of_segments
        (Path.segments_ofNames (fun s hs => hnames s (by simp at hs ⊢; tauto)))]
      exact hq
  · intro heph
    refine ⟨?_, fun p hp c cn hc hcn => ?_⟩
    · cases pre with
      | nil => rw [← hroot rfl]; exact heph
      | cons b pre' =>
        exact hwf.tree.persistent_of_resolve_cons
          (show sv.store.tree.resolve h.root ([] ++ b :: pre') = .ok q from hq) hstart hr
    · rw [Path.prefixesFrom_append, List.nil_append, List.mem_append] at hp
      rcases hp with hp | hp
      · obtain ⟨mid, rest, hmid, rfl, rfl⟩ := Path.mem_prefixesFrom hp
        rw [List.nil_append, Store.resolve_of_segments (Path.segments_ofNames
          (fun s hs => hnames s (by simp [hs])))] at hc
        cases rest with
        | nil =>
          rw [List.append_nil, hc] at hq
          cases hq
          rw [hqn] at hcn
          cases hcn
          exact heph
        | cons b rest => exact hwf.tree.persistent_of_resolve_cons hq hc hcn
      · -- a prefix below the missing name finds nothing
        have hnot := hmissing p hp
        rw [has, hc] at hnot
        cases hnot

end Prefixes

end Handle

/-! ## A manager's prepared creation -/

namespace Manager

variable (m : Manager) (sv : Service)

theorem rootPrefixes_eq : m.rootPrefixes = Path.prefixesFrom [] m.rootNames := by
  have h : m.rootNames.foldl (fun acc n => acc ++ [Path.join (acc.getLastD "") n]) [] =
      [] ++ Path.prefixesFrom [] m.rootNames :=
    Path.foldl_join_eq_prefixesFrom (by simpa using Path.isName_of_segments m.segments_root)
      Path.join_empty
  simpa [rootPrefixes] using h

theorem entityPath_eq (x : EntityId) :
    m.entityPath x = Path.ofNames (m.rootNames ++ [x.display]) := by
  rw [entityPath, Path.eq_ofNames_of_segments m.segments_root]
  exact Path.join_ofNames (Path.isName_of_segments m.segments_root) _

variable {sv} {x : EntityId} {pre more : List String} {q : Nat} {qn : Node}

/-- The names of the entity's path below the root are names. -/
theorem isName_entity_names (hx : Path.IsName x.display) :
    ∀ s ∈ m.rootNames ++ [x.display], Path.IsName s := by
  intro s hs
  rcases List.mem_append.1 hs with hs | hs
  · exact Path.isName_of_segments m.segments_root s hs
  · rw [List.mem_singleton.1 hs]
    exact hx

/-- The entity's node is missing exactly when a node on the way to the root is missing, or the
root is there without a child named by the id. -/
theorem exists_eq_false_iff (hwf : sv.store.WF) (hsplit : m.rootNames = pre ++ more)
    (hx : Path.IsName x.display) (hq : sv.store.tree.resolve m.handle.root pre = .ok q)
    (hqn : sv.store.tree.nodes[q]? = some qn)
    (hmore : ∀ a rest, more = a :: rest → qn.children[a]? = none) :
    m.exists sv x = false ↔ (more = [] → qn.children[x.display]? = none) := by
  have hall := m.isName_entity_names hx
  rw [exists_eq, m.entityPath_eq x, Store.resolve_of_segments (Path.segments_ofNames hall), hsplit]
  cases more with
  | nil =>
    rw [List.append_nil, hwf.tree.resolve_concat_toBool hq hqn]
    cases qn.children[x.display]? <;> simp
  | cons a rest =>
    rw [show pre ++ a :: rest ++ [x.display] = pre ++ a :: (rest ++ [x.display]) by simp,
      Tree.resolve_of_child_missing hq hqn (hmore a rest rfl)]
    simp

variable {e : Entity}

/-- Once the entity's node is found with the encoding of `e` as payload, every prefix of the
root is found, the entity exists, and it reads back as `e` where its kind decodes that
encoding to `e`. -/
theorem found_after_create {sv' : Service} (hx : Path.IsName x.display) {c : Nat} {cn : Node}
    (hc : sv'.store.tree.resolve m.handle.root (m.rootNames ++ [x.display]) = .ok c)
    (hcn : sv'.store.tree.nodes[c]? = some cn) (hd : cn.data = some e.encode) :
    (∀ p ∈ Path.prefixesFrom [] m.rootNames, m.handle.has sv' p = true) ∧ m.exists sv' x = true ∧
      (m.kind.decode e.encode = .ok e → (m.getAndWatch sv' x none).1 = .ok (some e)) := by
  have hall := m.isName_entity_names hx
  have hentity : sv'.store.resolve m.handle.root (m.entityPath x) = .ok c := by
    rw [m.entityPath_eq x, Store.resolve_of_segments (Path.segments_ofNames hall)]
    exact hc
  refine ⟨fun p hp => ?_, by rw [exists_eq, hentity]; rfl, fun hdec => ?_⟩
  · obtain ⟨mid, rest, hmid, hroot, rfl⟩ := Path.mem_prefixesFrom hp
    rw [hroot, List.append_assoc] at hc
    obtain ⟨c', -, hc', -, -⟩ := Tree.resolve_append_eq_ok hc
    rw [List.nil_append, m.handle.has_ofNames (fun s hs => hall s (by simp [hroot, hs])), hc']
    rfl
  · rw [getAndWatch_of_found m sv' x none hentity hcn, hd]
    simp [hdec]

/-- What the batch a manager prepares to create the entity `e` with id `x` does, over a handle
rooted at the node `rn`. -/
structure CreateBatch (m : Manager) (sv : Service) (rn : Node) (x : EntityId) (e : Entity) :
    Prop where
  /-- The batch creates, as plain persistent nodes, the prefixes of the root that are not
  there, from the top down, then the entity's node with the entity's encoding. -/
  batch : m.prepareCreate sv x e =
    ((Path.prefixesFrom [] m.rootNames).filter fun p => !m.handle.has sv p).map
        (fun p => .create p none .persistent) ++
      [.create (Path.join m.root x.display) (some e.encode) .persistent]
  /-- The prefixes that are not there are the last ones. -/
  missingLast : ∃ k, (Path.prefixesFrom [] m.rootNames).filter (fun p => !m.handle.has sv p) =
      (Path.prefixesFrom [] m.rootNames).drop k ∧
    ∀ p ∈ (Path.prefixesFrom [] m.rootNames).take k, m.handle.has sv p = true
  /-- The batch goes through exactly when the entity is not there and neither the handle's
  root nor a prefix that is there is ephemeral. -/
  commits : (∃ rs, (m.handle.multi sv (m.prepareCreate sv x e)).result = .ok rs) ↔
    m.exists sv x = false ∧ rn.mode.isEphemeral = false ∧
      ∀ p ∈ Path.prefixesFrom [] m.rootNames, ∀ c cn, sv.store.resolve m.handle.root p = .ok c →
        sv.store.tree.nodes[c]? = some cn → cn.mode.isEphemeral = false
  /-- Once it went through, every prefix is there, the entity is, and it reads back as `e`
  where its kind decodes its encoding to `e`. -/
  created : ∀ rs, (m.handle.multi sv (m.prepareCreate sv x e)).result = .ok rs →
    (∀ p ∈ Path.prefixesFrom [] m.rootNames,
        m.handle.has (m.handle.multi sv (m.prepareCreate sv x e)).service p = true) ∧
      m.exists (m.handle.multi sv (m.prepareCreate sv x e)).service x = true ∧
      (m.kind.decode e.encode = .ok e →
        (m.getAndWatch (m.handle.multi sv (m.prepareCreate sv x e)).service x none).1 =
          .ok (some e))

/-- A manager's prepared creation is a valid batch. In every reachable state, for a manager
over a handle rooted at a present node, and an id written as a name, the batch creates the
missing prefixes of the root, which are the last ones, top down, then the entity's node; it
goes through exactly when the entity is not there and neither the handle's root nor a prefix
that is there is ephemeral, and afterwards every prefix and the entity are there, the entity
reading back as itself where its kind decodes its encoding. -/
theorem prepareCreate_builds_batch {sv : Service} (hsv : sv.Reachable) (m : Manager) {rn : Node}
    (hr : sv.store.tree.nodes[m.handle.root]? = some rn) (x : EntityId)
    (hx : Path.IsName x.display) (e : Entity) : m.CreateBatch sv rn x e := by
  have hwf := hsv.wf
  have hnames := Path.isName_of_segments m.segments_root
  have hall := m.isName_entity_names hx
  -- the names of the root split at the deepest node the handle finds
  obtain ⟨pre, more, q, qn, hsplit, hq, hqn, hmore⟩ := hwf.tree.resolve_split hr m.rootNames
  rw [hsplit] at hnames hall
  have hfilter := m.handle.filter_has_prefixes hnames hq hqn hmore
  have hbatch : m.prepareCreate sv x e =
      (Write.descent pre more x.display (some e.encode)).map Write.toOp := by
    simp [prepareCreate, m.rootPrefixes_eq, hsplit, hfilter, m.entityPath_eq, Write.descent,
      Write.toOp]
  obtain ⟨hgoes, hleaves⟩ := m.handle.multi_descent hwf hall hq hqn hmore
  refine ⟨by rw [prepareCreate, m.rootPrefixes_eq, entityPath], ⟨pre.length, ?_, ?_⟩, ?_, ?_⟩
  · rw [hsplit, hfilter, Path.prefixesFrom_append, List.nil_append,
      List.drop_left' (Path.length_prefixesFrom [] pre)]
  · intro p hp
    rw [hsplit, Path.prefixesFrom_append, List.nil_append,
      List.take_left' (Path.length_prefixesFrom [] pre)] at hp
    exact (m.handle.has_prefixes hnames hq hqn hmore).1 p hp
  · rw [hbatch, hgoes, m.exists_eq_false_iff hwf hsplit hx hq hqn hmore, hsplit,
      m.handle.persistent_prefixes_iff hnames hq hqn hmore hwf hr]
    tauto
  · intro rs hrs
    rw [hbatch] at hrs ⊢
    obtain ⟨c, cn, hc, hcn, hd⟩ := hleaves rs hrs
    rw [← hsplit] at hc
    exact m.found_after_create hx hc hcn hd

/-- The manager of `u64` ids below `/a/b`, through the top handle of session 0. -/
def abManager : Manager :=
  { handle := Handle.top 0, root := "/a/b", ids := .u64, kind := .text, rootNames := ["a", "b"],
    segments_root := by decide }

/-- A manager with root `/a/b` over the handle on the root of the empty service, for the id
`7`. -/
theorem prepareCreate_builds_batch_from_empty :
    Service.empty.Reachable ∧
      Service.empty.store.tree.nodes[(Handle.top 0).root]? =
        some (Node.fresh "" none .persistent none) ∧
      Path.IsName (EntityId.nat 7).display ∧
      abManager.CreateBatch Service.empty (Node.fresh "" none .persistent none) (.nat 7)
        (.text "v") := by
  have hr : Service.empty.store.tree.nodes[(Handle.top 0).root]? =
      some (Node.fresh "" none .persistent none) := by
    simp [Service.empty, Store.empty, Handle.top, Tree.getElem?_empty]
  have hx : Path.IsName (EntityId.nat 7).display := by
    unfold Path.IsName
    decide
  exact ⟨.empty, hr, hx, prepareCreate_builds_batch .empty abManager hr _ hx _⟩

/-- The manager of `u64` ids below `/x`, through the handle rooted at node 1 for session 0. -/
def xManager : Manager :=
  { handle := { root := 1, session := 0 }, root := "/x", ids := .u64, kind := .text,
    rootNames := ["x"], segments_root := by decide }

/-- Below a handle rooted at an ephemeral node nothing is created. After the ephemeral node
`/e` is added, a manager over the handle rooted there with root `/x` prepares the creation of
`/x` and of the entity below it; the entity and `/x` are missing, so no prefix that is there is
ephemeral, yet the batch fails below `/e`. -/
theorem prepareCreate_refused_below_ephemeral_root :
    ((Handle.top 0).add Service.empty "/e" none .ephemeral).service.Reachable ∧
      ((Handle.top 0).add Service.empty "/e" none .ephemeral).service.store.tree.nodes[1]?.map
        Node.mode = some .ephemeral ∧
      xManager.prepareCreate ((Handle.top 0).add Service.empty "/e" none .ephemeral).service
        (.nat 1) (.text "v") =
          [.create "/x" none .persistent, .create "/x/1" (some (Entity.text "v").encode) .persistent] ∧
      xManager.exists ((Handle.top 0).add Service.empty "/e" none .ephemeral).service
        (.nat 1) = false ∧
      ({ root := 1, session := 0 } : Handle).has
        ((Handle.top 0).add Service.empty "/e" none .ephemeral).service "/x" = false ∧
      (({ root := 1, session := 0 } : Handle).multi
        ((Handle.top 0).add Service.empty "/e" none .ephemeral).service
        [.create "/x" none .persistent, .create "/x/1" (some (Entity.text "v").encode) .persistent]).result =
          .error (.ephemeralParent "/e/x") :=
  ⟨.step (.add (Handle.top 0) "/e" none .ephemeral) .empty, by decide, by decide, by decide,
    by decide, by decide⟩

end Manager

end CoordStore
