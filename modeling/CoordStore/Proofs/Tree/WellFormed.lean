import CoordStore.Tree.Basic
import CoordStore.Proofs.Path

/-!
# The shape of the node tree

`Tree.WF` is the shape every tree the store reaches has: the root is there with the empty
path; every other node is the child of exactly one present node under exactly one name, and
its stored path is its parent's path with that name; children are present and their names are
names; ephemeral nodes have no children and exactly they have an owner; and every present
number is below the next one to hand out.

The tree changes in three ways only (`Tree.Step`): a child is created below a present
persistent node under a free name and the next number, a payload is replaced, or a childless
child is removed. Each keeps `WF`. Counters and payloads play no part in `WF`, so two trees
with the same skeleton (`Tree.SameSkeleton`) are well formed together.
-/

namespace CoordStore

/-- A node with its payload and counter forgotten: what the shape of a tree is made of. -/
def Node.skeleton (n : Node) : Node :=
  { n with data := none, sequence := 0 }

@[simp] theorem Node.skeleton_path (n : Node) : n.skeleton.path = n.path := rfl
@[simp] theorem Node.skeleton_mode (n : Node) : n.skeleton.mode = n.mode := rfl
@[simp] theorem Node.skeleton_owner (n : Node) : n.skeleton.owner = n.owner := rfl
@[simp] theorem Node.skeleton_children (n : Node) : n.skeleton.children = n.children := rfl

theorem Node.skeleton_eq_iff {n n' : Node} :
    n.skeleton = n'.skeleton ↔
      n.path = n'.path ∧ n.mode = n'.mode ∧ n.owner = n'.owner ∧ n.children = n'.children := by
  cases n; cases n'
  simp [Node.skeleton]

namespace Tree

/-- Node `c` is stored as child `name` of the present node `p`. -/
def ChildAt (t : Tree) (p : Nat) (name : String) (c : Nat) : Prop :=
  ∃ n, t.nodes[p]? = some n ∧ n.children[name]? = some c

/-- The shape of every tree the store reaches. -/
structure WF (t : Tree) : Prop where
  /-- The root is there, with the empty path. -/
  root : ∃ n, t.nodes[rootId]? = some n ∧ n.path = ""
  /-- Every other node is a child of a present node, and its path is its parent's path with
  its name. -/
  parent : ∀ {c : Nat} {n : Node}, t.nodes[c]? = some n → c ≠ rootId →
    ∃ (p : Nat) (pn : Node) (name : String), t.nodes[p]? = some pn ∧ pn.children[name]? = some c ∧
      n.path = Path.join pn.path name
  /-- A node is the child of one parent, under one name. -/
  unique : ∀ {p p' name name' c}, t.ChildAt p name c → t.ChildAt p' name' c →
    p = p' ∧ name = name'
  /-- The root is nobody's child. -/
  rootFree : ∀ {p name}, ¬ t.ChildAt p name rootId
  /-- Children are present. -/
  present : ∀ {p name c}, t.ChildAt p name c → ∃ n : Node, t.nodes[c]? = some n
  /-- Children are named by names. -/
  names : ∀ {p name c}, t.ChildAt p name c → Path.IsName name
  /-- Ephemeral nodes have no children. -/
  leaf : ∀ {id : Nat} {n : Node}, t.nodes[id]? = some n → n.mode.isEphemeral = true → n.children = ∅
  /-- Exactly the ephemeral nodes have an owner. -/
  owner : ∀ {id : Nat} {n : Node}, t.nodes[id]? = some n → n.owner.isSome = n.mode.isEphemeral
  /-- Every present number is below the next one. -/
  fresh : ∀ {id : Nat} {n : Node}, t.nodes[id]? = some n → id < t.nextId

/-- Two trees with the same nodes, each with the same path, mode, owner and children. -/
def SameSkeleton (t t' : Tree) : Prop :=
  ∀ id : Nat, (t.nodes[id]?).map Node.skeleton = (t'.nodes[id]?).map Node.skeleton

namespace SameSkeleton

variable {t t' : Tree}

theorem symm (h : SameSkeleton t t') : SameSkeleton t' t :=
  fun id => (h id).symm

/-- A node of one tree is in the other, with the same path, mode, owner and children. -/
theorem get (h : SameSkeleton t t') {id : Nat} {n : Node} (hn : t.nodes[id]? = some n) :
    ∃ n', t'.nodes[id]? = some n' ∧
      n'.path = n.path ∧ n'.mode = n.mode ∧ n'.owner = n.owner ∧ n'.children = n.children := by
  have := h id
  rw [hn] at this
  cases hn' : t'.nodes[id]? with
  | none => simp [hn'] at this
  | some n' =>
    rw [hn'] at this
    exact ⟨n', rfl, Node.skeleton_eq_iff.1 (Option.some.inj this).symm⟩

theorem childAt (h : SameSkeleton t t') {p name c} (hc : t.ChildAt p name c) :
    t'.ChildAt p name c := by
  obtain ⟨n, hn, hch⟩ := hc
  obtain ⟨n', hn', -, -, -, hchildren⟩ := h.get hn
  exact ⟨n', hn', hchildren ▸ hch⟩

end SameSkeleton

/-- Well-formedness reads only skeletons, and a larger next number keeps every node below. -/
theorem WF.of_sameSkeleton {t t' : Tree} (hwf : t.WF) (h : SameSkeleton t t')
    (hnext : t.nextId ≤ t'.nextId) : t'.WF where
  root := by
    obtain ⟨n, hn, hpath⟩ := hwf.root
    obtain ⟨n', hn', hsame, -⟩ := h.get hn
    exact ⟨n', hn', hsame ▸ hpath⟩
  parent := by
    intro c n' hn' hc
    obtain ⟨n, hn, hsame, -⟩ := h.symm.get hn'
    obtain ⟨p, pn, name, hp, hch, hpath⟩ := hwf.parent hn hc
    obtain ⟨pn', hp', hppath, -, -, hpchildren⟩ := h.get hp
    exact ⟨p, pn', name, hp', hpchildren ▸ hch, by rw [← hsame, hpath, hppath]⟩
  unique := fun h1 h2 => hwf.unique (h.symm.childAt h1) (h.symm.childAt h2)
  rootFree := fun hc => hwf.rootFree (h.symm.childAt hc)
  present := by
    intro p name c hc
    obtain ⟨n, hn⟩ := hwf.present (h.symm.childAt hc)
    obtain ⟨n', hn', -⟩ := h.get hn
    exact ⟨n', hn'⟩
  names := fun hc => hwf.names (h.symm.childAt hc)
  leaf := by
    intro id n' hn' heph
    obtain ⟨n, hn, -, hmode, -, hchildren⟩ := h.symm.get hn'
    rw [← hchildren]
    exact hwf.leaf hn (hmode ▸ heph)
  owner := by
    intro id n' hn'
    obtain ⟨n, hn, -, hmode, howner, -⟩ := h.symm.get hn'
    rw [← hmode, ← howner]
    exact hwf.owner hn
  fresh := by
    intro id n' hn'
    obtain ⟨n, hn, -⟩ := h.symm.get hn'
    exact Nat.lt_of_lt_of_le (hwf.fresh hn) hnext

namespace WF

variable {t : Tree} (hwf : t.WF)
include hwf

/-- The number to hand out next is not taken. -/
theorem nextId_free : t.nodes[t.nextId]? = none := by
  cases h : t.nodes[t.nextId]? with
  | none => rfl
  | some n => exact absurd (hwf.fresh h) (Nat.lt_irrefl _)

theorem root_lt : rootId < t.nextId := by
  obtain ⟨n, hn, -⟩ := hwf.root
  exact hwf.fresh hn

/-- A child's stored path is its parent's path with its name. -/
theorem path_of_childAt {p c : Nat} {name : String} {pn n : Node} (hp : t.nodes[p]? = some pn)
    (hch : pn.children[name]? = some c) (hn : t.nodes[c]? = some n) :
    n.path = Path.join pn.path name := by
  have hc : c ≠ rootId := by
    rintro rfl
    exact hwf.rootFree ⟨pn, hp, hch⟩
  obtain ⟨p', pn', name', hp', hch', hpath⟩ := hwf.parent hn hc
  obtain ⟨rfl, rfl⟩ := hwf.unique ⟨pn', hp', hch'⟩ ⟨pn, hp, hch⟩
  rw [hp'] at hp
  cases hp
  exact hpath

/-- Stored paths never end with a separator. -/
theorem unslashed {id : Nat} {n : Node} (hn : t.nodes[id]? = some n) : Path.Unslashed n.path := by
  by_cases hid : id = rootId
  · obtain ⟨r, hr, hpath⟩ := hwf.root
    rw [hid, hr] at hn
    cases hn
    rw [hpath]
    exact Path.unslashed_empty
  · obtain ⟨p, pn, name, hp, hch, hpath⟩ := hwf.parent hn hid
    rw [hpath]
    exact Path.unslashed_join (hwf.names ⟨pn, hp, hch⟩)

/-- No node is its own child: a child's path is longer than its parent's. -/
theorem ne_of_childAt {p c : Nat} {name : String} (hc : t.ChildAt p name c) : p ≠ c := by
  rintro rfl
  obtain ⟨pn, hp, hch⟩ := hc
  have hlen := congrArg String.length (hwf.path_of_childAt hp hch hp)
  rw [Path.length_join (hwf.unslashed hp)] at hlen
  omega

end WF

/-- `t` with node `t.nextId` created as child `name` of `p`, whose node `pn` gets the counter
`seq`. -/
def addNode (t : Tree) (p : Nat) (pn : Node) (name : String) (seq : Nat)
    (data : Option (List UInt8)) (mode : CreateMode) (owner : Option Int) : Tree :=
  { nodes := (t.nodes.insert p
        { pn with sequence := seq, children := pn.children.insert name t.nextId }).insert
      t.nextId (Node.fresh (Path.join pn.path name) data mode owner)
    nextId := t.nextId + 1 }

/-- `t` with child `name` of `p`, node `c`, removed. -/
def removeNode (t : Tree) (p : Nat) (pn : Node) (name : String) (c : Nat) : Tree :=
  { t with nodes := (t.nodes.insert p { pn with children := pn.children.erase name }).erase c }

/-- One change of the tree, as the store makes them. -/
inductive Step : Tree → Change → Tree → Prop where
  /-- Node `t.nextId` is created as child `name` of the present persistent node `p`, `name`
  being a name not yet taken there; the parent's counter may have moved on. -/
  | created {t : Tree} {p : Nat} {pn : Node} {name : String} {seq : Nat}
      {data : Option (List UInt8)} {mode : CreateMode} {owner : Option Int} :
      t.nodes[p]? = some pn → pn.mode.isEphemeral = false → pn.children[name]? = none →
      Path.IsName name → pn.sequence ≤ seq → owner.isSome = mode.isEphemeral →
      Step t (.created p name t.nextId) (t.addNode p pn name seq data mode owner)
  /-- The payload of a present node is replaced. -/
  | dataChanged {t : Tree} {id : Nat} {n : Node} (data : Option (List UInt8)) :
      t.nodes[id]? = some n → Step t (.dataChanged id n.data) (t.setNode id { n with data })
  /-- The childless child `name` of `p` is removed. -/
  | deleted {t : Tree} {p : Nat} {pn : Node} {name : String} {c : Nat} {n : Node} :
      t.nodes[p]? = some pn → pn.children[name]? = some c → t.nodes[c]? = some n →
      n.children = ∅ → Step t (.deleted p name c n) (t.removeNode p pn name c)

section AddNode

variable {t : Tree} {p : Nat} {pn : Node} {name : String} {seq : Nat}
  {data : Option (List UInt8)} {mode : CreateMode} {owner : Option Int}

theorem getElem?_addNode (x : Nat) :
    (t.addNode p pn name seq data mode owner).nodes[x]? =
      if t.nextId = x then some (Node.fresh (Path.join pn.path name) data mode owner)
      else if p = x then
        some { pn with sequence := seq, children := pn.children.insert name t.nextId }
      else t.nodes[x]? := by
  simp [addNode, Std.ExtTreeMap.getElem?_insert]

/-- A creation adds one child link and keeps all others. -/
theorem childAt_addNode (hwf : t.WF) (hp : t.nodes[p]? = some pn)
    (hfree : pn.children[name]? = none) {q : Nat} {m : String} {d : Nat} :
    (t.addNode p pn name seq data mode owner).ChildAt q m d ↔
      t.ChildAt q m d ∨ (q = p ∧ m = name ∧ d = t.nextId) := by
  have hpc : p ≠ t.nextId := fun he => by simp [he, hwf.nextId_free] at hp
  unfold ChildAt
  rw [getElem?_addNode]
  by_cases hq : t.nextId = q
  · subst hq
    simp [hwf.nextId_free, Node.fresh, Ne.symm hpc]
  · by_cases hqp : p = q
    · subst hqp
      by_cases hm : name = m
      · subst hm
        simp [hq, hp, hfree, eq_comm]
      · simp [hq, hp, hm, Ne.symm hm, Std.ExtTreeMap.getElem?_insert]
    · simp [hq, hqp, Ne.symm hqp]

/-- A node already there keeps its path, mode and owner through a creation. -/
theorem get_addNode_of_get (hwf : t.WF) (hp : t.nodes[p]? = some pn) {x : Nat} {xn : Node}
    (hx : t.nodes[x]? = some xn) :
    ∃ xn', (t.addNode p pn name seq data mode owner).nodes[x]? = some xn' ∧
      xn'.path = xn.path ∧ xn'.mode = xn.mode ∧ xn'.owner = xn.owner := by
  have hx' : t.nextId ≠ x := fun he => by simp [← he, hwf.nextId_free] at hx
  rw [getElem?_addNode]
  by_cases hpx : p = x
  · subst hpx
    rw [hp] at hx
    cases hx
    simp [hx']
  · simp [hx', hpx, hx]

/-- A node after a creation is the new one, or was there before with the same path, mode and
owner. -/
theorem get_of_get_addNode (hp : t.nodes[p]? = some pn) {x : Nat} {n : Node}
    (hx : (t.addNode p pn name seq data mode owner).nodes[x]? = some n) :
    (x = t.nextId ∧ n = Node.fresh (Path.join pn.path name) data mode owner) ∨
      ∃ xn, t.nodes[x]? = some xn ∧ n.path = xn.path ∧ n.mode = xn.mode ∧ n.owner = xn.owner ∧
        (x ≠ p → n.children = xn.children) := by
  rw [getElem?_addNode] at hx
  split_ifs at hx with h1 h2
  · cases hx
    exact Or.inl ⟨h1.symm, rfl⟩
  · cases hx
    subst h2
    exact Or.inr ⟨pn, hp, rfl, rfl, rfl, fun h => absurd rfl h⟩
  · exact Or.inr ⟨n, hx, rfl, rfl, rfl, fun _ => rfl⟩

/-- A creation keeps the tree well formed. -/
theorem WF.addNode (hwf : t.WF) (hp : t.nodes[p]? = some pn)
    (heph : pn.mode.isEphemeral = false) (hfree : pn.children[name]? = none)
    (hname : Path.IsName name) (howner : owner.isSome = mode.isEphemeral) :
    (t.addNode p pn name seq data mode owner).WF where
  root := by
    obtain ⟨r, hr, hpath⟩ := hwf.root
    obtain ⟨r', hr', hpath', -⟩ := @get_addNode_of_get t p pn name seq data mode owner
      hwf hp _ _ hr
    exact ⟨r', hr', hpath'.trans hpath⟩
  parent := by
    intro x n hn hx
    rcases get_of_get_addNode hp hn with ⟨rfl, rfl⟩ | ⟨xn, hxn, hpath, -⟩
    · refine ⟨p, { pn with sequence := seq, children := pn.children.insert name t.nextId },
        name, ?_, by simp, rfl⟩
      have hpc : t.nextId ≠ p := fun he => by simp [he.symm, hwf.nextId_free] at hp
      simp [getElem?_addNode, hpc]
    · obtain ⟨q, qn, m, hq, hqc, hxpath⟩ := hwf.parent hxn hx
      obtain ⟨qn', hq', hqc'⟩ := (@childAt_addNode t p pn name seq data mode owner
        hwf hp hfree _ _ _).2 (Or.inl ⟨qn, hq, hqc⟩)
      obtain ⟨qn'', hq'', hqpath, -⟩ := @get_addNode_of_get t p pn name seq data mode owner
        hwf hp _ _ hq
      rw [hq''] at hq'
      cases hq'
      exact ⟨q, qn', m, hq'', hqc', by rw [hpath, hxpath, hqpath]⟩
  unique := by
    intro q q' m m' d h1 h2
    rw [childAt_addNode hwf hp hfree] at h1 h2
    rcases h1 with h1 | ⟨rfl, rfl, rfl⟩ <;> rcases h2 with h2 | ⟨rfl, rfl, hd⟩
    · exact hwf.unique h1 h2
    · obtain ⟨n, hn⟩ := hwf.present h1
      rw [hd, hwf.nextId_free] at hn
      cases hn
    · obtain ⟨n, hn⟩ := hwf.present h2
      rw [hwf.nextId_free] at hn
      cases hn
    · exact ⟨rfl, rfl⟩
  rootFree := by
    intro q m h
    rw [childAt_addNode hwf hp hfree] at h
    rcases h with h | ⟨-, -, h⟩
    · exact hwf.rootFree h
    · exact Nat.ne_of_gt hwf.root_lt h.symm
  present := by
    intro q m d h
    rw [childAt_addNode hwf hp hfree] at h
    rcases h with h | ⟨-, -, rfl⟩
    · obtain ⟨n, hn⟩ := hwf.present h
      obtain ⟨n', hn', -⟩ := @get_addNode_of_get t p pn name seq data mode owner
        hwf hp _ _ hn
      exact ⟨n', hn'⟩
    · exact ⟨Node.fresh (Path.join pn.path name) data mode owner, by simp [getElem?_addNode]⟩
  names := by
    intro q m d h
    rw [childAt_addNode hwf hp hfree] at h
    rcases h with h | ⟨-, rfl, -⟩
    · exact hwf.names h
    · exact hname
  leaf := by
    intro x n hn heph'
    rcases get_of_get_addNode hp hn with ⟨-, rfl⟩ | ⟨xn, hxn, -, hmode, -, hchildren⟩
    · rfl
    · by_cases hxp : x = p
      · subst hxp
        rw [hp] at hxn
        cases hxn
        rw [hmode, heph] at heph'
        cases heph'
      · rw [hchildren hxp]
        exact hwf.leaf hxn (hmode ▸ heph')
  owner := by
    intro x n hn
    rcases get_of_get_addNode hp hn with ⟨-, rfl⟩ | ⟨xn, hxn, -, hmode, howner', -⟩
    · exact howner
    · rw [hmode, howner']
      exact hwf.owner hxn
  fresh := by
    intro x n hn
    rcases get_of_get_addNode hp hn with ⟨rfl, -⟩ | ⟨xn, hxn, -⟩
    · exact Nat.lt_succ_self _
    · exact Nat.lt_succ_of_lt (hwf.fresh hxn)

end AddNode

section RemoveNode

variable {t : Tree} {p : Nat} {pn : Node} {name : String} {c : Nat}

theorem getElem?_removeNode (x : Nat) :
    (t.removeNode p pn name c).nodes[x]? =
      if c = x then none
      else if p = x then some { pn with children := pn.children.erase name } else t.nodes[x]? := by
  simp [removeNode, Std.ExtTreeMap.getElem?_insert, Std.ExtTreeMap.getElem?_erase]

/-- A node left after a removal was there before, with the same path, mode and owner. -/
theorem get_of_get_removeNode (hp : t.nodes[p]? = some pn) {x : Nat} {n' : Node}
    (hx : (t.removeNode p pn name c).nodes[x]? = some n') :
    x ≠ c ∧ ∃ xn, t.nodes[x]? = some xn ∧ n'.path = xn.path ∧ n'.mode = xn.mode ∧
      n'.owner = xn.owner := by
  rw [getElem?_removeNode] at hx
  split_ifs at hx with h1 h2
  · cases hx
    subst h2
    exact ⟨Ne.symm h1, pn, hp, rfl, rfl, rfl⟩
  · exact ⟨Ne.symm h1, n', hx, rfl, rfl, rfl⟩

/-- A node other than the removed one stays, with its path, mode and owner. -/
theorem get_removeNode_of_get (hp : t.nodes[p]? = some pn) {x : Nat} {xn : Node}
    (hx : t.nodes[x]? = some xn) (hxc : x ≠ c) :
    ∃ xn', (t.removeNode p pn name c).nodes[x]? = some xn' ∧ xn'.path = xn.path ∧
      xn'.mode = xn.mode ∧ xn'.owner = xn.owner := by
  rw [getElem?_removeNode]
  by_cases hpx : p = x
  · subst hpx
    rw [hp] at hx
    cases hx
    simp [Ne.symm hxc]
  · simp [Ne.symm hxc, hpx, hx]

variable {n : Node} (hwf : t.WF) (hp : t.nodes[p]? = some pn)
  (hch : pn.children[name]? = some c) (hn : t.nodes[c]? = some n) (hempty : n.children = ∅)
include hwf hp hch hn hempty

/-- A removal drops the one child link to the removed node and keeps all others. -/
theorem childAt_removeNode {q : Nat} {m : String} {d : Nat} :
    (t.removeNode p pn name c).ChildAt q m d ↔ t.ChildAt q m d ∧ ¬ (q = p ∧ m = name) := by
  have hpc : p ≠ c := hwf.ne_of_childAt ⟨pn, hp, hch⟩
  unfold ChildAt
  rw [getElem?_removeNode]
  by_cases hcq : c = q
  · subst hcq
    simp [hn, hempty, Ne.symm hpc]
  · by_cases hpq : p = q
    · subst hpq
      by_cases hm : name = m
      · subst hm
        simp [hcq, hp]
      · simp [hcq, hp, hm, Ne.symm hm, Std.ExtTreeMap.getElem?_erase]
    · simp [hcq, hpq, Ne.symm hpq]

/-- A removal keeps the tree well formed. -/
theorem WF.removeNode : (t.removeNode p pn name c).WF where
  root := by
    obtain ⟨r, hr, hpath⟩ := hwf.root
    have hrc : rootId ≠ c := by
      rintro rfl
      exact hwf.rootFree ⟨pn, hp, hch⟩
    obtain ⟨r', hr', hpath', -⟩ := get_removeNode_of_get hp hr hrc
    exact ⟨r', hr', hpath'.trans hpath⟩
  parent := by
    intro x n' hx hxr
    obtain ⟨hxc, xn, hxn, hpath, -⟩ := get_of_get_removeNode hp hx
    obtain ⟨q, qn, m, hq, hqx, hxpath⟩ := hwf.parent hxn hxr
    have hlink : ¬ (q = p ∧ m = name) := by
      rintro ⟨rfl, rfl⟩
      rw [hq] at hp
      cases hp
      rw [hqx] at hch
      exact hxc (Option.some.inj hch)
    obtain ⟨qn', hq', hqx'⟩ :=
      (childAt_removeNode hwf hp hch hn hempty).2 ⟨⟨qn, hq, hqx⟩, hlink⟩
    have hqc : q ≠ c := by
      rintro rfl
      rw [hn] at hq
      cases hq
      simp [hempty] at hqx
    obtain ⟨qn'', hq'', hqpath, -⟩ := get_removeNode_of_get hp hq hqc
    rw [hq''] at hq'
    cases hq'
    exact ⟨q, qn', m, hq'', hqx', by rw [hpath, hxpath, hqpath]⟩
  unique := by
    intro q q' m m' d h1 h2
    rw [childAt_removeNode hwf hp hch hn hempty] at h1 h2
    exact hwf.unique h1.1 h2.1
  rootFree := by
    intro q m h
    rw [childAt_removeNode hwf hp hch hn hempty] at h
    exact hwf.rootFree h.1
  present := by
    intro q m d h
    rw [childAt_removeNode hwf hp hch hn hempty] at h
    obtain ⟨h, hlink⟩ := h
    have hdc : d ≠ c := by
      rintro rfl
      exact hlink (hwf.unique h ⟨pn, hp, hch⟩)
    obtain ⟨dn, hdn⟩ := hwf.present h
    obtain ⟨dn', hdn', -⟩ := get_removeNode_of_get hp hdn hdc
    exact ⟨dn', hdn'⟩
  names := by
    intro q m d h
    rw [childAt_removeNode hwf hp hch hn hempty] at h
    exact hwf.names h.1
  leaf := by
    intro x n' hx heph
    obtain ⟨hxc, xn, hxn, -, hmode, -⟩ := get_of_get_removeNode hp hx
    rw [getElem?_removeNode, if_neg (Ne.symm hxc)] at hx
    by_cases hpx : p = x
    · -- the parent has the removed child, so it is not ephemeral
      subst hpx
      rw [hp] at hxn
      cases hxn
      have := hwf.leaf hp (hmode ▸ heph)
      simp [this] at hch
    · rw [if_neg hpx, hxn] at hx
      cases hx
      exact hwf.leaf hxn heph
  owner := by
    intro x n' hx
    obtain ⟨-, xn, hxn, -, hmode, howner⟩ := get_of_get_removeNode hp hx
    rw [hmode, howner]
    exact hwf.owner hxn
  fresh := by
    intro x n' hx
    obtain ⟨-, xn, hxn, -⟩ := get_of_get_removeNode hp hx
    exact hwf.fresh hxn

end RemoveNode

/-- Storing a node with the same skeleton in place of a present one changes no skeleton. -/
theorem sameSkeleton_setNode {t : Tree} {id : Nat} {n n' : Node} (hn : t.nodes[id]? = some n)
    (h : n'.skeleton = n.skeleton) : SameSkeleton t (t.setNode id n') := by
  intro x
  simp only [setNode, Std.ExtTreeMap.getElem?_insert]
  by_cases hx : id = x
  · subst hx
    simp [hn, h]
  · simp [hx]

theorem getElem?_setNode (t : Tree) (id : Nat) (n : Node) (x : Nat) :
    (t.setNode id n).nodes[x]? = if id = x then some n else t.nodes[x]? := by
  simp [setNode, Std.ExtTreeMap.getElem?_insert]

/-- Moving a present node's counter on keeps the tree well formed. -/
theorem WF.bump {t : Tree} {p : Nat} {pn : Node} (hwf : t.WF) (hp : t.nodes[p]? = some pn) :
    (t.setNode p { pn with sequence := pn.sequence + 1 }).WF :=
  hwf.of_sameSkeleton (sameSkeleton_setNode hp (by simp [Node.skeleton])) (Nat.le_refl _)

theorem getElem?_empty (x : Nat) :
    Tree.empty.nodes[x]? = if x = rootId then some (Node.fresh "" none .persistent none) else none := by
  by_cases h : x = rootId
  · subst h
    simp [Tree.empty]
  · simp [Tree.empty, h, Ne.symm h]

theorem not_childAt_empty {p c : Nat} {name : String} : ¬ Tree.empty.ChildAt p name c := by
  rintro ⟨n, hn, hc⟩
  rw [getElem?_empty] at hn
  split_ifs at hn
  cases hn
  simp [Node.fresh] at hc

/-- The tree a store starts with, the root alone, is well formed. -/
theorem WF.empty : Tree.empty.WF where
  root := ⟨Node.fresh "" none .persistent none, by simp [getElem?_empty], rfl⟩
  parent := by
    intro c n hn hc
    rw [getElem?_empty, if_neg hc] at hn
    cases hn
  unique := fun h => absurd h not_childAt_empty
  rootFree := not_childAt_empty
  present := fun h => absurd h not_childAt_empty
  names := fun h => absurd h not_childAt_empty
  leaf := by
    intro id n hn hm
    rw [getElem?_empty] at hn
    split_ifs at hn
    cases hn
    simp [Node.fresh, CreateMode.isEphemeral] at hm
  owner := by
    intro id n hn
    rw [getElem?_empty] at hn
    split_ifs at hn
    cases hn
    rfl
  fresh := by
    intro id n hn
    rw [getElem?_empty] at hn
    split_ifs at hn with h
    simp [h, Tree.empty, rootId]

/-- Every change keeps the tree well formed. -/
theorem WF.step {t t' : Tree} {c : Change} (hwf : t.WF) (h : Step t c t') : t'.WF := by
  cases h with
  | created hp heph hfree hname _ howner => exact hwf.addNode hp heph hfree hname howner
  | dataChanged data hn =>
    exact hwf.of_sameSkeleton (sameSkeleton_setNode hn (by simp [Node.skeleton]))
      (Nat.le_refl _)
  | deleted hp hch hn hempty => exact WF.removeNode hwf hp hch hn hempty

end Tree

end CoordStore
