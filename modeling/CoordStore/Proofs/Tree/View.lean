import Mathlib.Data.List.Sort
import Mathlib.Data.String.Basic
import CoordStore.Proofs.PathStore
import CoordStore.Proofs.Tree.Change

/-!
# The tree seen by its paths

`Tree.view` reads a tree as a store keyed by paths: every node's entry (payload, mode, owner,
counter) under its stored path. In a well-formed tree paths do not repeat, so the view has
exactly the entries of the nodes (`WF.getElem?_view`, `mem_view`), and any store that has
those and no others is the view (`WF.view_eq_of`).

Each tree operation is then an operation of the path-keyed store on the view: a walk down the
children tables is a walk down paths (`WF.walk_view`), and creating a child, replacing a
payload and removing a child give the results and views that `createAt`, `modify` and
`deleteAt` give (`WF.observe_addChild`, `WF.observe_setData`, `WF.observe_deleteChild`). A
tree with counters moved on is seen with counters moved on (`WF.countersAdvanced_view`).
-/

namespace CoordStore

/-- The entry a node shows: all of it but its path and its children. -/
def Entry.of (n : Node) : Entry :=
  ⟨n.data, n.mode, n.owner, n.sequence⟩

namespace Tree

/-- The tree as a store keyed by paths: each node's entry under its path. -/
def view (t : Tree) : PathStore :=
  Std.ExtTreeMap.ofList (t.nodes.toList.map fun p => (p.2.path, Entry.of p.2))

/-- What a tree operation gives, seen through the view: its result, and the view after it. -/
def observe {α β : Type} (f : α → β) :
    EStateM.Result DirError Tree α → Except DirError β × PathStore
  | .ok a t => (.ok (f a), t.view)
  | .error e t => (.error e, t.view)

variable {t : Tree}

theorem mem_view {q : String} :
    q ∈ t.view ↔ ∃ (id : Nat) (n : Node), t.nodes[id]? = some n ∧ n.path = q := by
  simp [view, List.mem_map]

theorem getElem?_view_eq_none {q : String}
    (h : ¬ ∃ (id : Nat) (n : Node), t.nodes[id]? = some n ∧ n.path = q) : t.view[q]? = none :=
  Std.ExtTreeMap.getElem?_eq_none (mem_view.not.2 h)

namespace WF

variable (hwf : t.WF)
include hwf

/-- The nodes, listed by number, have distinct paths. -/
theorem pairwise_path_ne : t.nodes.toList.Pairwise fun a b => a.2.path ≠ b.2.path := by
  refine Std.ExtTreeMap.distinct_keys_toList.imp_of_mem ?_
  rintro ⟨i, n⟩ ⟨j, m⟩ hi hj hne heq
  rw [Std.ExtTreeMap.mem_toList_iff_getElem?_eq_some] at hi hj
  exact hne (by rw [hwf.path_injective hi hj heq]; simp)

/-- A node's entry is at its path: no other node has that path. -/
theorem getElem?_view {id : Nat} {n : Node} (hn : t.nodes[id]? = some n) :
    t.view[n.path]? = some (Entry.of n) := by
  have hdistinct : (t.nodes.toList.map fun p => (p.2.path, Entry.of p.2)).Pairwise
      (fun a b => ¬ compare a.1 b.1 = .eq) := by
    rw [List.pairwise_map]
    exact hwf.pairwise_path_ne.imp fun hne heq => hne (Std.LawfulEqCmp.eq_of_compare heq)
  exact Std.ExtTreeMap.getElem?_ofList_of_mem Std.ReflCmp.compare_self hdistinct
    (List.mem_map.2 ⟨(id, n), Std.ExtTreeMap.mem_toList_iff_getElem?_eq_some.2 hn, rfl⟩)

/-- A store holding every node's entry at its path, and nothing else, is the view. -/
theorem view_eq_of {M : PathStore}
    (hget : ∀ (id : Nat) (n : Node), t.nodes[id]? = some n → M[n.path]? = some (Entry.of n))
    (hmem : ∀ q, q ∈ M → ∃ (id : Nat) (n : Node), t.nodes[id]? = some n ∧ n.path = q) :
    t.view = M := by
  refine Std.ExtTreeMap.ext_getElem? fun q => ?_
  by_cases hq : ∃ (id : Nat) (n : Node), t.nodes[id]? = some n ∧ n.path = q
  · obtain ⟨id, n, hn, rfl⟩ := hq
    rw [hwf.getElem?_view hn, hget id n hn]
  · rw [getElem?_view_eq_none hq, eq_comm]
    exact Std.ExtTreeMap.getElem?_eq_none fun hm => hq (hmem q hm)

/-- A node has a child under a name exactly when the view has the joined path. -/
theorem contains_view_join {p : Nat} {pn : Node} (hp : t.nodes[p]? = some pn) {name : String}
    (hname : '/' ∉ name.toList) :
    t.view.contains (Path.join pn.path name) = pn.children.contains name := by
  rw [Bool.eq_iff_iff, Std.ExtTreeMap.contains_iff_mem, Std.ExtTreeMap.contains_iff_mem,
    mem_view, Std.ExtTreeMap.mem_iff_isSome_getElem?]
  constructor
  · rintro ⟨c, m, hc, hpath⟩
    rw [(hwf.children_eq_some_iff hp hname hc).2 hpath]
    rfl
  · intro h
    obtain ⟨c, hc⟩ := Option.isSome_iff_exists.1 h
    obtain ⟨m, hm⟩ := hwf.present ⟨pn, hp, hc⟩
    exact ⟨c, m, hm, hwf.path_of_childAt hp hc hm⟩

/-- A node has children exactly when the view has a path one name below its own. -/
theorem any_extendsByName_view {id : Nat} {n : Node} (hn : t.nodes[id]? = some n) :
    t.view.keys.any (Path.extendsByName n.path) = !n.children.isEmpty := by
  rw [Bool.eq_iff_iff, List.any_eq_true, Bool.not_eq_true', Std.ExtTreeMap.isEmpty_eq_false_iff]
  constructor
  · rintro ⟨k, hk, hext⟩
    obtain ⟨name, hname, rfl⟩ := (Path.extendsByName_iff (hwf.unslashed hn)).1 hext
    obtain ⟨c, m, hc, hpath⟩ := mem_view.1 (Std.ExtTreeMap.mem_keys.1 hk)
    intro hempty
    have hch := (hwf.children_eq_some_iff hn hname.2 hc).2 hpath
    simp [hempty] at hch
  · intro hne
    obtain ⟨name, c, hch⟩ : ∃ name c, n.children[name]? = some c := by
      by_contra hnone
      refine hne (Std.ExtTreeMap.ext_getElem? fun name => ?_)
      cases hc : n.children[name]? with
      | none => simp
      | some c => exact absurd ⟨name, c, hc⟩ hnone
    obtain ⟨m, hm⟩ := hwf.present ⟨n, hn, hch⟩
    refine ⟨m.path, Std.ExtTreeMap.mem_keys.2 (mem_view.2 ⟨c, m, hm, rfl⟩), ?_⟩
    exact (Path.extendsByName_iff (hwf.unslashed hn)).2
      ⟨name, hwf.names ⟨n, hn, hch⟩, hwf.path_of_childAt hn hch hm⟩

/-- The view lists a node's children: the names one name below its path are its children's
names, as both lists are ascending and hold the same names. -/
theorem namesBelow_view {id : Nat} {n : Node} (hn : t.nodes[id]? = some n) :
    t.view.namesBelow n.path = n.childNames := by
  have hq := hwf.unslashed hn
  -- a path one name below the node's is the node's path joined with the name it ends in
  have hbelow : ∀ k ∈ t.view.keys.filter (Path.extendsByName n.path),
      ∃ name, Path.IsName name ∧ k = Path.join n.path name ∧ PathStore.lastName n.path k = name := by
    intro k hk
    obtain ⟨name, hname, rfl⟩ := (Path.extendsByName_iff hq).1 (List.mem_filter.1 hk).2
    exact ⟨name, hname, rfl, PathStore.lastName_join hq name⟩
  have hnodup :
      ((t.view.keys.filter (Path.extendsByName n.path)).map (PathStore.lastName n.path)).Nodup := by
    refine (Std.ExtTreeMap.nodup_keys.filter _).map_on fun k hk k' hk' heq => ?_
    obtain ⟨a, -, rfl, ha⟩ := hbelow k hk
    obtain ⟨b, -, rfl, hb⟩ := hbelow k' hk'
    rw [← ha, ← hb, heq]
  -- a child's path is in the view exactly when the node has a child of that name
  have hchild : ∀ name, Path.IsName name →
      (Path.join n.path name ∈ t.view.keys ↔ name ∈ n.children) := fun name hname => by
    rw [Std.ExtTreeMap.mem_keys, ← Std.ExtTreeMap.contains_iff_mem,
      hwf.contains_view_join hn hname.2, Std.ExtTreeMap.contains_iff_mem]
  refine List.Pairwise.eq_of_mem_iff (r := (· < ·)) ?_ ?_ fun name => ?_
  · exact (List.sortedLE_mergeSort.sortedLT_of_nodup
      ((List.mergeSort_perm _ _).nodup_iff.2 hnodup)).pairwise
  · exact Std.ExtTreeMap.ordered_keys.imp compare_lt_iff_lt.1
  · rw [PathStore.namesBelow, List.mem_mergeSort, List.mem_map, Node.childNames,
      Std.ExtTreeMap.mem_keys]
    constructor
    · rintro ⟨k, hk, rfl⟩
      obtain ⟨name, hname, rfl, hlast⟩ := hbelow k hk
      rw [hlast, ← hchild name hname]
      exact (List.mem_filter.1 hk).1
    · intro hmem
      obtain ⟨c, hc⟩ := Option.isSome_iff_exists.1 (Std.ExtTreeMap.mem_iff_isSome_getElem?.1 hmem)
      have hname : Path.IsName name := hwf.names ⟨n, hn, hc⟩
      refine ⟨Path.join n.path name, List.mem_filter.2 ⟨(hchild name hname).2 hmem, ?_⟩,
        PathStore.lastName_join hq name⟩
      exact (Path.extendsByName_iff hq).2 ⟨name, hname, rfl⟩

/-! ## The view after each change of a node -/

/-- Replacing a node by one with the same path replaces its entry. -/
theorem view_setNode {id : Nat} {n n' : Node} (hn : t.nodes[id]? = some n)
    (hpath : n'.path = n.path) (hwf' : (t.setNode id n').WF) :
    (t.setNode id n').view = t.view.insert n.path (Entry.of n') := by
  apply hwf'.view_eq_of
  · intro x m hx
    rw [getElem?_setNode] at hx
    split_ifs at hx with hix
    · cases hx
      rw [hpath, Std.ExtTreeMap.getElem?_insert_self]
    · have hne : n.path ≠ m.path := fun he => hix (hwf.path_injective hn hx he)
      simp [Std.ExtTreeMap.getElem?_insert, hne, hwf.getElem?_view hx]
  · intro q hq
    rcases Std.ExtTreeMap.mem_insert.1 hq with hq | hq
    · exact ⟨id, n', by simp [getElem?_setNode], by rw [hpath]; exact Std.LawfulEqCmp.eq_of_compare hq⟩
    · obtain ⟨x, m, hx, rfl⟩ := mem_view.1 hq
      by_cases hix : id = x
      · subst hix
        rw [hn] at hx
        cases hx
        exact ⟨id, n', by simp [getElem?_setNode], hpath⟩
      · exact ⟨x, m, by simp [getElem?_setNode, hix, hx], rfl⟩

/-- Storing again the entry a node already shows changes nothing. -/
theorem insert_view_self {p : Nat} {pn : Node} (hp : t.nodes[p]? = some pn) :
    t.view.insert pn.path (Entry.of pn) = t.view := by
  refine Std.ExtTreeMap.ext_getElem? fun k => ?_
  rw [Std.ExtTreeMap.getElem?_insert]
  split_ifs with hk
  · rw [← Std.LawfulEqCmp.eq_of_compare hk, hwf.getElem?_view hp]
  · rfl

/-- Creating a node adds its entry at its path, and gives its parent the new counter. -/
theorem view_addNode {p : Nat} {pn : Node} {name : String} {seq : Nat}
    {data : Option (List UInt8)} {mode : CreateMode} {owner : Option Int}
    (hp : t.nodes[p]? = some pn) (hfree : pn.children[name]? = none) (hname : Path.IsName name)
    (hwf' : (t.addNode p pn name seq data mode owner).WF) :
    (t.addNode p pn name seq data mode owner).view =
      (t.view.insert pn.path (Entry.of { pn with sequence := seq })).insert
        (Path.join pn.path name) (Entry.of (Node.fresh (Path.join pn.path name) data mode owner)) := by
  have hlong : pn.path ≠ Path.join pn.path name := fun h => by
    have := congrArg String.length h
    rw [Path.length_join (hwf.unslashed hp)] at this
    omega
  have hnew := (hwf.children_eq_none_iff hp hname.2).1 hfree
  have hpfresh : p ≠ t.nextId := fun he => by simp [he, hwf.nextId_free] at hp
  apply hwf'.view_eq_of
  · intro x m hx
    rw [getElem?_addNode] at hx
    split_ifs at hx with h1 h2
    · cases hx
      simp [Node.fresh]
    · cases hx
      rw [Std.ExtTreeMap.getElem?_insert,
        if_neg (fun h => hlong (Std.LawfulEqCmp.eq_of_compare h).symm),
        Std.ExtTreeMap.getElem?_insert_self]
      rfl
    · have hne : pn.path ≠ m.path := fun he => h2 (hwf.path_injective hp hx he)
      simp [Std.ExtTreeMap.getElem?_insert, Ne.symm (hnew x m hx), hne, hwf.getElem?_view hx]
  · intro q hq
    simp only [Std.ExtTreeMap.mem_insert, Std.LawfulEqCmp.compare_eq_iff_eq] at hq
    rcases hq with rfl | rfl | hq
    · exact ⟨t.nextId, Node.fresh (Path.join pn.path name) data mode owner,
        by simp [getElem?_addNode], rfl⟩
    · exact ⟨p, { pn with sequence := seq, children := pn.children.insert name t.nextId },
        by simp [getElem?_addNode, Ne.symm hpfresh], rfl⟩
    · obtain ⟨x, m, hx, rfl⟩ := mem_view.1 hq
      have hxfresh : t.nextId ≠ x := fun he => by simp [← he, hwf.nextId_free] at hx
      by_cases hpx : p = x
      · subst hpx
        rw [hp] at hx
        cases hx
        exact ⟨p, { pn with sequence := seq, children := pn.children.insert name t.nextId },
          by simp [getElem?_addNode, Ne.symm hpfresh], rfl⟩
      · exact ⟨x, m, by simp [getElem?_addNode, hxfresh, hpx, hx], rfl⟩

/-- Removing a child removes its entry. -/
theorem view_removeNode {p : Nat} {pn : Node} {name : String} {c : Nat} {n : Node}
    (hp : t.nodes[p]? = some pn) (hch : pn.children[name]? = some c) (hn : t.nodes[c]? = some n)
    (hwf' : (t.removeNode p pn name c).WF) :
    (t.removeNode p pn name c).view = t.view.erase n.path := by
  have hpc : p ≠ c := hwf.ne_of_childAt ⟨pn, hp, hch⟩
  apply hwf'.view_eq_of
  · intro x m hx
    rw [getElem?_removeNode] at hx
    split_ifs at hx with h1 h2
    · cases hx
      have hne : n.path ≠ pn.path := fun he => hpc (hwf.path_injective hp hn he.symm)
      simp [Std.ExtTreeMap.getElem?_erase, hne, hwf.getElem?_view hp, Entry.of]
    · have hne : n.path ≠ m.path := fun he => h1 (hwf.path_injective hn hx he)
      simp [Std.ExtTreeMap.getElem?_erase, hne, hwf.getElem?_view hx]
  · intro q hq
    obtain ⟨hne, hq⟩ := Std.ExtTreeMap.mem_erase.1 hq
    obtain ⟨x, m, hx, rfl⟩ := mem_view.1 hq
    have hcx : c ≠ x := by
      rintro rfl
      rw [hn] at hx
      cases hx
      exact hne Std.ReflCmp.compare_self
    by_cases hpx : p = x
    · subst hpx
      rw [hp] at hx
      cases hx
      exact ⟨p, { pn with children := pn.children.erase name },
        by simp [getElem?_removeNode, hcx], rfl⟩
    · exact ⟨x, m, by simp [getElem?_removeNode, hcx, hpx, hx], rfl⟩

/-! ## Tree operations seen through the view -/

/-- Walking down the view from a node's path is walking down the children tables from that
node, and reading the path of the node reached. -/
theorem walk_view : ∀ {id : Nat} {n : Node} {names : List String}, t.nodes[id]? = some n →
    (∀ s ∈ names, '/' ∉ s.toList) →
    t.view.walk n.path names = (t.descend n id names >>= fun c => (t.node c).map Node.path)
  | id, n, [], hn, _ => by
    simp [PathStore.walk, descend, node, hn, bind, Except.bind, Except.map]
  | id, n, name :: rest, hn, hnames => by
    have hname : '/' ∉ name.toList := hnames name List.mem_cons_self
    have hrest : ∀ s ∈ rest, '/' ∉ s.toList := fun s hs => hnames s (List.mem_cons_of_mem _ hs)
    rw [PathStore.walk, hwf.contains_view_join hn hname]
    cases hc : n.children[name]? with
    | none =>
      have hnc : n.children.contains name = false := by
        simp [Std.ExtTreeMap.contains_eq_isSome_getElem?, hc]
      simp [hnc, descend, hc, bind, Except.bind]
    | some c =>
      obtain ⟨m, hm⟩ := hwf.present ⟨n, hn, hc⟩
      have hnc : n.children.contains name = true := by
        simp [Std.ExtTreeMap.contains_eq_isSome_getElem?, hc]
      rw [if_pos hnc, ← hwf.path_of_childAt hn hc hm, walk_view hm hrest]
      simp [descend, hc, node, hm, bind, Except.bind]

/-- Walking down the view from a present node's path is resolving names from that node. -/
theorem walk_view_resolve {root : Nat} {r : Node} (hr : t.nodes[root]? = some r)
    {names : List String} (hnames : ∀ s ∈ names, '/' ∉ s.toList) :
    t.view.walk r.path names = (t.resolve root names >>= fun c => (t.node c).map Node.path) := by
  rw [resolve_of_get hr]
  exact hwf.walk_view hr hnames

/-- Creating a child is creating the joined path in the view: the same refusals in the same
order, the same counter moved on, the same entry stored. -/
theorem observe_addChild {p : Nat} {pn : Node} (hp : t.nodes[p]? = some pn) {name : String}
    (hname : Path.IsName name) (data : Option (List UInt8)) (mode : CreateMode) (owner : Int) :
    observe Prod.fst (addChild p name data mode owner t) =
      t.view.createAt pn.path name data mode owner := by
  have heph {name' : String} {seq : Nat} (hname' : Path.IsName name')
      (hfree : pn.children[name']? = none) (hle : pn.sequence ≤ seq)
      (h2 : ¬pn.mode.isEphemeral = true) :
      (t.addNode p pn name' seq data mode (if mode.isEphemeral then some owner else none)).view =
        (t.view.insert pn.path (Entry.of { pn with sequence := seq })).insert
          (Path.join pn.path name') ⟨data, mode, if mode.isEphemeral then some owner else none, 0⟩ :=
    hwf.view_addNode hp hfree hname' (hwf.step (Step.created hp (by simpa using h2) hfree hname' hle
      (by cases mode.isEphemeral <;> rfl)))
  unfold addChild PathStore.createAt
  simp only [hp, hwf.getElem?_view hp, hwf.contains_view_join hp hname.2]
  -- the refusals of a taken plain name and of an ephemeral parent read the same
  by_cases h1 : (!mode.isSequential && pn.children.contains name) = true
  · simp only [h1, if_true, observe]
  by_cases h2 : pn.mode.isEphemeral = true
  · simp only [h1, h2, if_true, if_false, Bool.false_eq_true, observe, Entry.of]
  simp only [h1, h2, Bool.false_eq_true, if_false, Entry.of]
  have hname' : Path.IsName (pn.childName name mode).1 := Node.isName_childName mode hname
  cases hseq : mode.isSequential
  · -- a plain name: free, since the first check passed
    have hfree : pn.children.contains name = false :=
      Bool.eq_false_iff.2 fun h => h1 (by simp [hseq, h])
    rw [childName_of_not_sequential hseq] at hname' ⊢
    have hview := heph hname' (Std.ExtTreeMap.getElem?_eq_none_of_contains_eq_false hfree)
      (Nat.le_refl _) h2
    rw [Tree.addNode] at hview
    simp only [hwf.contains_view_join hp hname.2, hfree, Bool.false_eq_true, if_false, observe,
      hview, hwf.insert_view_self hp]
  · -- a numbered name: the counter moves on, also when the numbered name is taken
    rw [childName_of_sequential hseq] at hname' ⊢
    have hbump := hwf.bump hp
    have hbumped : (t.setNode p { pn with sequence := pn.sequence + 1 }).view =
        t.view.insert pn.path ⟨pn.data, pn.mode, pn.owner, pn.sequence + 1⟩ :=
      hwf.view_setNode hp rfl hbump
    have hcontains := hbump.contains_view_join (getElem?_setNode t p _ p ▸ if_pos rfl) hname'.2
    simp only at hcontains
    rw [hbumped] at hcontains
    simp only [if_true, hcontains]
    by_cases hc : pn.children.contains (name ++ sequenceSuffix pn.sequence) = true
    · simp only [hc, if_true, observe, hbumped]
    · have hfree := Std.ExtTreeMap.getElem?_eq_none_of_contains_eq_false (Bool.eq_false_iff.2 hc)
      have hview := heph hname' hfree (Nat.le_succ _) h2
      rw [Tree.addNode] at hview
      simp only [hc, Bool.false_eq_true, if_false, observe, hview]
      rfl
/-- Replacing a payload replaces it in the entry at the node's path. -/
theorem observe_setData {id : Nat} {n : Node} (hn : t.nodes[id]? = some n)
    (data : Option (List UInt8)) :
    observe (fun _ => ()) (setData id data t) =
      (.ok (), t.view.modify n.path fun e => { e with data }) := by
  have hwf' := hwf.step (Step.dataChanged data hn)
  simp only [setData, hn, observe]
  rw [hwf.view_setNode hn (show ({ n with data } : Node).path = n.path from rfl) hwf']
  refine congrArg _ (Std.ExtTreeMap.ext_getElem? fun k => ?_)
  rw [Std.ExtTreeMap.getElem?_insert, Std.ExtTreeMap.getElem?_modify, hwf.getElem?_view hn]
  rfl

/-- Removing a child is removing the joined path from the view: refused when it is missing,
or when a path one name below it is there. -/
theorem observe_deleteChild {p : Nat} {pn : Node} (hp : t.nodes[p]? = some pn) {name : String}
    (hname : '/' ∉ name.toList) :
    observe (fun _ => ()) (deleteChild p name t) = t.view.deleteAt pn.path name := by
  unfold deleteChild PathStore.deleteAt
  simp only [hp, hwf.contains_view_join hp hname]
  cases hch : pn.children[name]? with
  | none =>
    have hnc : pn.children.contains name = false := by
      simp [Std.ExtTreeMap.contains_eq_isSome_getElem?, hch]
    simp [hnc, observe]
  | some c =>
    obtain ⟨m, hm⟩ := hwf.present ⟨pn, hp, hch⟩
    have hnc : pn.children.contains name = true := by
      simp [Std.ExtTreeMap.contains_eq_isSome_getElem?, hch]
    have hpath := hwf.path_of_childAt hp hch hm
    simp only [hm, hnc, Bool.not_true, Bool.false_eq_true, if_false]
    rw [← hpath, hwf.any_extendsByName_view hm]
    by_cases hempty : m.children.isEmpty = true
    · have hleaf : m.children = ∅ := Std.ExtTreeMap.isEmpty_iff.1 hempty
      have hwf' := hwf.step (Step.deleted hp hch hm hleaf)
      simp only [hempty, if_true, Bool.not_true, Bool.false_eq_true, if_false, observe]
      have hremoved : ({ t with nodes := (t.nodes.insert p
          { pn with children := pn.children.erase name }).erase c } : Tree) =
          t.removeNode p pn name c := rfl
      rw [hremoved, hwf.view_removeNode hp hch hm hwf']
    · simp [hempty, observe]

/-- A tree with counters moved on is seen with counters moved on. -/
theorem countersAdvanced_view {t' : Tree} (h : Advanced t t') :
    PathStore.CountersAdvanced t.view t'.view := by
  have hwf' := hwf.of_sameSkeleton h.sameSkeleton h.nextId
  intro k
  by_cases hk : ∃ (id : Nat) (n : Node), t.nodes[id]? = some n ∧ n.path = k
  · obtain ⟨id, n, hn, rfl⟩ := hk
    obtain ⟨n', hn', hshape, hseq⟩ := h.get hn
    obtain ⟨hpath, hdata, hmode, howner, -⟩ := Node.shape_eq_iff.1 hshape
    rw [hwf.getElem?_view hn, hpath, hwf'.getElem?_view hn']
    exact .some ⟨by simp [Entry.of, hdata, hmode, howner], hseq⟩
  · rw [getElem?_view_eq_none hk, getElem?_view_eq_none]
    · exact .none
    · -- a node of the later tree was there before, with its path
      rintro ⟨id, n', hn', rfl⟩
      obtain ⟨n, hn, hpath, -⟩ := h.sameSkeleton.symm.get hn'
      exact hk ⟨id, n, hn, hpath⟩

/-- A session owns as many nodes as the view has entries it owns. -/
theorem length_ownedBy (s : Int) :
    (t.ownedBy s).length = (t.view.filter fun _ e => e.owner == some s).size := by
  set L := t.nodes.toList.filter fun p => p.2.owner == some s
  have hlen : (t.ownedBy s).length = (L.map fun p => p.2.path).length := by simp [ownedBy, L]
  have hnodup : (L.map fun p => p.2.path).Nodup := by
    rw [List.Nodup, List.pairwise_map]
    exact hwf.pairwise_path_ne.filter _
  rw [hlen, ← Std.ExtTreeMap.length_keys]
  refine ((List.perm_ext_iff_of_nodup hnodup Std.ExtTreeMap.nodup_keys).2 fun k => ?_).length_eq
  rw [Std.ExtTreeMap.mem_keys, Std.ExtTreeMap.mem_iff_isSome_getElem?,
    Std.ExtTreeMap.getElem?_filter', List.mem_map]
  constructor
  · rintro ⟨⟨id, n⟩, hmem, rfl⟩
    obtain ⟨hmem, hown⟩ := List.mem_filter.1 hmem
    rw [Std.ExtTreeMap.mem_toList_iff_getElem?_eq_some] at hmem
    simpa [hwf.getElem?_view hmem, Entry.of] using hown
  · intro h
    obtain ⟨e, he⟩ := Option.isSome_iff_exists.1 h
    obtain ⟨hk, hown⟩ := Option.filter_eq_some_iff.1 he
    have hkm : k ∈ t.view := Std.ExtTreeMap.mem_iff_isSome_getElem?.2 (by simp [hk])
    obtain ⟨id, n, hn, rfl⟩ := mem_view.1 hkm
    rw [hwf.getElem?_view hn] at hk
    cases hk
    exact ⟨(id, n), List.mem_filter.2
      ⟨Std.ExtTreeMap.mem_toList_iff_getElem?_eq_some.2 hn, hown⟩, rfl⟩

end WF

/-- The tree a store starts with is seen as the reference's first store. -/
theorem view_empty : Tree.empty.view = PathStore.initial := by
  apply WF.empty.view_eq_of
  · intro id n hn
    rw [getElem?_empty] at hn
    split_ifs at hn
    cases hn
    simp [PathStore.initial, Node.fresh, Entry.of]
  · intro q hq
    simp only [PathStore.initial, Std.ExtTreeMap.mem_insert, Std.LawfulEqCmp.compare_eq_iff_eq,
      Std.ExtTreeMap.not_mem_empty, or_false] at hq
    exact ⟨rootId, Node.fresh "" none .persistent none, by simp [getElem?_empty], hq⟩

end Tree

end CoordStore
