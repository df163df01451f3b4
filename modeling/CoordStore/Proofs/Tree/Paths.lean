import CoordStore.Proofs.Tree.WellFormed

/-!
# A well-formed tree by its paths

In a well-formed tree the stored path names the node: two nodes never share a path
(`WF.path_injective`), and the child of a node under a name is the node whose path is the
parent's path joined with that name (`WF.children_eq_some_iff`). Reading a stored path back
finds its node: resolving its names from the root ends there (`WF.resolve_namesOf`), and
cutting it at its last separator gives the parent's path and the node's name, so that
`Tree.locate` finds the parent of every node but the root (`WF.locate_eq_ok`).

The nodes a session owns are listed once each (`Tree.nodup_ownedBy`, `Tree.mem_ownedBy`).
-/

namespace CoordStore

namespace Path

/-! ## Cutting text at its last separator -/

theorem takeWhile_append_slash {u v : List Char} (h : '/' ∉ u) :
    (u ++ '/' :: v).takeWhile (· ≠ '/') = u := by
  induction u with
  | nil => simp
  | cons c cs ih =>
    simp only [List.mem_cons, not_or] at h
    rw [List.cons_append, List.takeWhile_cons, if_pos (by simpa using Ne.symm h.1), ih h.2]

theorem dropWhile_append_slash {u v : List Char} (h : '/' ∉ u) :
    (u ++ '/' :: v).dropWhile (· ≠ '/') = '/' :: v := by
  induction u with
  | nil => simp
  | cons c cs ih =>
    simp only [List.mem_cons, not_or] at h
    rw [List.cons_append, List.dropWhile_cons, if_pos (by simpa using Ne.symm h.1), ih h.2]

/-- Text with a separator whose tail holds none is cut at that separator. -/
theorem lastSplit_of_toList {k : String} {u v : List Char} (hk : k.toList = u ++ '/' :: v)
    (hv : '/' ∉ v) : Tree.lastSplit k = some (u, String.ofList v) := by
  have hrev : k.toList.reverse = v.reverse ++ '/' :: u.reverse := by simp [hk]
  have hv' : '/' ∉ v.reverse := by simpa using hv
  have hc : (v.reverse ++ '/' :: u.reverse).contains '/' = true := by simp
  simp only [Tree.lastSplit, hrev, hc, if_true, takeWhile_append_slash hv',
    dropWhile_append_slash hv', List.tail_cons, List.reverse_reverse]

/-- What `lastSplit` cuts off is the text after the last separator. -/
theorem toList_of_lastSplit {k : String} {u : List Char} {name : String}
    (h : Tree.lastSplit k = some (u, name)) :
    k.toList = u ++ '/' :: name.toList ∧ '/' ∉ name.toList := by
  simp only [Tree.lastSplit] at h
  split at h
  · rename_i hslash
    simp only [Option.some.injEq, Prod.mk.injEq] at h
    obtain ⟨rfl, rfl⟩ := h
    set rev := k.toList.reverse
    set tw := rev.takeWhile (· ≠ '/')
    have hsplit : tw ++ rev.dropWhile (· ≠ '/') = rev := List.takeWhile_append_dropWhile
    have htw : ∀ c ∈ tw, c ≠ '/' := by
      intro c hc
      simpa using List.all_eq_true.1 List.all_takeWhile c hc
    -- what is dropped starts at the last separator
    obtain ⟨rest, hdrop⟩ : ∃ rest, rev.dropWhile (· ≠ '/') = '/' :: rest := by
      cases hd : rev.dropWhile (· ≠ '/') with
      | nil =>
        have hmem : '/' ∈ rev := by simpa using hslash
        rw [hd, List.append_nil] at hsplit
        exact absurd rfl (htw '/' (hsplit ▸ hmem))
      | cons c rest =>
        have hc := List.head_dropWhile_not (· ≠ '/') (l := rev)
          (by rw [hd]; exact List.cons_ne_nil _ _)
        simp only [hd, List.head_cons, decide_eq_false_iff_not, not_not] at hc
        exact ⟨rest, by rw [hc]⟩
    rw [hdrop] at hsplit
    refine ⟨?_, fun hm => htw '/' (by simpa using hm) rfl⟩
    rw [hdrop, List.tail_cons, String.toList_ofList]
    calc k.toList = rev.reverse := by simp [rev]
      _ = (tw ++ '/' :: rest).reverse := by rw [hsplit]
      _ = rest.reverse ++ '/' :: tw.reverse := by simp
  · cases h

/-- A joined path is cut into its parent path and its name. -/
theorem lastSplit_join {p name : String} (hp : Unslashed p) (hname : '/' ∉ name.toList) :
    Tree.lastSplit (join p name) = some (p.toList, name) := by
  rw [lastSplit_of_toList (toList_join hp name) hname, String.ofList_toList]

/-! ## The names of a stored path -/

/-- A separator splits the words of what stands before it from those after it. -/
theorem pieces_append_slash :
    ∀ (a b : List Char), pieces (a ++ '/' :: b) = pieces a ++ pieces b
  | [], b => by simp [pieces]
  | c :: a, b => by
    by_cases hc : c = '/'
    · simp [pieces, hc, pieces_append_slash a b]
    · have hne : pieces a ≠ [] := by
        cases a with
        | nil => simp [pieces]
        | cons d a =>
          unfold pieces
          split
          · simp
          · split <;> simp
      obtain ⟨w, ws, hw⟩ := List.exists_cons_of_ne_nil hne
      simp [pieces, hc, pieces_append_slash a b, hw]

/-- Text without separators is one word. -/
theorem pieces_of_slash_not_mem : ∀ {cs : List Char}, '/' ∉ cs → pieces cs = [cs]
  | [], _ => rfl
  | c :: cs, h => by
    have hc : c ≠ '/' := fun he => h (he ▸ List.mem_cons_self)
    have ih := pieces_of_slash_not_mem (fun hm => h (List.mem_cons_of_mem _ hm))
    simp [pieces, hc, ih]

/-- The names of the path `Tree.locate` walks to: the non-empty words of a text. -/
def namesOf (p : List Char) : List String :=
  ((pieces p).filter (!·.isEmpty)).map String.ofList

theorem namesOf_join {p : String} (hp : Unslashed p) {name : String} (hname : IsName name) :
    namesOf (join p name).toList = namesOf p.toList ++ [name] := by
  have hne : name.toList ≠ [] := fun he => hname.1 (String.toList_inj.1 (by simp [he]))
  rw [toList_join hp, namesOf, pieces_append_slash, pieces_of_slash_not_mem hname.2]
  simp [namesOf, List.filter_append, hne]

end Path

namespace Tree

variable {t : Tree}

/-- Resolving from a present node walks down from it. -/
theorem resolve_of_get {start : Nat} {n : Node} (hn : t.nodes[start]? = some n)
    (names : List String) : t.resolve start names = t.descend n start names := by
  simp [resolve, node, hn, bind, Except.bind]

/-- A walk goes on from where a walk on a prefix of its names ended. -/
theorem descend_append : ∀ {n : Node} {start : Nat} {as : List String} {p : Nat} {pn : Node}
    (bs : List String), t.nodes[start]? = some n → t.descend n start as = .ok p →
    t.nodes[p]? = some pn → t.descend n start (as ++ bs) = t.descend pn p bs
  | n, start, [], p, pn, bs, hn, h, hp => by
    simp only [descend, Except.ok.injEq] at h
    subst h
    rw [hn] at hp
    cases hp
    rfl
  | n, start, name :: rest, p, pn, bs, _, h, hp => by
    cases hc : n.children[name]? with
    | none => simp [descend, hc] at h
    | some c =>
      cases hm : t.nodes[c]? with
      | none => simp [descend, hc, node, hm, bind, Except.bind] at h
      | some m =>
        simp only [descend, hc, node, hm, bind, Except.bind] at h
        simp only [List.cons_append, descend, hc, node, hm, bind, Except.bind]
        exact descend_append bs hm h hp

/-- One step down to a present child. -/
theorem descend_single {p c : Nat} {pn m : Node} {name : String}
    (hch : pn.children[name]? = some c) (hm : t.nodes[c]? = some m) :
    t.descend pn p [name] = .ok c := by
  simp [descend, hch, node, hm, bind, Except.bind]

namespace WF

variable (hwf : t.WF)
include hwf

/-- Only the root has the empty path. -/
theorem eq_rootId_of_path_eq_empty {i : Nat} {n : Node} (hi : t.nodes[i]? = some n)
    (h : n.path = "") : i = rootId := by
  by_contra hne
  obtain ⟨p, pn, name, -, -, hpath⟩ := hwf.parent hi hne
  exact Path.join_ne_empty _ _ (hpath ▸ h)

theorem path_root {n : Node} (hn : t.nodes[rootId]? = some n) : n.path = "" := by
  obtain ⟨r, hr, hpath⟩ := hwf.root
  rw [hr] at hn
  cases hn
  exact hpath

/-- The node below the root and its parent's path, one step shorter. -/
theorem exists_parent {i : Nat} {n : Node} (hi : t.nodes[i]? = some n) (hne : i ≠ rootId) :
    ∃ (p : Nat) (pn : Node) (name : String), t.nodes[p]? = some pn ∧
      pn.children[name]? = some i ∧ Path.IsName name ∧
      n.path = Path.join pn.path name ∧ pn.path.length < n.path.length := by
  obtain ⟨p, pn, name, hp, hpc, hpath⟩ := hwf.parent hi hne
  refine ⟨p, pn, name, hp, hpc, hwf.names ⟨pn, hp, hpc⟩, hpath, ?_⟩
  rw [hpath, Path.length_join (hwf.unslashed hp)]
  omega

/-- Two nodes with one path are one node: below the root, their parents have one path, one
step shorter, and they are the children of that parent under one name. -/
theorem path_injective {i j : Nat} {n m : Node} (hi : t.nodes[i]? = some n)
    (hj : t.nodes[j]? = some m) (h : n.path = m.path) : i = j := by
  -- strong induction on the length of the common path
  induction hlen : n.path.length using Nat.strongRecOn generalizing i j n m with
  | ind len ih =>
    by_cases hir : i = rootId
    · subst hir
      exact (hwf.eq_rootId_of_path_eq_empty hj (h ▸ hwf.path_root hi)).symm
    by_cases hjr : j = rootId
    · subst hjr
      exact hwf.eq_rootId_of_path_eq_empty hi (h.trans (hwf.path_root hj))
    obtain ⟨p, pn, name, hp, hpc, hname, hpath, hlt⟩ := hwf.exists_parent hi hir
    obtain ⟨p', pn', name', hp', hpc', hname', hpath', -⟩ := hwf.exists_parent hj hjr
    obtain ⟨hparent, rfl⟩ := Path.join_inj (hwf.unslashed hp) (hwf.unslashed hp')
      hname.2 hname'.2 (hpath.symm.trans (h.trans hpath'))
    obtain rfl := ih _ (hlen ▸ hlt) hp hp' hparent rfl
    rw [hp] at hp'
    cases hp'
    rw [hpc] at hpc'
    cases hpc'
    rfl

/-- The child of a node under a name is the node at the joined path. -/
theorem children_eq_some_iff {p : Nat} {pn : Node} (hp : t.nodes[p]? = some pn)
    {name : String} (hname : '/' ∉ name.toList) {c : Nat} {m : Node}
    (hc : t.nodes[c]? = some m) :
    pn.children[name]? = some c ↔ m.path = Path.join pn.path name := by
  constructor
  · intro hpc
    exact hwf.path_of_childAt hp hpc hc
  · intro hpath
    have hcr : c ≠ rootId := fun he =>
      Path.join_ne_empty pn.path name (hpath ▸ hwf.path_root (he ▸ hc))
    obtain ⟨p', pn', name', hp', hpc', hname', hpath', -⟩ := hwf.exists_parent hc hcr
    obtain ⟨hparent, rfl⟩ := Path.join_inj (hwf.unslashed hp') (hwf.unslashed hp)
      hname'.2 hname (hpath'.symm.trans hpath)
    obtain rfl := hwf.path_injective hp' hp hparent
    rw [hp] at hp'
    cases hp'
    exact hpc'

/-- A node has no child under a name exactly when no node has the joined path. -/
theorem children_eq_none_iff {p : Nat} {pn : Node} (hp : t.nodes[p]? = some pn)
    {name : String} (hname : '/' ∉ name.toList) :
    pn.children[name]? = none ↔
      ∀ (c : Nat) (m : Node), t.nodes[c]? = some m → m.path ≠ Path.join pn.path name := by
  constructor
  · intro hnone c m hc hpath
    rw [(hwf.children_eq_some_iff hp hname hc).2 hpath] at hnone
    cases hnone
  · intro hfree
    cases hch : pn.children[name]? with
    | none => rfl
    | some c =>
      obtain ⟨m, hm⟩ := hwf.present ⟨pn, hp, hch⟩
      exact absurd (hwf.path_of_childAt hp hch hm) (hfree c m hm)

/-- Resolving from the root the names of a stored path finds its node. -/
theorem resolve_namesOf {id : Nat} {n : Node} (hn : t.nodes[id]? = some n) :
    t.resolve rootId (Path.namesOf n.path.toList) = .ok id := by
  obtain ⟨r, hr, -⟩ := hwf.root
  rw [resolve_of_get hr]
  -- strong induction on the length of the path, through the parent
  induction hlen : n.path.length using Nat.strongRecOn generalizing id n with
  | ind len ih =>
    by_cases hid : id = rootId
    · subst hid
      rw [hwf.path_root hn]
      rw [hr] at hn
      cases hn
      rfl
    obtain ⟨p, pn, name, hp, hpc, hname, hpath, hlt⟩ := hwf.exists_parent hn hid
    rw [hpath, Path.namesOf_join (hwf.unslashed hp) hname,
      descend_append [name] hr (ih _ (hlen ▸ hlt) hp rfl) hp]
    exact descend_single hpc hn

/-- A walk down names ends at a node whose path is at least as long as the one it started
from: each step adds a name. -/
theorem length_le_of_descend : ∀ {n : Node} {start : Nat} {names : List String} {c : Nat}
    {m : Node}, t.nodes[start]? = some n → t.descend n start names = .ok c →
    t.nodes[c]? = some m → n.path.length ≤ m.path.length
  | n, start, [], c, m, hn, h, hm => by
    simp only [descend, Except.ok.injEq] at h
    subst h
    rw [hn] at hm
    cases hm
    exact Nat.le_refl _
  | n, start, name :: rest, c, m, hn, h, hm => by
    cases hc : n.children[name]? with
    | none => simp [descend, hc] at h
    | some c' =>
      obtain ⟨m', hm'⟩ := hwf.present ⟨n, hn, hc⟩
      simp only [descend, hc, node, hm', bind, Except.bind] at h
      have hstep := hwf.path_of_childAt hn hc hm'
      have hlen := congrArg String.length hstep
      rw [Path.length_join (hwf.unslashed hn)] at hlen
      have := length_le_of_descend hm' h hm
      omega

/-- Every node but the root is located: its parent is found again from its stored path. -/
theorem locate_eq_ok {id : Nat} {n : Node} (hn : t.nodes[id]? = some n) (hid : id ≠ rootId) :
    ∃ (p : Nat) (pn : Node) (name : String), t.nodes[p]? = some pn ∧
      pn.children[name]? = some id ∧ t.locate id = .ok (p, name) := by
  obtain ⟨p, pn, name, hp, hpc, hname, hpath, -⟩ := hwf.exists_parent hn hid
  have hsplit : lastSplit n.path = some (pn.path.toList, name) := by
    rw [hpath]
    exact Path.lastSplit_join (hwf.unslashed hp) hname.2
  have hres := hwf.resolve_namesOf hp
  refine ⟨p, pn, name, hp, hpc, ?_⟩
  simp only [locate, node, hn, hsplit, bind, Except.bind]
  rw [show ((Path.pieces pn.path.toList).filter (!·.isEmpty)).map String.ofList =
    Path.namesOf pn.path.toList from rfl, hres]
  rfl

end WF

/-! ## The nodes a session owns -/

theorem mem_ownedBy {s : Int} {id : Nat} :
    id ∈ t.ownedBy s ↔ ∃ n, t.nodes[id]? = some n ∧ n.owner = some s := by
  simp [ownedBy, List.mem_mergeSort]

theorem nodup_ownedBy (s : Int) : (t.ownedBy s).Nodup := by
  have hkeys : t.nodes.toList.Pairwise (fun a b => a.1 ≠ b.1) :=
    Std.ExtTreeMap.distinct_keys_toList.imp fun h he => h (by simp [he])
  unfold ownedBy
  rw [List.Nodup, List.pairwise_map]
  exact ((List.mergeSort_perm _ _).pairwise_iff (fun h => Ne.symm h)).2 (hkeys.filter _)

end Tree

end CoordStore
