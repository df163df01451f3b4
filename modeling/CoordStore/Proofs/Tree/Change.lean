import CoordStore.Proofs.Tree.WellFormed

/-!
# Changes and how they are taken back

The tree's three mutating operations make exactly the changes `Tree.Step` allows: `addChild`,
`setData` and `deleteChild` either fail, leaving the tree as it was but for one counter that a
sequential creation moved on, or make one step and report it as their `Change`.

`Tree.revert` takes a step back. Up to counters, which only go up, it gives back the tree the
step started from (`Tree.revert_step`), and it treats trees that agree but for their counters
alike (`Tree.Advanced.revert`). Reverting a whole journal, newest change first, therefore
gives back the tree the journal started from, with some counters moved on.
-/

namespace CoordStore

/-- A node with its counter forgotten. -/
def Node.shape (n : Node) : Node :=
  { n with sequence := 0 }

theorem Node.shape_eq_iff {n n' : Node} :
    n.shape = n'.shape ↔ n.path = n'.path ∧ n.data = n'.data ∧ n.mode = n'.mode ∧
      n.owner = n'.owner ∧ n.children = n'.children := by
  cases n; cases n'
  simp [Node.shape]

namespace Tree

/-! ## The operations make steps -/

section Operations

variable {t t' : Tree} {p : Nat} {name : String} {data : Option (List UInt8)}
  {mode : CreateMode} {owner : Int}

theorem childName_of_sequential {pn : Node} (h : mode.isSequential = true) :
    pn.childName name mode =
      (name ++ sequenceSuffix pn.sequence, { pn with sequence := pn.sequence + 1 }) := by
  simp [Node.childName, h]

theorem childName_of_not_sequential {pn : Node} (h : mode.isSequential = false) :
    pn.childName name mode = (name, pn) := by
  simp [Node.childName, h]

/-- A creation that succeeds found its parent persistent and the name it gives free. -/
theorem addChild_eq_ok {path : String} {c : Change}
    (h : addChild p name data mode owner t = .ok (path, c) t') :
    ∃ pn, t.nodes[p]? = some pn ∧ pn.mode.isEphemeral = false ∧
      (mode.isSequential = false → pn.children[name]? = none) ∧
      pn.children[(pn.childName name mode).1]? = none ∧
      path = Path.join pn.path (pn.childName name mode).1 ∧
      c = .created p (pn.childName name mode).1 t.nextId ∧
      t' = t.addNode p pn (pn.childName name mode).1 (pn.childName name mode).2.sequence data
        mode (if mode.isEphemeral then some owner else none) := by
  unfold addChild at h
  cases hp : t.nodes[p]? with
  | none => simp [hp] at h
  | some pn =>
    refine ⟨pn, rfl, ?_⟩
    simp only [hp] at h
    split at h
    · cases h
    · rename_i hdup
      split at h
      · cases h
      · rename_i heph
        cases hseq : mode.isSequential
        · rw [childName_of_not_sequential hseq] at h ⊢
          split at h
          · cases h
          · rename_i hfree
            simp only [EStateM.Result.ok.injEq, Prod.mk.injEq] at h
            obtain ⟨⟨rfl, rfl⟩, rfl⟩ := h
            exact ⟨by simpa using heph, fun _ => by simpa using hfree,
              by simpa using hfree, rfl, rfl, rfl⟩
        · rw [childName_of_sequential hseq] at h ⊢
          split at h
          · cases h
          · rename_i hfree
            simp only [EStateM.Result.ok.injEq, Prod.mk.injEq] at h
            obtain ⟨⟨rfl, rfl⟩, rfl⟩ := h
            exact ⟨by simpa using heph, fun h => absurd h (by simp),
              by simpa using hfree, rfl, rfl, rfl⟩

/-- A creation that fails leaves the tree alone, or only moves the parent's counter on. -/
theorem addChild_eq_error {e : DirError} (h : addChild p name data mode owner t = .error e t') :
    t' = t ∨ ∃ pn, t.nodes[p]? = some pn ∧
      t' = t.setNode p { pn with sequence := pn.sequence + 1 } := by
  unfold addChild at h
  cases hp : t.nodes[p]? with
  | none =>
    simp only [hp, EStateM.Result.error.injEq] at h
    exact Or.inl h.2.symm
  | some pn =>
    simp only [hp] at h
    split at h
    · exact Or.inl (EStateM.Result.error.inj h).2.symm
    · rename_i hdup
      split at h
      · exact Or.inl (EStateM.Result.error.inj h).2.symm
      · cases hseq : mode.isSequential
        · -- a plain name that is taken was refused by the first check
          rw [childName_of_not_sequential hseq] at h
          split at h
          · rename_i hfree
            simp [hseq, hfree] at hdup
          · cases h
        · rw [childName_of_sequential hseq] at h
          split at h
          · exact Or.inr ⟨pn, rfl, (EStateM.Result.error.inj h).2.symm⟩
          · cases h

/-- A successful creation of a name is a step. -/
theorem step_of_addChild_eq_ok (hname : Path.IsName name) {path : String} {c : Change}
    (h : addChild p name data mode owner t = .ok (path, c) t') : Step t c t' := by
  obtain ⟨pn, hp, heph, -, hfree, -, rfl, rfl⟩ := addChild_eq_ok h
  have hseq : pn.sequence ≤ (pn.childName name mode).2.sequence := by
    unfold Node.childName
    split <;> simp
  refine Step.created hp heph hfree (Node.isName_childName mode hname) hseq ?_
  cases mode.isEphemeral <;> rfl

theorem setData_eq_ok {id : Nat} {c : Change} (h : setData id data t = .ok c t') :
    ∃ n, t.nodes[id]? = some n ∧ c = .dataChanged id n.data ∧
      t' = t.setNode id { n with data } := by
  unfold setData at h
  cases hn : t.nodes[id]? with
  | none => simp [hn] at h
  | some n =>
    simp only [hn, EStateM.Result.ok.injEq] at h
    obtain ⟨rfl, rfl⟩ := h
    exact ⟨n, rfl, rfl, rfl⟩

theorem step_of_setData_eq_ok {id : Nat} {c : Change} (h : setData id data t = .ok c t') :
    Step t c t' := by
  obtain ⟨n, hn, rfl, rfl⟩ := setData_eq_ok h
  exact Step.dataChanged data hn

theorem setData_eq_error {id : Nat} {e : DirError} (h : setData id data t = .error e t') :
    t' = t := by
  unfold setData at h
  cases hn : t.nodes[id]? with
  | none =>
    simp only [hn, EStateM.Result.error.injEq] at h
    exact h.2.symm
  | some n => simp [hn] at h

/-- A removal that succeeds found the child, and it had no children. -/
theorem deleteChild_eq_ok {c : Change} (h : deleteChild p name t = .ok c t') :
    ∃ pn id n, t.nodes[p]? = some pn ∧ pn.children[name]? = some id ∧ t.nodes[id]? = some n ∧
      n.children = ∅ ∧ c = .deleted p name id n ∧ t' = t.removeNode p pn name id := by
  unfold deleteChild at h
  cases hp : t.nodes[p]? with
  | none => simp [hp] at h
  | some pn =>
    cases hch : pn.children[name]? with
    | none => simp [hp, hch] at h
    | some id =>
      cases hn : t.nodes[id]? with
      | none => simp [hp, hch, hn] at h
      | some n =>
        simp only [hp, hch, hn] at h
        split at h
        · rename_i hempty
          simp only [EStateM.Result.ok.injEq] at h
          obtain ⟨rfl, rfl⟩ := h
          exact ⟨pn, id, n, rfl, hch, hn, Std.ExtTreeMap.isEmpty_iff.1 hempty, rfl, rfl⟩
        · cases h

theorem step_of_deleteChild_eq_ok {c : Change} (h : deleteChild p name t = .ok c t') :
    Step t c t' := by
  obtain ⟨pn, id, n, hp, hch, hn, hempty, rfl, rfl⟩ := deleteChild_eq_ok h
  exact Step.deleted hp hch hn hempty

theorem deleteChild_eq_error {e : DirError} (h : deleteChild p name t = .error e t') :
    t' = t := by
  unfold deleteChild at h
  cases hp : t.nodes[p]? with
  | none =>
    simp only [hp, EStateM.Result.error.injEq] at h
    exact h.2.symm
  | some pn =>
    cases hch : pn.children[name]? with
    | none =>
      simp only [hp, hch, EStateM.Result.error.injEq] at h
      exact h.2.symm
    | some id =>
      cases hn : t.nodes[id]? with
      | none =>
        simp only [hp, hch, hn, EStateM.Result.error.injEq] at h
        exact h.2.symm
      | some n =>
        simp only [hp, hch, hn] at h
        split at h
        · cases h
        · exact (EStateM.Result.error.inj h).2.symm

end Operations

/-! ## Taking changes back -/

/-- A slot of the node table and the same slot later: empty both times, or the same node but
for a counter that has moved on. -/
def SlotAdvanced : Option Node → Option Node → Prop
  | none, none => True
  | some n, some n' => n.shape = n'.shape ∧ n.sequence ≤ n'.sequence
  | _, _ => False

/-- `t'` is `t` with some counters, and the next number, moved on. -/
structure Advanced (t t' : Tree) : Prop where
  nodes : ∀ id : Nat, SlotAdvanced t.nodes[id]? t'.nodes[id]?
  nextId : t.nextId ≤ t'.nextId

theorem SlotAdvanced.refl : ∀ o : Option Node, SlotAdvanced o o
  | none => trivial
  | some _ => ⟨rfl, Nat.le_refl _⟩

theorem SlotAdvanced.trans : ∀ {o₁ o₂ o₃ : Option Node}, SlotAdvanced o₁ o₂ →
    SlotAdvanced o₂ o₃ → SlotAdvanced o₁ o₃
  | none, none, none, _, _ => trivial
  | some _, some _, some _, ⟨hs, hq⟩, ⟨hs', hq'⟩ => ⟨hs.trans hs', Nat.le_trans hq hq'⟩

/-- Changing a node in a way that reads only its shape and keeps its counter keeps a slot
advanced. -/
theorem SlotAdvanced.map (f : Node → Node)
    (hf : ∀ n n' : Node, n.shape = n'.shape → (f n).shape = (f n').shape)
    (hseq : ∀ n : Node, (f n).sequence = n.sequence) :
    ∀ {o o' : Option Node}, SlotAdvanced o o' → SlotAdvanced (o.map f) (o'.map f)
  | none, none, _ => trivial
  | some n, some n', ⟨hs, hq⟩ => ⟨hf n n' hs, by simp only [hseq]; exact hq⟩

theorem Advanced.refl (t : Tree) : Advanced t t :=
  ⟨fun _ => SlotAdvanced.refl _, Nat.le_refl _⟩

theorem Advanced.trans {t₁ t₂ t₃ : Tree} (h₁ : Advanced t₁ t₂) (h₂ : Advanced t₂ t₃) :
    Advanced t₁ t₃ :=
  ⟨fun id => (h₁.nodes id).trans (h₂.nodes id), Nat.le_trans h₁.nextId h₂.nextId⟩

theorem SlotAdvanced.skeleton : ∀ {o o' : Option Node}, SlotAdvanced o o' →
    o.map Node.skeleton = o'.map Node.skeleton
  | none, none, _ => rfl
  | some _, some _, ⟨hs, _⟩ => by
    obtain ⟨hpath, -, hmode, howner, hchildren⟩ := Node.shape_eq_iff.1 hs
    simp [Node.skeleton, hpath, hmode, howner, hchildren]

/-- A tree and one with counters moved on have the same skeleton. -/
theorem Advanced.sameSkeleton {t t' : Tree} (h : Advanced t t') : SameSkeleton t t' :=
  fun id => (h.nodes id).skeleton

/-- A node is there later, the same but for a counter that has moved on. -/
theorem Advanced.get {t t' : Tree} (h : Advanced t t') {id : Nat} {n : Node}
    (hn : t.nodes[id]? = some n) :
    ∃ n', t'.nodes[id]? = some n' ∧ n.shape = n'.shape ∧ n.sequence ≤ n'.sequence := by
  have hslot := h.nodes id
  rw [hn] at hslot
  cases hn' : t'.nodes[id]? with
  | none => rw [hn'] at hslot; cases hslot
  | some n' => rw [hn'] at hslot; exact ⟨n', rfl, hslot⟩

theorem getElem?_revert_created (t : Tree) (p : Nat) (name : String) (id x : Nat) :
    (t.revert (.created p name id)).nodes[x]? =
      if id = x then none
      else if p = x then (t.nodes[p]?).map fun pn => { pn with children := pn.children.erase name }
      else t.nodes[x]? := by
  unfold revert
  cases hp : t.nodes[p]? with
  | none =>
    simp only [hp, Std.ExtTreeMap.getElem?_erase, Nat.compare_eq_eq, Option.map_none]
    split_ifs with hix hpx
    · rfl
    · rw [← hpx, hp]
    · rfl
  | some pn =>
    simp only [hp, Std.ExtTreeMap.getElem?_erase, Std.ExtTreeMap.getElem?_insert,
      Nat.compare_eq_eq, Option.map_some]

theorem getElem?_revert_dataChanged (t : Tree) (id : Nat) (previous : Option (List UInt8))
    (x : Nat) :
    (t.revert (.dataChanged id previous)).nodes[x]? =
      if id = x then (t.nodes[id]?).map fun n => { n with data := previous } else t.nodes[x]? := by
  unfold revert
  cases hn : t.nodes[id]? with
  | none =>
    simp only [hn, Option.map_none]
    split_ifs with hix
    · rw [← hix, hn]
    · rfl
  | some n =>
    simp only [hn, setNode, Std.ExtTreeMap.getElem?_insert, Nat.compare_eq_eq, Option.map_some]

theorem getElem?_revert_deleted (t : Tree) (p : Nat) (name : String) (id : Nat) (node : Node)
    (x : Nat) :
    (t.revert (.deleted p name id node)).nodes[x]? =
      if id = x then some node
      else if p = x then
        (t.nodes[p]?).map fun pn => { pn with children := pn.children.insert name id }
      else t.nodes[x]? := by
  unfold revert
  cases hp : t.nodes[p]? with
  | none =>
    simp only [hp, Std.ExtTreeMap.getElem?_insert, Nat.compare_eq_eq, Option.map_none]
    split_ifs with hix hpx
    · rfl
    · rw [← hpx, hp]
    · rfl
  | some pn =>
    simp only [hp, Std.ExtTreeMap.getElem?_insert, Nat.compare_eq_eq, Option.map_some]

@[simp] theorem nextId_revert (t : Tree) (c : Change) : (t.revert c).nextId = t.nextId := by
  cases c with
  | created => rfl
  | dataChanged id _ =>
    simp only [revert]
    split <;> rfl
  | deleted => rfl

/-- Taking a change back treats trees that differ only in their counters alike. -/
theorem Advanced.revert {t t' : Tree} (h : Advanced t t') (c : Change) :
    Advanced (t.revert c) (t'.revert c) := by
  refine ⟨fun x => ?_, by simpa using h.nextId⟩
  cases c with
  | created p name id =>
    rw [getElem?_revert_created, getElem?_revert_created]
    split_ifs
    · trivial
    · refine SlotAdvanced.map (fun pn => { pn with children := pn.children.erase name }) ?_
        (fun _ => rfl) (h.nodes p)
      intro n n' hs
      simp [Node.shape_eq_iff.1 hs, Node.shape]
    · exact h.nodes x
  | dataChanged id previous =>
    rw [getElem?_revert_dataChanged, getElem?_revert_dataChanged]
    split_ifs
    · refine SlotAdvanced.map (fun n => { n with data := previous }) ?_ (fun _ => rfl)
        (h.nodes id)
      intro n n' hs
      simp [Node.shape_eq_iff.1 hs, Node.shape]
    · exact h.nodes x
  | deleted p name id node =>
    rw [getElem?_revert_deleted, getElem?_revert_deleted]
    split_ifs
    · exact SlotAdvanced.refl _
    · refine SlotAdvanced.map (fun pn => { pn with children := pn.children.insert name id }) ?_
        (fun _ => rfl) (h.nodes p)
      intro n n' hs
      simp [Node.shape_eq_iff.1 hs, Node.shape]
    · exact h.nodes x

/-- Taking a journal back, newest change first, treats such trees alike too. -/
theorem Advanced.foldl_revert {t t' : Tree} (h : Advanced t t') (journal : List Change) :
    Advanced (journal.foldl Tree.revert t) (journal.foldl Tree.revert t') := by
  induction journal generalizing t t' with
  | nil => exact h
  | cons c journal ih => exact ih (h.revert c)

theorem erase_insert_of_getElem?_eq_none {α : Type} {m : Std.ExtTreeMap String α} {k : String}
    {v : α} (h : m[k]? = none) : (m.insert k v).erase k = m := by
  ext x
  by_cases hx : k = x
  · subst hx
    simp [h]
  · simp [Std.ExtTreeMap.getElem?_erase, Std.ExtTreeMap.getElem?_insert, hx]

theorem insert_erase_of_getElem?_eq_some {α : Type} {m : Std.ExtTreeMap String α} {k : String}
    {v : α} (h : m[k]? = some v) : (m.erase k).insert k v = m := by
  ext x
  by_cases hx : k = x
  · subst hx
    simp [h]
  · simp [Std.ExtTreeMap.getElem?_erase, Std.ExtTreeMap.getElem?_insert, hx]

/-- Moving one counter on advances the tree. -/
theorem advanced_bump {t : Tree} {p : Nat} {pn : Node} (hp : t.nodes[p]? = some pn) :
    Advanced t (t.setNode p { pn with sequence := pn.sequence + 1 }) := by
  refine ⟨fun x => ?_, Nat.le_refl _⟩
  simp only [setNode, Std.ExtTreeMap.getElem?_insert, Nat.compare_eq_eq]
  split_ifs with hpx
  · subst hpx
    rw [hp]
    exact ⟨by simp [Node.shape], Nat.le_succ _⟩
  · exact SlotAdvanced.refl _

/-- Taking a step back gives back the tree it started from, but for counters moved on. -/
theorem advanced_revert_step {t t' : Tree} {c : Change} (hwf : t.WF) (h : Step t c t') :
    Advanced t (t'.revert c) := by
  cases h with
  | @created p pn name seq data mode owner hp _ hfree _ hseq _ =>
    refine ⟨fun x => ?_, by simp [addNode]⟩
    have hpc : p ≠ t.nextId := fun he => by simp [he, hwf.nextId_free] at hp
    rw [getElem?_revert_created, getElem?_addNode, getElem?_addNode]
    by_cases hx : t.nextId = x
    · subst hx
      simp only [if_true, hwf.nextId_free]
      trivial
    · by_cases hpx : p = x
      · subst hpx
        simp only [hx, if_false, if_true, Option.map_some, hp]
        refine ⟨?_, hseq⟩
        simp [Node.shape, erase_insert_of_getElem?_eq_none hfree]
      · simp only [hx, hpx, if_false]
        exact SlotAdvanced.refl _
  | @dataChanged id n data hn =>
    refine ⟨fun x => ?_, by simp [setNode]⟩
    rw [getElem?_revert_dataChanged]
    simp only [setNode, Std.ExtTreeMap.getElem?_insert, Nat.compare_eq_eq]
    by_cases hx : id = x
    · subst hx
      simp only [if_true, Option.map_some, hn]
      exact SlotAdvanced.refl _
    · simp only [hx, if_false]
      exact SlotAdvanced.refl _
  | @deleted p pn name c n hp hch hn _ =>
    refine ⟨fun x => ?_, by simp [removeNode]⟩
    have hpc : p ≠ c := hwf.ne_of_childAt ⟨pn, hp, hch⟩
    rw [getElem?_revert_deleted, getElem?_removeNode, getElem?_removeNode]
    by_cases hx : c = x
    · subst hx
      simp only [if_true, hn]
      exact SlotAdvanced.refl _
    · by_cases hpx : p = x
      · subst hpx
        simp only [hx, if_false, if_true, Option.map_some, hp]
        refine ⟨?_, Nat.le_refl _⟩
        simp [Node.shape, insert_erase_of_getElem?_eq_some hch]
      · simp only [hx, hpx, if_false]
        exact SlotAdvanced.refl _

end Tree

end CoordStore
