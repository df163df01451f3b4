import CoordStore.Proofs.Tree.Change

/-!
# Counters and sequential names

A sequential child is named with its parent's counter written in decimal and padded with zeros
to `suffixWidth` digits. The suffix is made of digits only, reads back as the counter
(`ofDigitChars_sequenceSuffix`), and has exactly `suffixWidth` of them while the counter is below
ten to that power. Below that bound a larger counter gives a later suffix in the order of texts
(`sequenceSuffix_lt`); past it the suffix grows longer and that order is lost.

A sequential creation under a present persistent node takes the node's counter as suffix and
moves the counter on by one, whether the suffixed name turns out free and the child is created
or taken and the creation fails (`Tree.addChild_of_sequential`). That is the only counter any
operation of the tree moves (`Tree.sequence_after_addChild`, `Tree.countersKept_setData`,
`Tree.countersKept_deleteChild`); taking a change back keeps every counter too, but for a
deleted node put back, which comes back with the counter it had (`Tree.sequence_revert`).
-/

namespace CoordStore

/-! ## Digits -/

theorem Char.toNat_of_isDigit {c : Char} (h : c.isDigit = true) : 48 ≤ c.toNat ∧ c.toNat ≤ 57 := by
  simp only [Char.isDigit, Bool.and_eq_true, decide_eq_true_eq, ge_iff_le,
    UInt32.le_iff_toNat_le] at h
  exact h

/-- The value of a list of digits: its leading digit in the place of its length, and the rest. -/
theorem ofDigitChars_cons_eq {c : Char} {l : List Char} :
    Nat.ofDigitChars 10 (c :: l) 0 =
      Nat.pow 10 l.length * (c.toNat - 48) + Nat.ofDigitChars 10 l 0 := by
  rw [Nat.ofDigitChars_cons, Nat.ofDigitChars_eq_ofDigitChars_zero]
  simp

/-- Decimal digits read as a number are below ten to the power of their count. -/
theorem ofDigitChars_lt_pow : ∀ {l : List Char}, (∀ c ∈ l, c.isDigit = true) →
    Nat.ofDigitChars 10 l 0 < Nat.pow 10 l.length
  | [], _ => by simp [Nat.ofDigitChars]
  | c :: l, h => by
    have hc := Char.toNat_of_isDigit (h c List.mem_cons_self)
    have ih := ofDigitChars_lt_pow (l := l) fun d hd => h d (List.mem_cons_of_mem _ hd)
    have hdigit : Nat.pow 10 l.length * (c.toNat - 48) ≤ Nat.pow 10 l.length * 9 :=
      Nat.mul_le_mul_left _ (by omega)
    have hpow : Nat.pow 10 (l.length + 1) = Nat.pow 10 l.length * 10 := rfl
    rw [ofDigitChars_cons_eq, List.length_cons, hpow]
    omega

/-- Among lists of decimal digits of one length, the one read as the smaller number comes
first in the order of texts: the first digit where they differ decides both. -/
theorem lt_of_ofDigitChars_lt : ∀ {l₁ l₂ : List Char}, l₁.length = l₂.length →
    (∀ c ∈ l₁, c.isDigit = true) → (∀ c ∈ l₂, c.isDigit = true) →
    Nat.ofDigitChars 10 l₁ 0 < Nat.ofDigitChars 10 l₂ 0 → l₁ < l₂
  | [], [], _, _, _, hlt => absurd hlt (Nat.lt_irrefl _)
  | a :: r₁, b :: r₂, hlen, h₁, h₂, hlt => by
    have hlen' : r₁.length = r₂.length := by simpa using hlen
    have ha := Char.toNat_of_isDigit (h₁ a List.mem_cons_self)
    have hb := Char.toNat_of_isDigit (h₂ b List.mem_cons_self)
    have hr₁ := ofDigitChars_lt_pow fun c hc => h₁ c (List.mem_cons_of_mem _ hc)
    have hr₂ := ofDigitChars_lt_pow fun c hc => h₂ c (List.mem_cons_of_mem _ hc)
    rw [ofDigitChars_cons_eq, ofDigitChars_cons_eq, ← hlen'] at hlt
    rw [← hlen'] at hr₂
    rcases Nat.lt_trichotomy a.toNat b.toNat with hab | hab | hab
    · -- the leading digits differ: they decide
      exact List.cons_lt_cons_iff.2 (.inl (Char.lt_def.2 hab))
    · -- equal leading digits: the rest decides
      have hab' : a = b := Char.toNat_inj.1 hab
      subst hab'
      have htail : Nat.ofDigitChars 10 r₁ 0 < Nat.ofDigitChars 10 r₂ 0 := by omega
      exact List.cons_lt_cons_iff.2 (.inr ⟨rfl, lt_of_ofDigitChars_lt hlen' (fun c hc =>
        h₁ c (List.mem_cons_of_mem _ hc)) (fun c hc => h₂ c (List.mem_cons_of_mem _ hc)) htail⟩)
    · -- a larger leading digit outweighs any rest
      have hmore : Nat.pow 10 r₁.length * ((b.toNat - 48) + 1) ≤
          Nat.pow 10 r₁.length * (a.toNat - 48) :=
        Nat.mul_le_mul_left _ (by omega)
      rw [Nat.mul_add, Nat.mul_one] at hmore
      omega

/-! ## The suffix -/

theorem toList_sequenceSuffix (n : Nat) :
    (sequenceSuffix n).toList =
      List.replicate (suffixWidth - (Nat.toDigits 10 n).length) '0' ++ Nat.toDigits 10 n := by
  simp [sequenceSuffix]

/-- The suffix is written in decimal digits only. -/
theorem isDigit_of_mem_sequenceSuffix {n : Nat} {c : Char} (h : c ∈ (sequenceSuffix n).toList) :
    c.isDigit = true := by
  rw [toList_sequenceSuffix, List.mem_append, List.mem_replicate] at h
  rcases h with ⟨-, rfl⟩ | h
  · rfl
  · exact Nat.isDigit_of_mem_toDigits (by decide) (by decide) h

/-- The suffix reads back as the counter. -/
theorem ofDigitChars_sequenceSuffix (n : Nat) :
    Nat.ofDigitChars 10 (sequenceSuffix n).toList 0 = n := by
  rw [toList_sequenceSuffix, Nat.ofDigitChars_append, Nat.ofDigitChars_replicate_zero]
  simp

/-- The suffix has `suffixWidth` digits, or as many as the counter has if that is more. -/
theorem length_sequenceSuffix (n : Nat) :
    (sequenceSuffix n).length = max suffixWidth (Nat.toDigits 10 n).length := by
  rw [← String.length_toList, toList_sequenceSuffix]
  simp only [List.length_append, List.length_replicate]
  omega

theorem length_sequenceSuffix_of_lt {n : Nat} (h : n < Nat.pow 10 suffixWidth) :
    (sequenceSuffix n).length = suffixWidth := by
  have hdigits := (Nat.length_toDigits_le_iff (by decide) (by decide)).2 h
  rw [length_sequenceSuffix]
  omega

theorem sequenceSuffix_injective : Function.Injective sequenceSuffix := by
  intro m n h
  rw [← ofDigitChars_sequenceSuffix m, ← ofDigitChars_sequenceSuffix n, h]

/-- Below ten to the power `suffixWidth`, a larger counter gives a later suffix in the order of
texts. -/
theorem sequenceSuffix_lt {m n : Nat} (h : m < n) (hn : n < Nat.pow 10 suffixWidth) :
    sequenceSuffix m < sequenceSuffix n := by
  have hlen : (sequenceSuffix m).toList.length = (sequenceSuffix n).toList.length := by
    rw [String.length_toList, String.length_toList, length_sequenceSuffix_of_lt hn,
      length_sequenceSuffix_of_lt (Nat.lt_trans h hn)]
  show (sequenceSuffix m).toList < (sequenceSuffix n).toList
  apply lt_of_ofDigitChars_lt hlen (fun _ => isDigit_of_mem_sequenceSuffix)
    (fun _ => isDigit_of_mem_sequenceSuffix)
  rwa [ofDigitChars_sequenceSuffix, ofDigitChars_sequenceSuffix]

/-! ## Creations under a counter -/

namespace Tree

variable {t t' : Tree} {p : Nat} {name : String} {data : Option (List UInt8)}
  {mode : CreateMode} {owner : Int}

theorem addChild_of_missing (hp : t.nodes[p]? = none) :
    addChild p name data mode owner t = .error (.missingNode p) t := by
  simp [addChild, hp]

/-- A sequential creation under a present persistent node names the child with the node's
counter and moves the counter on, whether the name is free or not. -/
theorem addChild_of_sequential {pn : Node} (hp : t.nodes[p]? = some pn)
    (heph : pn.mode.isEphemeral = false) (hseq : mode.isSequential = true) :
    addChild p name data mode owner t =
      if pn.children.contains (name ++ sequenceSuffix pn.sequence) then
        .error (.alreadyExists (Path.join pn.path (name ++ sequenceSuffix pn.sequence)))
          (t.setNode p { pn with sequence := pn.sequence + 1 })
      else
        .ok (Path.join pn.path (name ++ sequenceSuffix pn.sequence),
            .created p (name ++ sequenceSuffix pn.sequence) t.nextId)
          (t.addNode p pn (name ++ sequenceSuffix pn.sequence) (pn.sequence + 1) data mode
            (if mode.isEphemeral then some owner else none)) := by
  simp only [addChild, hp, hseq, heph, childName_of_sequential hseq, Bool.not_true,
    Bool.false_and, Bool.false_eq_true, if_false]
  rfl

/-- A creation fails either before it looks at the counter, leaving the tree as it was and with
an error other than a taken name if it was sequential, or as a sequential creation whose
suffixed name was taken, having moved the present persistent parent's counter on by one. -/
theorem addChild_error_cases {e : DirError} (h : addChild p name data mode owner t = .error e t') :
    (t' = t ∧ (mode.isSequential = true → ∀ path, e ≠ .alreadyExists path)) ∨
      (mode.isSequential = true ∧ ∃ pn, t.nodes[p]? = some pn ∧ pn.mode.isEphemeral = false ∧
        e = .alreadyExists (Path.join pn.path (name ++ sequenceSuffix pn.sequence)) ∧
        t' = t.setNode p { pn with sequence := pn.sequence + 1 }) := by
  cases hp : t.nodes[p]? with
  | none =>
    rw [addChild_of_missing hp] at h
    cases h
    exact .inl ⟨rfl, fun _ _ he => by cases he⟩
  | some pn =>
    cases hseq : mode.isSequential with
    | false =>
      -- a plain name that is taken is refused by the first check, before the tree changes
      unfold addChild at h
      simp only [hp, hseq, childName_of_not_sequential hseq] at h
      refine .inl ⟨?_, fun hseq' => by cases hseq'⟩
      split at h
      · exact (EStateM.Result.error.inj h).2.symm
      · rename_i htaken
        split at h
        · exact (EStateM.Result.error.inj h).2.symm
        · split at h
          · rename_i hdup
            simp [hdup] at htaken
          · cases h
    | true =>
      cases heph : pn.mode.isEphemeral with
      | true =>
        unfold addChild at h
        simp only [hp, hseq, heph, Bool.not_true, Bool.false_and, Bool.false_eq_true,
          if_false, if_true] at h
        cases h
        exact .inl ⟨rfl, fun _ _ he => by cases he⟩
      | false =>
        rw [addChild_of_sequential hp heph hseq] at h
        split at h
        · cases h
          exact .inr ⟨rfl, pn, rfl, heph, rfl, rfl⟩
        · cases h

theorem sequence_childName {pn : Node} :
    (pn.childName name mode).2.sequence = pn.sequence + if mode.isSequential then 1 else 0 := by
  cases hseq : mode.isSequential
  · simp [childName_of_not_sequential hseq]
  · simp [childName_of_sequential hseq]

/-! ## What the operations do to the counters -/

/-- The tree an operation of the tree leaves, whether it went through or failed. -/
def after {α : Type} (m : EStateM DirError Tree α) (t : Tree) : Tree :=
  match m t with
  | .ok _ t' => t'
  | .error _ t' => t'

theorem after_of_eq_ok {α : Type} {m : EStateM DirError Tree α} {a : α} (h : m t = .ok a t') :
    after m t = t' := by
  simp [after, h]

theorem after_of_eq_error {α : Type} {m : EStateM DirError Tree α} {e : DirError}
    (h : m t = .error e t') : after m t = t' := by
  simp [after, h]

/-- `t'` has kept the counter of every node of `t` it still has. -/
def CountersKept (t t' : Tree) : Prop :=
  ∀ ⦃q : Nat⦄ ⦃n n' : Node⦄, t.nodes[q]? = some n → t'.nodes[q]? = some n' →
    n'.sequence = n.sequence

/-- A creation moves at most one counter, by one: its parent's, when the parent is persistent and
the child sequential, whether the creation then goes through or fails. -/
theorem sequence_after_addChild (hwf : t.WF) {q : Nat} {n n' : Node} (hn : t.nodes[q]? = some n)
    (hn' : (after (addChild p name data mode owner) t).nodes[q]? = some n') :
    n'.sequence = n.sequence +
      if q = p ∧ mode.isSequential = true ∧ n.mode.isEphemeral = false then 1 else 0 := by
  cases h : addChild p name data mode owner t with
  | ok r t' =>
    rw [after_of_eq_ok h] at hn'
    obtain ⟨pn, hp, heph, -, -, -, -, rfl⟩ := addChild_eq_ok h
    have hnew : t.nextId ≠ q := fun hq => by
      rw [← hq, hwf.nextId_free] at hn
      cases hn
    by_cases hpq : p = q
    · subst hpq
      rw [getElem?_addNode, if_neg hnew, if_pos rfl] at hn'
      rw [hp] at hn
      cases hn
      cases hn'
      simp [sequence_childName, heph]
    · rw [getElem?_addNode, if_neg hnew, if_neg hpq, hn] at hn'
      cases hn'
      simp [Ne.symm hpq]
  | error e t' =>
    rw [after_of_eq_error h] at hn'
    rcases addChild_error_cases h with ⟨rfl, hnot⟩ | ⟨hseq, pn, hp, heph, -, rfl⟩
    · rw [hn] at hn'
      cases hn'
      -- under a persistent parent, a sequential creation fails only on a taken name
      rw [if_neg, Nat.add_zero]
      rintro ⟨rfl, hseq, heph⟩
      rw [addChild_of_sequential hn heph hseq] at h
      split at h
      · exact hnot hseq _ (EStateM.Result.error.inj h).1.symm
      · cases h
    · rw [getElem?_setNode] at hn'
      split_ifs at hn' with hpq
      · subst hpq
        rw [hp] at hn
        cases hn
        cases hn'
        simp [hseq, heph]
      · rw [hn] at hn'
        cases hn'
        simp [Ne.symm hpq]

/-- Replacing a payload keeps every counter. -/
theorem countersKept_setData (id : Nat) (data : Option (List UInt8)) :
    CountersKept t (after (setData id data) t) := by
  intro q n n' hn hn'
  cases h : setData id data t with
  | ok c t' =>
    rw [after_of_eq_ok h] at hn'
    obtain ⟨m, hm, -, rfl⟩ := setData_eq_ok h
    rw [getElem?_setNode] at hn'
    split_ifs at hn' with hq
    · subst hq
      rw [hm] at hn
      cases hn
      cases hn'
      rfl
    · rw [hn] at hn'
      cases hn'
      rfl
  | error e t' =>
    rw [after_of_eq_error h, setData_eq_error h, hn] at hn'
    cases hn'
    rfl

/-- Deleting a node keeps the counter of every node left, its parent's included. -/
theorem countersKept_deleteChild (p : Nat) (name : String) :
    CountersKept t (after (deleteChild p name) t) := by
  intro q n n' hn hn'
  cases h : deleteChild p name t with
  | ok c t' =>
    rw [after_of_eq_ok h] at hn'
    obtain ⟨pn, id, m, hp, -, -, -, -, rfl⟩ := deleteChild_eq_ok h
    have hid : id ≠ q := fun hq => by
      rw [← hq, getElem?_removeNode, if_pos rfl] at hn'
      cases hn'
    by_cases hpq : p = q
    · subst hpq
      rw [getElem?_removeNode, if_neg hid, if_pos rfl] at hn'
      rw [hp] at hn
      cases hn
      cases hn'
      rfl
    · rw [getElem?_removeNode, if_neg hid, if_neg hpq, hn] at hn'
      cases hn'
      rfl
  | error e t' =>
    rw [after_of_eq_error h, deleteChild_eq_error h, hn] at hn'
    cases hn'
    rfl

/-- Taking a change back keeps every counter, but for a deleted node put back: that one is the
node as the change recorded it, with its own counter. -/
theorem sequence_revert (c : Change) {q : Nat} {n n' : Node} (hn : t.nodes[q]? = some n)
    (hn' : (t.revert c).nodes[q]? = some n') :
    n'.sequence = n.sequence ∨ ∃ p name, c = .deleted p name q n' := by
  cases c with
  | created p name id =>
    rw [getElem?_revert_created] at hn'
    have hid : id ≠ q := fun hq => by
      rw [if_pos hq] at hn'
      cases hn'
    rw [if_neg hid] at hn'
    by_cases hpq : p = q
    · subst hpq
      rw [if_pos rfl, hn, Option.map_some] at hn'
      cases hn'
      exact .inl rfl
    · rw [if_neg hpq, hn] at hn'
      cases hn'
      exact .inl rfl
  | dataChanged id previous =>
    rw [getElem?_revert_dataChanged] at hn'
    by_cases hid : id = q
    · subst hid
      rw [if_pos rfl, hn, Option.map_some] at hn'
      cases hn'
      exact .inl rfl
    · rw [if_neg hid, hn] at hn'
      cases hn'
      exact .inl rfl
  | deleted p name id node =>
    rw [getElem?_revert_deleted] at hn'
    by_cases hid : id = q
    · subst hid
      rw [if_pos rfl] at hn'
      cases hn'
      exact .inr ⟨p, name, rfl⟩
    rw [if_neg hid] at hn'
    by_cases hpq : p = q
    · subst hpq
      rw [if_pos rfl, hn, Option.map_some] at hn'
      cases hn'
      exact .inl rfl
    · rw [if_neg hpq, hn] at hn'
      cases hn'
      exact .inl rfl

end Tree

end CoordStore
