import CoordStore.Path
import CoordStore.Tree.Node
import Mathlib.Data.List.Basic

/-!
# Names and joined paths

The names a path is cut into are never empty and hold no separator; a sequential suffix, being
digits, keeps a name a name. The paths the tree stores never end with a separator, so joining a
name below one puts exactly one separator between them, and a joined path can be taken apart
again into the parent's path and the name.
-/

namespace CoordStore

namespace Path

/-- A name: not empty, and free of separators. -/
def IsName (s : String) : Prop :=
  s ≠ "" ∧ '/' ∉ s.toList

/-- A path that does not end with a separator, as every stored path. -/
def Unslashed (p : String) : Prop :=
  p.toList.getLast? ≠ some '/'

/-- Cutting a path at its separators is core's `List.splitOn`. -/
theorem pieces_eq_splitOn (cs : List Char) : pieces cs = cs.splitOn '/' := by
  induction cs with
  | nil => rfl
  | cons c cs ih =>
    rw [List.splitOn_cons_eq_if_modifyHead, ← ih]
    by_cases hc : c = '/'
    · simp [pieces, hc]
    · -- `pieces` matches on the pieces of the tail, which are never none
      have hne : pieces cs ≠ [] := ih ▸ List.splitOn_ne_nil _ _
      cases hp : pieces cs with
      | nil => exact absurd hp hne
      | cons w ws => simp [pieces, hc, hp]

theorem slash_not_mem_pieces (cs : List Char) : ∀ w ∈ pieces cs, '/' ∉ w := by
  induction cs with
  | nil => simp [pieces]
  | cons c cs ih =>
    by_cases hc : c = '/'
    · simpa [pieces, hc] using ih
    · cases hp : pieces cs with
      | nil => simp [pieces, hc, hp, Ne.symm hc]
      | cons v vs =>
        rw [hp] at ih
        simp only [pieces, hc, if_false, hp, List.mem_cons]
        rintro w (rfl | hw)
        · simp [Ne.symm hc, ih v (by simp)]
        · exact ih w (by simp [hw])

/-- Every name `segments` accepts is a name. -/
theorem isName_of_segments {p : String} {names : List String} (h : segments p = .ok names) :
    ∀ s ∈ names, IsName s := by
  unfold segments at h
  split at h
  · cases h
    simp
  · rename_i _ rest _ _
    simp only at h
    split at h
    · cases h
    · rename_i hne
      cases h
      simp only [List.any_eq_true, not_exists, not_and, Bool.not_eq_true] at hne
      simp only [List.mem_map]
      rintro _ ⟨w, hw, rfl⟩
      refine ⟨?_, by simpa using slash_not_mem_pieces rest w hw⟩
      intro hempty
      have : w = [] := by simpa using congrArg String.toList hempty
      simpa [this] using hne w hw
  · cases h

/-- `splitParent` gives the names of the path, the last one apart. -/
theorem splitParent_eq_ok {p : String} {names : List String} {name : String} :
    splitParent p = .ok (names, name) ↔ segments p = .ok (names ++ [name]) := by
  cases hs : segments p with
  | error e => simp [splitParent, hs, bind, Except.bind]
  | ok all =>
    cases hl : all.getLast? with
    | none =>
      simp only [splitParent, hs, bind, Except.bind, hl, throw, throwThe, MonadExceptOf.throw,
        Except.ok.injEq, reduceCtorEq, false_iff]
      rintro rfl
      simp at hl
    | some last =>
      obtain ⟨init, rfl⟩ := List.getLast?_eq_some_iff.1 hl
      simp [splitParent, hs, bind, Except.bind, pure, Except.pure]

theorem isName_of_splitParent {p : String} {names : List String} {name : String}
    (h : splitParent p = .ok (names, name)) : (∀ s ∈ names, IsName s) ∧ IsName name := by
  have hs := isName_of_segments (splitParent_eq_ok.1 h)
  exact ⟨fun s hs' => hs s (by simp [hs']), hs name (by simp)⟩

theorem trimEnd_of_unslashed {p : String} (h : Unslashed p) : trimEnd p.toList = p.toList := by
  unfold Unslashed at h
  rw [← List.head?_reverse] at h
  unfold trimEnd
  cases hr : p.toList.reverse with
  | nil => simp [List.reverse_eq_nil_iff.1 hr]
  | cons c rest =>
    rw [hr] at h
    have hc : ¬ c = '/' := by simpa using h
    rw [List.dropWhile_cons_of_neg (by simpa using hc), ← hr, List.reverse_reverse]

theorem toList_join_trimEnd (p name : String) :
    (join p name).toList = trimEnd p.toList ++ '/' :: name.toList := by
  simp [join, String.toList_append]

/-- Below a stored path, `join` writes one separator and the name. -/
theorem toList_join {p : String} (h : Unslashed p) (name : String) :
    (join p name).toList = p.toList ++ '/' :: name.toList := by
  rw [toList_join_trimEnd, trimEnd_of_unslashed h]

theorem unslashed_join {p name : String} (h : IsName name) : Unslashed (join p name) := by
  have hne : name.toList ≠ [] := fun he => h.1 (String.toList_inj.1 (by simp [he]))
  obtain ⟨c, hc⟩ := Option.isSome_iff_exists.1 (List.getLast?_isSome.2 hne)
  have hslash : c ≠ '/' := fun hc' => h.2 (hc' ▸ List.mem_of_getLast? hc)
  unfold Unslashed
  rw [toList_join_trimEnd]
  simpa [List.getLast?_append, List.getLast?_cons, hc] using hslash

theorem unslashed_empty : Unslashed "" := by
  simp [Unslashed]

/-- Two lists that end with the same separator-free tail after a separator agree. -/
theorem append_cons_inj {c : Char} :
    ∀ {l₁ l₂ a b : List Char}, l₁ ++ c :: a = l₂ ++ c :: b → c ∉ a → c ∉ b → l₁ = l₂ ∧ a = b
  | [], [], _, _, h, _, _ => by simpa using h
  | [], d :: l₂, _, _, h, ha, _ => by
    simp only [List.nil_append, List.cons_append, List.cons.injEq] at h
    exact absurd (h.2 ▸ by simp) ha
  | d :: l₁, [], _, _, h, _, hb => by
    simp only [List.nil_append, List.cons_append, List.cons.injEq] at h
    exact absurd (h.2 ▸ by simp) hb
  | d :: l₁, e :: l₂, _, _, h, ha, hb => by
    simp only [List.cons_append, List.cons.injEq] at h
    obtain ⟨rfl, h⟩ := h
    obtain ⟨rfl, rfl⟩ := append_cons_inj h ha hb
    exact ⟨rfl, rfl⟩

/-- A joined path determines its parent path and its last name. -/
theorem join_inj {p p' name name' : String} (hp : Unslashed p) (hp' : Unslashed p')
    (hn : '/' ∉ name.toList) (hn' : '/' ∉ name'.toList) (h : join p name = join p' name') :
    p = p' ∧ name = name' := by
  have h' := congrArg String.toList h
  rw [toList_join hp, toList_join hp'] at h'
  obtain ⟨h1, h2⟩ := append_cons_inj h' hn hn'
  exact ⟨String.toList_inj.1 h1, String.toList_inj.1 h2⟩

theorem length_join {p : String} (h : Unslashed p) (name : String) :
    (join p name).length = p.length + name.length + 1 := by
  rw [← String.length_toList, toList_join h]
  simp only [List.length_append, List.length_cons, String.length_toList]
  omega

theorem join_ne_empty (p name : String) : join p name ≠ "" := by
  intro h
  have := congrArg String.toList h
  simp [join, String.toList_append] at this

end Path

theorem slash_not_mem_sequenceSuffix (n : Nat) : '/' ∉ (sequenceSuffix n).toList := by
  simp only [sequenceSuffix, String.toList_ofList, List.mem_append, List.mem_replicate, not_or]
  refine ⟨fun h => absurd h.2 (by decide), fun h => ?_⟩
  have := Nat.isDigit_of_mem_toDigits (by decide) (by decide) h
  simp [Char.isDigit] at this

namespace Node

/-- The name a child gets is a name whenever the requested one is. -/
theorem isName_childName {parent : Node} {name : String} (mode : CreateMode)
    (h : Path.IsName name) : Path.IsName (parent.childName name mode).1 := by
  unfold childName
  split
  · refine ⟨fun he => h.1 ?_, ?_⟩
    · have := congrArg String.length he
      simp only [String.length_append, String.length_empty] at this
      exact String.length_eq_zero_iff.1 (by omega)
    · simp only [String.toList_append, List.mem_append, not_or]
      exact ⟨h.2, slash_not_mem_sequenceSuffix _⟩
  · exact h

end Node

end CoordStore
