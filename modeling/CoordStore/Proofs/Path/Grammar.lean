import CoordStore.Proofs.Path
import Mathlib.Data.List.TakeWhile
/-!
# The grammar of paths

`segments` reads a path as its names; here it is set against the obvious printer, `ofNames`,
which writes a separator before each name and gives `/` for none. Reading accepts exactly the
printed lists of names, and joining names one by one from the empty prefix prints them, so parser
and printer agree in both directions. The separators `trimEnd` strips from a base leave no trace:
a base either is the root or reads as a path, and appending names to it reads as the base's
names followed by them.

The cut of a path into pieces is core's `List.splitOn`, whose round-trip lemmas with
`List.intercalate` carry the argument.
-/

namespace CoordStore

namespace Path

/-- The path of a list of names below the top: a separator before each name, and `/` alone
for no names. -/
def ofNames (names : List String) : String :=
  "/" ++ "/".intercalate names

theorem toList_ofNames (names : List String) :
    (ofNames names).toList = '/' :: ['/'].intercalate (names.map String.toList) := by
  simp [ofNames]

@[simp] theorem ofNames_nil : ofNames [] = "/" := rfl

theorem ofNames_append {l m : List String} (hl : l ≠ []) (hm : m ≠ []) :
    ofNames (l ++ m) = ofNames l ++ ofNames m := by
  simp [ofNames, String.intercalate_append_of_ne_nil hl hm, String.append_assoc]

/-- Past the leading separator, a path longer than `/` is read piece by piece. -/
theorem segments_of_toList_eq {p : String} {rest : List Char} (hp : p.toList = '/' :: rest)
    (hr : rest ≠ []) :
    segments p = if (rest.splitOn '/').any List.isEmpty then .error (.emptySegment p)
      else .ok ((rest.splitOn '/').map String.ofList) := by
  unfold segments
  rw [hp]
  cases rest with
  | nil => exact absurd rfl hr
  | cons c cs => simp only [pieces_eq_splitOn]

theorem toList_ne_nil_of_isName {s : String} (h : IsName s) : s.toList ≠ [] :=
  fun he => h.1 (String.toList_inj.1 (by simp [he]))

/-- The path of a list of names reads back as that list. -/
theorem segments_ofNames {names : List String} (h : ∀ s ∈ names, IsName s) :
    segments (ofNames names) = .ok names := by
  cases names with
  | nil => rfl
  | cons n ns =>
    have hrest : ['/'].intercalate ((n :: ns).map String.toList) ≠ [] := by
      cases ns with
      | nil => simpa using toList_ne_nil_of_isName (h n (by simp))
      | cons m ms => simp [List.intercalate_cons_cons]
    have hsplit : (['/'].intercalate ((n :: ns).map String.toList)).splitOn '/' =
        (n :: ns).map String.toList := by
      refine List.splitOn_intercalate '/' ?_ (by simp)
      simp only [List.mem_map]
      rintro _ ⟨s, hs, rfl⟩
      exact (h s hs).2
    rw [segments_of_toList_eq (toList_ofNames _) hrest, hsplit]
    have hfull : ((n :: ns).map String.toList).any List.isEmpty = false := by
      simp only [List.any_eq_false, List.mem_map]
      rintro _ ⟨s, hs, rfl⟩
      simpa using toList_ne_nil_of_isName (h s hs)
    simp only [hfull, Bool.false_eq_true, ↓reduceIte, List.map_map]
    simp [Function.comp_def]

/-- Whatever `segments` accepts is the path of what it gives. -/
theorem eq_ofNames_of_segments {p : String} {names : List String}
    (h : segments p = .ok names) : p = ofNames names := by
  rcases hp : p.toList with _ | ⟨c, rest⟩
  · simp [segments, hp] at h
  · by_cases hc : c = '/'
    · subst hc
      rcases rest with _ | ⟨d, ds⟩
      · have : names = [] := by simpa [segments, hp] using h.symm
        subst this
        exact String.toList_inj.1 (by simp [hp])
      · rw [segments_of_toList_eq hp (by simp)] at h
        split at h
        · cases h
        · cases h
          apply String.toList_inj.1
          rw [hp, toList_ofNames, List.map_map]
          simp [Function.comp_def, List.intercalate_splitOn]
    · simp [segments, hp, hc] at h

/-- `segments` accepts exactly the paths of lists of names, and gives those names. -/
theorem segments_eq_ok_iff {p : String} {names : List String} :
    segments p = .ok names ↔ (∀ s ∈ names, IsName s) ∧ p = ofNames names := by
  constructor
  · intro h
    exact ⟨isName_of_segments h, eq_ofNames_of_segments h⟩
  · rintro ⟨hn, rfl⟩
    exact segments_ofNames hn

/-- Below a path that does not end with a separator, joining names one by one writes each after
a separator. -/
theorem toList_foldl_join {names : List String} (hn : ∀ s ∈ names, IsName s) (hne : names ≠ []) :
    ∀ {acc : String}, Unslashed acc →
      (names.foldl join acc).toList = acc.toList ++ (ofNames names).toList := by
  induction names with
  | nil => exact absurd rfl hne
  | cons n ns ih =>
    intro acc hacc
    have hn' : IsName n := hn n (by simp)
    cases ns with
    | nil => simp [toList_join hacc, toList_ofNames]
    | cons m ms =>
      have ih' := ih (fun s hs => hn s (List.mem_cons_of_mem _ hs)) (by simp)
        (unslashed_join (p := acc) hn')
      simp only [List.foldl_cons] at ih' ⊢
      rw [ih', toList_join hacc, toList_ofNames, toList_ofNames]
      simp [List.intercalate_cons_cons]

/-- Joining names one by one from the empty prefix prints them. -/
theorem foldl_join_empty {names : List String} (hn : ∀ s ∈ names, IsName s) (hne : names ≠ []) :
    names.foldl join "" = ofNames names :=
  String.toList_inj.1 (by simpa using toList_foldl_join hn hne unslashed_empty)

/-- A path other than `/` is given back by joining its names. -/
theorem foldl_join_segments {p : String} {names : List String} (h : segments p = .ok names)
    (hp : p ≠ "/") : names.foldl join "" = p := by
  obtain ⟨hn, rfl⟩ := segments_eq_ok_iff.1 h
  have hne : names ≠ [] := by
    rintro rfl
    exact hp rfl
  exact foldl_join_empty hn hne

theorem segments_eq_ok_nil_iff {p : String} : segments p = .ok [] ↔ p = "/" := by
  simp [segments_eq_ok_iff]

/-- `splitParent` fails exactly on the root and on what `segments` refuses. -/
theorem splitParent_fails_iff {p : String} :
    (∃ e, splitParent p = .error e) ↔ p = "/" ∨ ∃ e, segments p = .error e := by
  cases hs : segments p with
  | error e => simp [splitParent, hs, bind, Except.bind]
  | ok names =>
    rcases List.eq_nil_or_concat names with rfl | ⟨init, last, rfl⟩
    · refine ⟨fun _ => .inl (segments_eq_ok_nil_iff.1 hs), fun _ => ⟨.rootPath p, ?_⟩⟩
      simp [splitParent, hs, bind, Except.bind, throw, throwThe, MonadExceptOf.throw]
    · rw [List.concat_eq_append] at hs
      have hok : splitParent p = .ok (init, last) := splitParent_eq_ok.2 hs
      have hroot : p ≠ "/" := by
        rintro rfl
        simp [segments_eq_ok_nil_iff.2 rfl] at hs
      simp [hok, hroot]

theorem unslashed_ofList_trimEnd (cs : List Char) : Unslashed (String.ofList (trimEnd cs)) := by
  unfold Unslashed trimEnd
  rw [String.toList_ofList, List.getLast?_reverse]
  have := List.head?_dropWhile_not (fun c => decide (c = '/')) cs.reverse
  split at this
  · rename_i x hx
    rw [hx]
    simpa using this
  · rename_i hx
    rw [hx]
    simp

theorem trimEnd_eq_nil_iff {cs : List Char} : trimEnd cs = [] ↔ ∀ c ∈ cs, c = '/' := by
  simp [trimEnd, List.dropWhile_eq_nil_iff]

end Path

namespace Base

open CoordStore.Path

/-- The base as a path: `/` for the root, the prefix itself otherwise. -/
def asPath (base : Base) : String :=
  if base.path = "" then "/" else base.path

/-- What `ofString` does: it keeps the text less its trailing separators, provided the text was
nothing but separators and at least one, or what is left reads as a path. -/
theorem ofString_eq_ok_iff {b : String} {base : Base} :
    ofString b = .ok base ↔
      base.path = String.ofList (trimEnd b.toList) ∧
        ((b ≠ "" ∧ ∀ c ∈ b.toList, c = '/') ∨
          ∃ names, segments (String.ofList (trimEnd b.toList)) = .ok names) := by
  have hstart : b.startsWith "/" = true ↔ b.toList.head? = some '/' := by
    rw [String.startsWith_string_iff]
    exact List.singleton_prefix_iff_head?_eq_some
  -- the root case: only separators, and at least one
  have hroot : (String.ofList (trimEnd b.toList)).isEmpty && b.startsWith "/" ↔
      b ≠ "" ∧ ∀ c ∈ b.toList, c = '/' := by
    rw [Bool.and_eq_true, String.isEmpty_iff, hstart, ← trimEnd_eq_nil_iff]
    constructor
    · rintro ⟨htrim, hhead⟩
      refine ⟨fun hb => by simp [hb] at hhead, by simpa using congrArg String.toList htrim⟩
    · rintro ⟨hne, htrim⟩
      have hall := trimEnd_eq_nil_iff.1 htrim
      have hbne : b.toList ≠ [] := fun h => hne (by simpa using h)
      obtain ⟨c, cs, hcs⟩ := List.exists_cons_of_ne_nil hbne
      refine ⟨by simp [htrim], by simp [hcs, hall c (by simp [hcs])]⟩
  simp only [ofString]
  by_cases hc : ((String.ofList (trimEnd b.toList)).isEmpty && b.startsWith "/") = true
  · have hc' := hroot.1 hc
    simp only [hc, ↓reduceIte, Except.ok.injEq]
    constructor
    · rintro rfl
      exact ⟨rfl, .inl hc'⟩
    · rintro ⟨hp, -⟩
      obtain ⟨p⟩ := base
      simp only at hp
      rw [hp]
  · have hc' : ¬ (b ≠ "" ∧ ∀ c ∈ b.toList, c = '/') := fun h => hc (hroot.2 h)
    simp only [hc, Bool.false_eq_true, ↓reduceIte, hc', false_or]
    cases hs : segments (String.ofList (trimEnd b.toList)) with
    | error e => simp [Except.map]
    | ok names =>
      simp only [Except.map, Except.ok.injEq]
      constructor
      · rintro rfl
        exact ⟨rfl, names, rfl⟩
      · rintro ⟨hp, -⟩
        obtain ⟨p⟩ := base
        simp only at hp
        rw [hp]

/-- A base is made exactly of the texts that are nothing but separators, or that read as a path
once their trailing separators are gone. -/
theorem ofString_ok_iff {b : String} :
    (∃ base, ofString b = .ok base) ↔
      (b ≠ "" ∧ ∀ c ∈ b.toList, c = '/') ∨
        ∃ names, segments (String.ofList (trimEnd b.toList)) = .ok names := by
  simp only [ofString_eq_ok_iff]
  exact ⟨fun ⟨_, _, h⟩ => h, fun h => ⟨⟨_⟩, rfl, h⟩⟩

/-- Appending names to a base reads as the base's names followed by them. -/
theorem segments_append {b : String} {base : Base} (h : ofString b = .ok base)
    {names : List String} (hn : ∀ s ∈ names, IsName s) :
    ∃ bs, segments base.asPath = .ok bs ∧ segments (base.append names) = .ok (bs ++ names) := by
  obtain ⟨hpath, hmade⟩ := ofString_eq_ok_iff.1 h
  by_cases hroot : base.path = ""
  · refine ⟨[], by rw [asPath, if_pos hroot]; rfl, ?_⟩
    by_cases hne : names = []
    · subst hne
      simp [append, hroot]
      rfl
    · have : base.append names = names.foldl join "" := by
        simp [append, hroot, List.isEmpty_iff, hne]
      rw [this, foldl_join_empty hn hne]
      exact segments_ofNames hn
  · -- a base other than the root was read as a path when it was made
    have hseg : ∃ bs, segments base.path = .ok bs := by
      rcases hmade with ⟨_, hall⟩ | ⟨bs, hbs⟩
      · exact absurd (by simp [hpath, trimEnd_eq_nil_iff.2 hall]) hroot
      · exact ⟨bs, hpath ▸ hbs⟩
    obtain ⟨bs, hbs⟩ := hseg
    obtain ⟨hbn, hbnames⟩ := segments_eq_ok_iff.1 hbs
    have hunsl : Unslashed base.path := hpath ▸ unslashed_ofList_trimEnd _
    refine ⟨bs, by rw [asPath, if_neg hroot]; exact hbs, ?_⟩
    by_cases hne : names = []
    · subst hne
      have hnot : base.path.isEmpty = false := by simpa [String.isEmpty_iff] using hroot
      simpa [append, hnot] using hbs
    · have happ : base.append names = names.foldl join base.path := by
        simp [append, hroot]
      rw [happ, segments_eq_ok_iff]
      refine ⟨fun s hs => ?_, ?_⟩
      · rcases List.mem_append.1 hs with hs | hs
        · exact hbn s hs
        · exact hn s hs
      · apply String.toList_inj.1
        have hbne : bs ≠ [] := by
          rintro rfl
          exact hunsl (by simp [hbnames])
        rw [toList_foldl_join hn hne hunsl, hbnames, ofNames_append hbne hne, String.toList_append]

end Base

namespace Path

/-- The grammar of paths, both ways. `segments` reads exactly the printed lists of names and
gives them; joining the names of a path other than `/` gives it back, and joining names from the
empty prefix reads back as them; `splitParent` gives the last name apart and fails exactly on the
root and on what `segments` refuses; a base is made of a text that is only separators or that
reads as a path once they are trimmed, keeps the trimmed text, and appending names to it reads as
the base's names followed by them. -/
theorem segments_round_trip :
    (∀ p names, segments p = .ok names ↔ (∀ s ∈ names, IsName s) ∧ p = ofNames names) ∧
    (∀ p names, segments p = .ok names → p ≠ "/" → names.foldl join "" = p) ∧
    (∀ names, names ≠ [] → (∀ s ∈ names, IsName s) →
      segments (names.foldl join "") = .ok names) ∧
    (∀ p init last, splitParent p = .ok (init, last) ↔ segments p = .ok (init ++ [last])) ∧
    (∀ p, (∃ e, splitParent p = .error e) ↔ p = "/" ∨ ∃ e, segments p = .error e) ∧
    (∀ b, (∃ base, Base.ofString b = .ok base) ↔
      (b ≠ "" ∧ ∀ c ∈ b.toList, c = '/') ∨
        ∃ names, segments (String.ofList (trimEnd b.toList)) = .ok names) ∧
    (∀ b base, Base.ofString b = .ok base →
      base.path = String.ofList (trimEnd b.toList) ∧
        ∀ names, (∀ s ∈ names, IsName s) →
          ∃ bs, segments base.asPath = .ok bs ∧ segments (base.append names) = .ok (bs ++ names)) :=
  ⟨fun _ _ => segments_eq_ok_iff,
    fun _ _ h hp => foldl_join_segments h hp,
    fun _ hne hn => (foldl_join_empty hn hne).symm ▸ segments_ofNames hn,
    fun _ _ _ => splitParent_eq_ok,
    fun _ => splitParent_fails_iff,
    fun _ => Base.ofString_ok_iff,
    fun _ _ h => ⟨(Base.ofString_eq_ok_iff.1 h).1, fun _ hn => Base.segments_append h hn⟩⟩

end Path

end CoordStore
