import CoordStore.Watch.Registry
import Mathlib.Data.List.Basic

/-!
# The watch registry, set by set

What the registry's operations do to the set waiting on each node and kind: registering adds a
watcher that is not there yet, taking empties one set and hands it over, restoring puts a set
back next to what waits there now. A registry whose stored sets are neither empty nor hold a
watcher twice (`Registry.Sound`) is known by its sets alone (`Registry.ext_waiting`).
-/

namespace CoordStore

namespace Registry

@[simp] theorem table_withTable_self (r : Registry) (k : WatchKind)
    (m : Std.ExtTreeMap Nat (List Nat)) : (r.withTable k m).table k = m := by
  cases k <;> rfl

theorem table_withTable_of_ne (r : Registry) {k k' : WatchKind} (h : k ≠ k')
    (m : Std.ExtTreeMap Nat (List Nat)) : (r.withTable k m).table k' = r.table k' := by
  cases k <;> cases k' <;> first | rfl | exact absurd rfl h

/-- The set waiting on a node after one table entry is replaced. -/
theorem waiting_withTable_insert (r : Registry) (node : Nat) (kind : WatchKind) (ws : List Nat)
    (n : Nat) (k : WatchKind) :
    (r.withTable kind ((r.table kind).insert node ws)).waiting n k =
      if node = n ∧ kind = k then ws else r.waiting n k := by
  unfold waiting
  by_cases hk : kind = k
  · subst hk
    by_cases hn : node = n
    · subst hn
      simp
    · simp [hn, Std.ExtTreeMap.getElem?_insert]
  · simp [hk, table_withTable_of_ne r hk]

/-- The set waiting on a node after one table entry is removed. -/
theorem waiting_withTable_erase (r : Registry) (node : Nat) (kind : WatchKind) (n : Nat)
    (k : WatchKind) :
    (r.withTable kind ((r.table kind).erase node)).waiting n k =
      if node = n ∧ kind = k then [] else r.waiting n k := by
  unfold waiting
  by_cases hk : kind = k
  · subst hk
    by_cases hn : node = n
    · subst hn
      simp
    · simp [hn, Std.ExtTreeMap.getElem?_erase]
  · simp [hk, table_withTable_of_ne r hk]

theorem waiting_register (r : Registry) (node : Nat) (kind : WatchKind) (w n : Nat)
    (k : WatchKind) :
    (r.register node kind w).waiting n k =
      if node = n ∧ kind = k ∧ w ∉ r.waiting node kind then r.waiting node kind ++ [w]
      else r.waiting n k := by
  unfold register
  by_cases hw : w ∈ r.waiting node kind
  · simp [hw]
  · simp only [List.contains_iff_mem, hw, if_false, waiting_withTable_insert, not_false_eq_true,
      and_true]

theorem take_fst (r : Registry) (node : Nat) (kind : WatchKind) :
    (r.take node kind).1 = r.waiting node kind := rfl

theorem waiting_take (r : Registry) (node : Nat) (kind : WatchKind) (n : Nat) (k : WatchKind) :
    (r.take node kind).2.waiting n k = if node = n ∧ kind = k then [] else r.waiting n k :=
  waiting_withTable_erase r node kind n k

theorem waiting_restore (r : Registry) (node : Nat) (kind : WatchKind) (ws : List Nat) (n : Nat)
    (k : WatchKind) :
    (r.restore node kind ws).waiting n k =
      if node = n ∧ kind = k then r.waiting node kind ++ ws.filter (· ∉ r.waiting node kind)
      else r.waiting n k := by
  unfold restore
  by_cases hws : ws.isEmpty
  · have : ws = [] := List.isEmpty_iff.1 hws
    subst this
    simp only [List.isEmpty_nil, if_true, List.filter_nil, List.append_nil]
    split_ifs with h
    · obtain ⟨rfl, rfl⟩ := h
      rfl
    · rfl
  · simp only [hws, Bool.false_eq_true, if_false]
    rw [waiting_withTable_insert]
    simp

/-- No stored set is empty, and none holds a watcher twice: the registry keeps sets. -/
structure Sound (r : Registry) : Prop where
  nonempty : ∀ {k : WatchKind} {n : Nat} {ws : List Nat}, (r.table k)[n]? = some ws → ws ≠ []
  nodup : ∀ {k : WatchKind} {n : Nat} {ws : List Nat}, (r.table k)[n]? = some ws → ws.Nodup

theorem Sound.empty : Sound empty where
  nonempty := by intro k n ws h; cases k <;> simp [Registry.empty, table] at h
  nodup := by intro k n ws h; cases k <;> simp [Registry.empty, table] at h

/-- A sound registry stores exactly the non-empty waiting sets. -/
theorem Sound.getElem?_table {r : Registry} (h : r.Sound) (n : Nat) (k : WatchKind) :
    (r.table k)[n]? = if r.waiting n k = [] then none else some (r.waiting n k) := by
  unfold waiting
  cases hn : (r.table k)[n]? with
  | none => simp
  | some ws => simp [h.nonempty hn]

/-- Two sound registries with the same waiting sets are the same. -/
theorem ext_waiting {r r' : Registry} (h : r.Sound) (h' : r'.Sound)
    (hw : ∀ n k, r.waiting n k = r'.waiting n k) : r = r' := by
  have htable : ∀ k, r.table k = r'.table k := by
    intro k
    ext n
    rw [h.getElem?_table, h'.getElem?_table, hw]
  cases r with
  | mk data children =>
    cases r' with
    | mk data' children' =>
      have hd := htable .data
      have hc := htable .children
      simp only [table] at hd hc
      rw [hd, hc]

theorem nodup_waiting {r : Registry} (h : r.Sound) (n : Nat) (k : WatchKind) :
    (r.waiting n k).Nodup := by
  unfold waiting
  cases hn : (r.table k)[n]? with
  | none => simp
  | some ws => exact h.nodup hn

theorem Sound.register {r : Registry} (h : r.Sound) (node : Nat) (kind : WatchKind) (w : Nat) :
    (r.register node kind w).Sound := by
  unfold Registry.register
  by_cases hw : w ∈ r.waiting node kind
  · simpa [hw] using h
  · simp only [List.contains_iff_mem, hw, if_false]
    constructor
    · intro k n ws hws
      by_cases hk : kind = k
      · subst hk
        simp only [table_withTable_self, Std.ExtTreeMap.getElem?_insert, Nat.compare_eq_eq] at hws
        split_ifs at hws
        · cases hws
          simp
        · exact h.nonempty hws
      · rw [table_withTable_of_ne r hk] at hws
        exact h.nonempty hws
    · intro k n ws hws
      by_cases hk : kind = k
      · subst hk
        simp only [table_withTable_self, Std.ExtTreeMap.getElem?_insert, Nat.compare_eq_eq] at hws
        split_ifs at hws
        · cases hws
          simp only [List.nodup_append, nodup_waiting h, List.nodup_cons, List.not_mem_nil,
            not_false_eq_true, List.nodup_nil, and_self, List.mem_singleton, true_and]
          rintro a ha b rfl rfl
          exact hw ha
        · exact h.nodup hws
      · rw [table_withTable_of_ne r hk] at hws
        exact h.nodup hws

theorem Sound.take {r : Registry} (h : r.Sound) (node : Nat) (kind : WatchKind) :
    (r.take node kind).2.Sound := by
  unfold Registry.take
  constructor
  · intro k n ws hws
    by_cases hk : kind = k
    · subst hk
      simp only [table_withTable_self, Std.ExtTreeMap.getElem?_erase] at hws
      split_ifs at hws
      exact h.nonempty hws
    · rw [table_withTable_of_ne r hk] at hws
      exact h.nonempty hws
  · intro k n ws hws
    by_cases hk : kind = k
    · subst hk
      simp only [table_withTable_self, Std.ExtTreeMap.getElem?_erase] at hws
      split_ifs at hws
      exact h.nodup hws
    · rw [table_withTable_of_ne r hk] at hws
      exact h.nodup hws

/-- Putting back a set without repeats keeps the registry sound. -/
theorem Sound.restore {r : Registry} (h : r.Sound) (node : Nat) (kind : WatchKind)
    {ws : List Nat} (hws : ws.Nodup) : (r.restore node kind ws).Sound := by
  unfold Registry.restore
  by_cases he : ws.isEmpty
  · simpa [he] using h
  · simp only [he, Bool.false_eq_true, if_false]
    have hne : ws ≠ [] := fun h' => he (List.isEmpty_iff.2 h')
    constructor
    · intro k n vs hvs
      by_cases hk : kind = k
      · subst hk
        simp only [table_withTable_self, Std.ExtTreeMap.getElem?_insert, Nat.compare_eq_eq] at hvs
        split_ifs at hvs
        · cases hvs
          cases hhere : r.waiting node kind with
          | nil => simpa using hne
          | cons _ _ => simp
        · exact h.nonempty hvs
      · rw [table_withTable_of_ne r hk] at hvs
        exact h.nonempty hvs
    · intro k n vs hvs
      by_cases hk : kind = k
      · subst hk
        simp only [table_withTable_self, Std.ExtTreeMap.getElem?_insert, Nat.compare_eq_eq] at hvs
        split_ifs at hvs
        · cases hvs
          refine List.nodup_append.2 ⟨nodup_waiting h _ _, hws.filter _, ?_⟩
          intro a ha b hb hab
          subst hab
          simp only [List.mem_filter, Bool.not_eq_true'] at hb
          have := List.contains_iff_mem.2 ha
          rw [hb.2] at this
          cases this
        · exact h.nodup hvs
      · rw [table_withTable_of_ne r hk] at hvs
        exact h.nodup hvs

end Registry

end CoordStore
