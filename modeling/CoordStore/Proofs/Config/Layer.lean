import CoordStore.Config.Value
/-!
# Laying sources key by key

A source is laid over a configuration entry by entry, each at the key path its key reads as.
Here that is watched at one setting: the value under a section's name and then a field's name.
Seen from the top, a key path does one of four things (`KeyPath.Reach`): it names a section,
names a field of one, goes on below a field, or steps into an array right below a section's
name. Whatever an entry is, it does one of three things to the leaf held at a setting (anything
but a table or an array): it keeps it, sets it to a value of its own, or clears it (`Touch`).
Which of the three does not depend on the configuration it is laid over, so a whole source acts
on a setting the same way over every configuration.

The laws are the usual ones of a finite map: `upsert` replaces or adds one key and keeps the
others, and `setName` places a value under a name, merging a table into what was there.
-/

namespace CoordStore.Config

namespace KeyPath

/-- A key path seen from the top, two names deep: a name alone, a name inside a name, a path that
goes on below a name inside a name, or one that steps into an array right below a name. -/
inductive Reach where
  | top (n : String)
  | second (n m : String)
  | deeper (n m : String)
  | indexed (n : String)
  deriving DecidableEq, Repr

/-- What a path reaches once it goes on to a name. -/
def Reach.child : Reach → String → Reach
  | .top n, m => .second n m
  | .second n m, _ | .deeper n m, _ => .deeper n m
  | .indexed n, _ => .indexed n

/-- What a path reaches once it goes on to an index. -/
def Reach.index : Reach → Reach
  | .top n => .indexed n
  | .second n m | .deeper n m => .deeper n m
  | .indexed n => .indexed n

/-- What a key path reaches, seen from the top. -/
def reach : KeyPath → Reach
  | .name n => .top n
  | .child p m => p.reach.child m
  | .index p _ => p.reach.index

theorem Reach.child_ne_second {r : Reach} (hr : ∀ n, r ≠ .top n) (k n m : String) :
    r.child k ≠ .second n m := by
  cases r with
  | top n' => exact absurd rfl (hr n')
  | _ => simp [Reach.child]

theorem Reach.index_ne_second (r : Reach) (n m : String) : r.index ≠ .second n m := by
  cases r <;> simp [Reach.index]

end KeyPath

namespace Value

/-- Whether a value is a table. -/
def isTable : Value → Bool
  | .table .. => true
  | _ => false

/-- Whether a value is a leaf: anything but a table or an array. -/
def isLeaf : Value → Bool
  | .table .. | .array .. => false
  | _ => true

/-- The value under a name of a table; a value that is not a table holds nothing. -/
def get? (v : Value) (k : String) : Option Value :=
  v.tableParts.2.lookup k

/-- The names of a table's entries, in order. -/
def keys (v : Value) : List String :=
  v.tableParts.2.map Prod.fst

/-- A value as a leaf: itself, unless it is a table or an array. -/
def leaf? (v : Value) : Option Value :=
  if v.isLeaf then some v else none

/-- The table of a value with the entry of a name replaced or added. -/
def withEntry (v : Value) (k : String) (w : Value) : Value :=
  .table v.tableParts.1 (upsert v.tableParts.2 k w)

/-- What ends up under a name when a value is laid there over `old`: a table merges into what
was there, anything else replaces it. -/
def placed (old : Option Value) : Value → Value
  | .table _ incoming => mergeEntries (old.getD emptyTable) incoming
  | w => w

@[simp] theorem tableParts_table (o : Option String) (es : List (String × Value)) :
    (Value.table o es).tableParts = (o, es) := rfl

@[simp] theorem isTable_table (o : Option String) (es : List (String × Value)) :
    (Value.table o es).isTable = true := rfl

@[simp] theorem isTable_emptyTable : emptyTable.isTable = true := rfl

@[simp] theorem get?_emptyTable (k : String) : emptyTable.get? k = none := rfl

@[simp] theorem get?_array (o : Option String) (xs : List (Nat × Value)) (k : String) :
    (Value.array o xs).get? k = none := rfl

theorem tableParts_of_isTable {v : Value} (h : v.isTable = true) :
    v = .table v.tableParts.1 v.tableParts.2 := by
  cases v <;> simp_all [isTable, tableParts]

theorem isLeaf_eq_false_of_isTable {v : Value} (h : v.isTable = true) : v.isLeaf = false := by
  cases v <;> simp_all [isTable, isLeaf]

/-! ## Replacing one entry -/

theorem lookup_cons_if {k a : String} {b : Value} {es : List (String × Value)} :
    ((k, b) :: es).lookup a = if a = k then some b else es.lookup a := by
  by_cases h : a = k
  · subst h
    simp [List.lookup_cons_self]
  · have hb : (a == k) = false := beq_false_of_ne h
    simp [List.lookup_cons, hb, h]

theorem lookup_map_replace (es : List (String × Value)) (k k' : String) (v : Value) :
    (es.map fun e => if e.1 == k then (k, v) else e).lookup k' =
      if k' = k ∧ es.any (·.1 == k) then some v else es.lookup k' := by
  induction es with
  | nil => simp
  | cons e es ih =>
    obtain ⟨j, w⟩ := e
    simp only [List.map_cons, List.any_cons, beq_iff_eq]
    by_cases hj : j = k
    · -- the head is the entry replaced
      subst hj
      by_cases hk : k' = j
      · simp [hk]
      · simp only [if_true, lookup_cons_if, hk, if_false, false_and] at ih ⊢
        simpa using ih
    · have hjb : (j == k) = false := beq_false_of_ne hj
      simp only [hj, hjb, if_false, Bool.false_or, lookup_cons_if]
      by_cases hk : k' = j
      · subst hk
        simp [hj]
      · simp only [hk, if_false]
        simpa using ih

/-- After `upsert`, the name holds the new value and every other name what it held. -/
theorem lookup_upsert (es : List (String × Value)) (k k' : String) (v : Value) :
    (upsert es k v).lookup k' = if k' = k then some v else es.lookup k' := by
  unfold upsert
  split
  · rename_i hany
    rw [lookup_map_replace]
    by_cases hk : k' = k <;> simp [hk, hany]
  · rename_i hany
    have hnone : es.lookup k = none := by
      simp only [List.any_eq_true, beq_iff_eq, not_exists, not_and] at hany
      exact List.lookup_eq_none_iff.2 fun p hp => bne_iff_ne.2 fun h => hany p hp h.symm
    by_cases hk : k' = k
    · subst hk
      simp [List.lookup_append, hnone]
    · simp [List.lookup_append, hk, lookup_cons_if]

theorem keys_upsert (es : List (String × Value)) (k : String) (v : Value) :
    (upsert es k v).map Prod.fst =
      if es.any (·.1 == k) then es.map Prod.fst else es.map Prod.fst ++ [k] := by
  unfold upsert
  split
  · simp only [List.map_map]
    congr 1
    funext e
    by_cases h : e.1 = k <;> simp [h]
  · simp

/-- `upsert` keeps the names of a table distinct. -/
theorem nodup_keys_upsert {es : List (String × Value)} (h : (es.map Prod.fst).Nodup)
    (k : String) (v : Value) : ((upsert es k v).map Prod.fst).Nodup := by
  rw [keys_upsert]
  split
  · exact h
  · rename_i hany
    refine List.nodup_append.2 ⟨h, by simp, ?_⟩
    intro a ha b hb hab
    obtain ⟨e, he, rfl⟩ := List.mem_map.1 ha
    rw [List.mem_singleton] at hb
    exact hany (List.any_eq_true.2 ⟨e, he, by simp [hab, hb]⟩)

/-! ## Placing a value under a name -/

@[simp] theorem get?_withEntry (v : Value) (k k' : String) (w : Value) :
    (v.withEntry k w).get? k' = if k' = k then some w else v.get? k' := by
  simp [withEntry, get?, lookup_upsert]

@[simp] theorem isTable_withEntry (v : Value) (k : String) (w : Value) :
    (v.withEntry k w).isTable = true := rfl

theorem keys_withEntry_nodup {v : Value} (h : v.keys.Nodup) (k : String) (w : Value) :
    (v.withEntry k w).keys.Nodup :=
  nodup_keys_upsert h k w

theorem setName_eq (root : Value) (k : String) (v : Value) :
    setName root k v = root.withEntry k (placed (root.get? k) v) := by
  cases v <;> rfl

theorem get?_setName (root : Value) (k k' : String) (v : Value) :
    (setName root k v).get? k' = if k' = k then some (placed (root.get? k) v) else root.get? k' := by
  rw [setName_eq, get?_withEntry]

@[simp] theorem mergeEntries_nil (t : Value) : mergeEntries t [] = t := rfl

theorem mergeEntries_cons (t : Value) (k : String) (v : Value) (es : List (String × Value)) :
    mergeEntries t ((k, v) :: es) = mergeEntries (setName t k v) es := rfl

theorem isTable_mergeEntries {t : Value} (h : t.isTable) :
    ∀ es : List (String × Value), (mergeEntries t es).isTable
  | [] => h
  | (k, v) :: es => by
    rw [mergeEntries_cons, setName_eq]
    exact isTable_mergeEntries (isTable_withEntry _ _ _) es

theorem keys_mergeEntries_nodup {t : Value} (h : t.keys.Nodup) :
    ∀ es : List (String × Value), (mergeEntries t es).keys.Nodup
  | [] => h
  | (k, v) :: es => by
    rw [mergeEntries_cons, setName_eq]
    exact keys_mergeEntries_nodup (keys_withEntry_nodup h _ _) es

/-- Merging never takes a name away. -/
theorem isSome_get?_mergeEntries {t : Value} {field : String} (h : (t.get? field).isSome) :
    ∀ es : List (String × Value), ((mergeEntries t es).get? field).isSome
  | [] => h
  | (k, v) :: es => by
    rw [mergeEntries_cons]
    refine isSome_get?_mergeEntries ?_ es
    rw [get?_setName]
    split <;> simp_all

end Value

/-! ## The three things laying does to a leaf -/

/-- What laying something does to the leaf held at one place. -/
inductive Touch where
  /-- The leaf stays as it was. -/
  | keep
  /-- The leaf becomes this value. -/
  | set (w : Value)
  /-- A table takes the leaf's place. -/
  | clear

namespace Touch

/-- The leaf after the touch, from the leaf before. -/
def apply : Touch → Option Value → Option Value
  | keep, x => x
  | set w, _ => some w
  | clear, _ => none

/-- One touch and then another. -/
def andThen (t : Touch) : Touch → Touch
  | keep => t
  | set w => set w
  | clear => clear

@[simp] theorem apply_keep (x : Option Value) : keep.apply x = x := rfl

@[simp] theorem apply_andThen (t u : Touch) (x : Option Value) :
    (t.andThen u).apply x = u.apply (t.apply x) := by
  cases u <;> rfl

/-- A touch that leaves nothing where there was nothing either keeps or clears. -/
theorem apply_of_apply_none {t : Touch} (h : t.apply none = none) (x : Option Value) :
    t.apply x = x ∨ t.apply x = none := by
  cases t with
  | keep => exact .inl rfl
  | set w => cases h
  | clear => exact .inr rfl

/-- A touch that gives a leaf where there was nothing gives it everywhere. -/
theorem apply_of_apply_none_eq_some {t : Touch} {w : Value} (h : t.apply none = some w)
    (x : Option Value) : t.apply x = some w := by
  cases t with
  | keep => cases h
  | set w' => exact h
  | clear => cases h

end Touch

namespace Value

/-- How a value laid under a name touches the leaf there: an empty table merges nothing and
keeps it, another table or an array clears it, and anything else sets it. -/
def touchOf : Value → Touch
  | .table _ [] => .keep
  | .table _ (_ :: _) => .clear
  | .array .. => .clear
  | w => .set w

/-- The touch that entries merged into a table give the leaf under one name. -/
def touchEntries (field : String) : List (String × Value) → Touch
  | [] => .keep
  | (k, v) :: es => (if field = k then touchOf v else .keep).andThen (touchEntries field es)

theorem leaf?_placed (x : Option Value) (v : Value) :
    (placed x v).leaf? = (touchOf v).apply (x.bind leaf?) := by
  cases v with
  | table o es =>
    cases es with
    | nil => cases x <;> rfl
    | cons e es =>
      obtain ⟨k, w⟩ := e
      have : (placed x (.table o ((k, w) :: es))).isTable := by
        rw [placed, mergeEntries_cons, setName_eq]
        exact isTable_mergeEntries (isTable_withEntry _ _ _) es
      simp [leaf?, isLeaf_eq_false_of_isTable this, touchOf, Touch.apply]
  | _ => rfl

theorem leaf_mergeEntries (field : String) :
    ∀ (es : List (String × Value)) (t : Value),
      ((mergeEntries t es).get? field).bind leaf? =
        (touchEntries field es).apply ((t.get? field).bind leaf?)
  | [], t => rfl
  | (k, v) :: es, t => by
    rw [mergeEntries_cons, leaf_mergeEntries field es, touchEntries, Touch.apply_andThen,
      get?_setName]
    by_cases hk : field = k
    · subst hk
      simp [leaf?_placed]
    · simp [hk]
/-! ## Changing the value at a key path -/

/-- Changing the value below a name of a table changes the entry of that name. -/
theorem modifyAt_name {root : Value} (hroot : root.isTable) (n : String)
    (f : Value → Option Value) :
    modifyAt (.name n) f root = (root.withEntry n ·) <$> f ((root.get? n).getD (.nil none)) := by
  rw [tableParts_of_isTable hroot]
  rfl

theorem modifyAt_child (p : KeyPath) (k : String) (f : Value → Option Value) (root : Value) :
    modifyAt (.child p k) f root =
      modifyAt p (fun parent => (parent.withEntry k ·) <$> f ((parent.get? k).getD (.nil none)))
        root := rfl

/-- Changing an item of an array gives an array. -/
theorem changeItem_eq_array {o : Option String} {xs : List (Nat × Value)} {i : Int}
    {f : Value → Option Value} {y : Value} (h : changeItem o xs i f = some y) :
    ∃ o' ys, y = .array o' ys := by
  unfold changeItem at h
  split at h
  · split at h
    · obtain ⟨v, -, rfl⟩ := Option.map_eq_some_iff.1 h
      exact ⟨o, _, rfl⟩
    · cases h
  · cases h
    exact ⟨o, xs, rfl⟩

/-- Changing an item of an array gives no leaf. -/
theorem leaf?_of_changeItem {o : Option String} {xs : List (Nat × Value)} {i : Int}
    {f : Value → Option Value} {y : Value} (h : changeItem o xs i f = some y) : y.leaf? = none := by
  obtain ⟨o', ys, rfl⟩ := changeItem_eq_array h
  rfl

/-- The shapes a table takes once a change reaches below the entry of a name, seen from the top:
below a name inside a name stands something that is no leaf, and a step into an array right
below a name leaves an array under the name. -/
inductive Below (root : Value) : KeyPath.Reach → Value → Prop where
  | second (n m : String) (M : Value) (hM : M.leaf? = none) :
    Below root (.second n m)
      (root.withEntry n (((root.get? n).getD (.nil none)).withEntry m M))
  | deeper (n m : String) (M : Value) (hM : M.leaf? = none) :
    Below root (.deeper n m)
      (root.withEntry n (((root.get? n).getD (.nil none)).withEntry m M))
  | indexed (n : String) (o : Option String) (xs : List (Nat × Value)) :
    Below root (.indexed n) (root.withEntry n (.array o xs))

namespace Below

variable {root r' : Value} {r : KeyPath.Reach}

/-- Going on below a name inside a name keeps its shape. -/
theorem child (h : Below root r r') (k : String) : Below root (r.child k) r' := by
  cases h with
  | second n m M hM => exact .deeper n m M hM
  | deeper n m M hM => exact .deeper n m M hM
  | indexed n o xs => exact .indexed n o xs

theorem index (h : Below root r r') : Below root r.index r' := by
  cases h with
  | second n m M hM => exact .deeper n m M hM
  | deeper n m M hM => exact .deeper n m M hM
  | indexed n o xs => exact .indexed n o xs

end Below

/-- A change at a key path over a table either changes the entry of the path's one name by `f`,
or reaches below it and leaves one of the shapes of `Below`, as long as what `f` gives is no
leaf. -/
theorem modifyAt_shape {root : Value} (hroot : root.isTable) :
    ∀ (p : KeyPath) {f : Value → Option Value} {r' : Value},
      (∀ x y, f x = some y → y.leaf? = none) → modifyAt p f root = some r' →
        (∃ n w, p = .name n ∧ f ((root.get? n).getD (.nil none)) = some w ∧
          r' = root.withEntry n w) ∨ Below root p.reach r'
  | .name n, f, r', _, h => by
    rw [modifyAt_name hroot] at h
    obtain ⟨w, hw, rfl⟩ := Option.map_eq_some_iff.1 h
    exact .inl ⟨n, w, rfl, hw, rfl⟩
  | .child q k, f, r', hf, h => by
    rw [modifyAt_child] at h
    -- what the change gives below the parent is a table, so no leaf
    have hg : ∀ x y : Value, ((x.withEntry k ·) <$> f ((x.get? k).getD (.nil none))) = some y →
        y.leaf? = none := by
      intro x y hy
      obtain ⟨w, -, rfl⟩ := Option.map_eq_some_iff.1 hy
      rfl
    rcases modifyAt_shape hroot q hg h with ⟨n, w, rfl, hw, rfl⟩ | hb
    · obtain ⟨M, hM, rfl⟩ := Option.map_eq_some_iff.1 hw
      exact .inr (.second n k M (hf _ _ hM))
    · exact .inr (hb.child k)
  | .index q i, f, r', _, h => by
    rcases modifyAt_shape hroot q (fun _ _ => leaf?_of_changeItem) h with ⟨n, w, rfl, hw, rfl⟩ | hb
    · obtain ⟨o, ys, rfl⟩ := changeItem_eq_array hw
      exact .inr (.indexed n o ys)
    · exact .inr hb.index

/-! ## Laying a value at a key path -/

/-- The shapes a configuration takes once a value is laid at a key path, seen from the top by
what the path reaches: only the entry of the first name changes. A name alone takes the value
placed there; a name inside a name changes only that entry of the first, to the value placed
there; a path that goes on below leaves something that is no leaf in it; and a step into an
array right below the first name leaves an array there. -/
inductive Laid (root v : Value) : KeyPath.Reach → Value → Prop where
  | top (n : String) : Laid root v (.top n) (root.withEntry n (placed (root.get? n) v))
  | second (n m : String) :
    Laid root v (.second n m)
      (root.withEntry n (((root.get? n).getD (.nil none)).withEntry m
        (placed (((root.get? n).getD (.nil none)).get? m) v)))
  | deeper (n m : String) (M : Value) (hM : M.leaf? = none) :
    Laid root v (.deeper n m) (root.withEntry n (((root.get? n).getD (.nil none)).withEntry m M))
  | indexed (n : String) (o : Option String) (xs : List (Nat × Value)) :
    Laid root v (.indexed n) (root.withEntry n (.array o xs))

/-- A change that reaches below a name inside a name lays there as a deeper path does. -/
theorem Below.laid {root v r' : Value} {r : KeyPath.Reach} (h : Below root r r')
    (hr : ∀ n m, r ≠ .second n m) : Laid root v r r' := by
  cases h with
  | second n m M hM => exact absurd rfl (hr n m)
  | deeper n m M hM => exact .deeper n m M hM
  | indexed n o xs => exact .indexed n o xs

theorem Below.reach_ne_top {root r' : Value} {r : KeyPath.Reach} (h : Below root r r') (n : String) :
    r ≠ .top n := by
  cases h <;> simp

/-- Laying a value over a table, when it does not fail, takes one of the shapes of `Laid`. -/
theorem setAt_laid {root : Value} (hroot : root.isTable) {p : KeyPath} {v r' : Value}
    (h : root.setAt p v = some r') : Laid root v p.reach r' := by
  cases p with
  | name n =>
    cases h
    rw [setName_eq]
    exact .top n
  | child q k =>
    -- setting a name gives a table, so no leaf
    have hf : ∀ x y : Value, some (setName x k v) = some y → y.leaf? = none := by
      intro x y hy
      cases hy
      rw [setName_eq]
      rfl
    rcases modifyAt_shape hroot q hf h with ⟨n, w, rfl, hw, rfl⟩ | hb
    · cases hw
      rw [setName_eq]
      exact .second n k
    · exact (hb.child k).laid (KeyPath.Reach.child_ne_second hb.reach_ne_top k)
  | index q i =>
    rcases modifyAt_shape hroot q (fun _ _ => leaf?_of_changeItem) h with ⟨n, w, rfl, hw, rfl⟩ | hb
    · obtain ⟨o, ys, rfl⟩ := changeItem_eq_array hw
      exact .indexed n o ys
    · exact hb.index.laid (KeyPath.Reach.index_ne_second _)

/-! ## What one entry does to a setting -/

/-- What a configuration holds under a section's name and then a field's. -/
def slotAt (r : Value) (sec field : String) : Option Value :=
  (r.get? sec).bind (·.get? field)

/-- The leaf a configuration holds at a setting. -/
def leafAt (r : Value) (sec field : String) : Option Value :=
  (r.slotAt sec field).bind leaf?

/-- The touch a value placed under a section's name gives a field of it: a table merges its
entries in, anything else leaves no field at all. -/
def touchPlaced (field : String) : Value → Touch
  | .table _ incoming => touchEntries field incoming
  | _ => .clear

/-- The touch that laying `v` at a path of a reach gives the setting `sec`, `field`. -/
def touchAt (v : Value) (sec field : String) : KeyPath.Reach → Touch
  | .top n => if sec = n then touchPlaced field v else .keep
  | .second n m => if sec = n ∧ field = m then touchOf v else .keep
  | .deeper n m => if sec = n ∧ field = m then .clear else .keep
  | .indexed n => if sec = n then .clear else .keep

/-- Whether laying `v` at a path of a reach keeps the section `sec` a table: it lays nothing but
a table at the section's name, and does not step into an array right below it. -/
def keepsSection (sec : String) (v : Value) : KeyPath.Reach → Bool
  | .top n => n != sec || v.isTable
  | .indexed n => n != sec
  | .second .. | .deeper .. => true

theorem leaf_placed_get? (field : String) (x : Option Value) (v : Value) :
    ((placed x v).get? field).bind leaf? =
      (touchPlaced field v).apply ((x.bind (·.get? field)).bind leaf?) := by
  cases v with
  | table o incoming =>
    rw [placed, leaf_mergeEntries, touchPlaced]
    cases x <;> rfl
  | _ => rfl

theorem get?_getD_nil (x : Option Value) (k : String) :
    (x.getD (.nil none)).get? k = x.bind (·.get? k) := by
  cases x <;> rfl

/-- A value laid at a section's name alone is a table when the laying keeps the section one. -/
theorem exists_table_of_keepsSection {sec : String} {v : Value}
    (h : keepsSection sec v (.top sec) = true) : ∃ o incoming, v = .table o incoming := by
  cases v <;> simp_all [keepsSection, isTable]

namespace Laid

variable {root v r' : Value} {r : KeyPath.Reach}

theorem isTable (h : Laid root v r r') : r'.isTable := by
  cases h <;> rfl

theorem keys_nodup (h : Laid root v r r') (hroot : root.keys.Nodup) : r'.keys.Nodup := by
  cases h <;> exact keys_withEntry_nodup hroot _ _

/-- Laying touches each setting as `touchAt` says, whatever it is laid over. -/
theorem leafAt (h : Laid root v r r') (sec field : String) :
    r'.leafAt sec field = (touchAt v sec field r).apply (root.leafAt sec field) := by
  cases h with
  | top n =>
    by_cases hs : sec = n
    · subst hs
      simp [Value.leafAt, slotAt, touchAt, leaf_placed_get?]
    · simp [Value.leafAt, slotAt, touchAt, hs]
  | second n m =>
    by_cases hs : sec = n
    · subst hs
      by_cases hf : field = m
      · subst hf
        simp [Value.leafAt, slotAt, touchAt, leaf?_placed, get?_getD_nil]
      · simp [Value.leafAt, slotAt, touchAt, hf, get?_getD_nil]
    · simp [Value.leafAt, slotAt, touchAt, hs]
  | deeper n m M hM =>
    by_cases hs : sec = n
    · subst hs
      by_cases hf : field = m
      · subst hf
        simp [Value.leafAt, slotAt, touchAt, hM, Touch.apply]
      · simp [Value.leafAt, slotAt, touchAt, hf, get?_getD_nil]
    · simp [Value.leafAt, slotAt, touchAt, hs]
  | indexed n o xs =>
    by_cases hs : sec = n
    · subst hs
      simp [Value.leafAt, slotAt, touchAt, Touch.apply]
    · simp [Value.leafAt, slotAt, touchAt, hs]

/-- A section that is a table with distinct names stays one when the laying keeps it a table. -/
theorem section_table (h : Laid root v r r') {sec : String} (hkeep : keepsSection sec v r = true)
    (hsec : ∀ c, root.get? sec = some c → c.isTable ∧ c.keys.Nodup) :
    ∀ c, r'.get? sec = some c → c.isTable ∧ c.keys.Nodup := by
  -- what stood under the section before, as a table with distinct names
  have hold : ((root.get? sec).getD emptyTable).keys.Nodup ∧
      ((root.get? sec).getD (.nil none)).keys.Nodup := by
    cases hc : root.get? sec with
    | none => exact ⟨List.nodup_nil, List.nodup_nil⟩
    | some c => exact ⟨(hsec c hc).2, (hsec c hc).2⟩
  intro c hc
  cases h with
  | top n =>
    by_cases hs : sec = n
    · subst hs
      obtain ⟨o, incoming, rfl⟩ := exists_table_of_keepsSection hkeep
      simp only [get?_withEntry, if_true, Option.some.injEq] at hc
      subst hc
      refine ⟨isTable_mergeEntries ?_ incoming, keys_mergeEntries_nodup hold.1 incoming⟩
      cases hx : root.get? sec with
      | none => rfl
      | some x => exact (hsec x hx).1
    · simp only [get?_withEntry, hs, if_false] at hc
      exact hsec c hc
  | second n m | deeper n m _ _ =>
    by_cases hs : sec = n
    · subst hs
      simp only [get?_withEntry, if_true, Option.some.injEq] at hc
      subst hc
      exact ⟨rfl, keys_withEntry_nodup hold.2 _ _⟩
    · simp only [get?_withEntry, hs, if_false] at hc
      exact hsec c hc
  | indexed n o xs =>
    by_cases hs : sec = n
    · subst hs
      simp [keepsSection] at hkeep
    · simp only [get?_withEntry, hs, if_false] at hc
      exact hsec c hc

/-- What stands at a setting goes on standing there when the laying keeps its section a
table. -/
theorem slotAt_isSome (h : Laid root v r r') {sec field : String}
    (hkeep : keepsSection sec v r = true) (hslot : (root.slotAt sec field).isSome) :
    (r'.slotAt sec field).isSome := by
  obtain ⟨c, hc, hcf⟩ : ∃ c, root.get? sec = some c ∧ (c.get? field).isSome := by
    simp only [slotAt, Option.isSome_bind] at hslot
    cases hx : root.get? sec with
    | none => simp [hx] at hslot
    | some c => exact ⟨c, rfl, by simpa [hx] using hslot⟩
  cases h with
  | top n =>
    by_cases hs : sec = n
    · subst hs
      obtain ⟨o, incoming, rfl⟩ := exists_table_of_keepsSection hkeep
      simp [slotAt, hc, placed, isSome_get?_mergeEntries hcf]
    · simp [slotAt, hs, hc, hcf]
  | second n m | deeper n m _ _ =>
    by_cases hs : sec = n
    · subst hs
      by_cases hf : field = m <;> simp [slotAt, hc, hf, hcf]
    · simp [slotAt, hs, hc, hcf]
  | indexed n o xs =>
    by_cases hs : sec = n
    · subst hs
      simp [keepsSection] at hkeep
    · simp [slotAt, hs, hc, hcf]

end Laid

/-! ## What a source does to a setting -/

/-- Whether an entry keeps the section `sec` a table: what it lays at the section's name alone
is a table, and its key does not step into an array right below that name. -/
def keepsTable (sec : String) (e : String × Value) : Bool :=
  keepsSection sec e.2 (KeyPath.ofKey e.1).reach

/-- The touch an entry gives a setting, read from what its key reaches. -/
def entryTouch (sec field : String) (e : String × Value) : Touch :=
  touchAt e.2 sec field (KeyPath.ofKey e.1).reach

/-- The touch a source gives a setting: that of each entry in turn. -/
def sourceTouch (sec field : String) : List (String × Value) → Touch
  | [] => .keep
  | e :: es => (entryTouch sec field e).andThen (sourceTouch sec field es)

/-- Laying a source entry by entry, each at the key path its key reads as. -/
inductive LaidAll : Value → List (String × Value) → Value → Prop where
  | nil (root : Value) : LaidAll root [] root
  | cons {root r₁ r' : Value} {k : String} {v : Value} {es : List (String × Value)} :
      Laid root v (KeyPath.ofKey k).reach r₁ → LaidAll r₁ es r' → LaidAll root ((k, v) :: es) r'

theorem layer_cons (root : Value) (k : String) (v : Value) (es : List (String × Value)) :
    root.layer ((k, v) :: es) = (root.setAt (KeyPath.ofKey k) v).bind (·.layer es) := rfl

/-- A source laid over a table, when no array on the way grows too far, is laid entry by entry
as `LaidAll` says. -/
theorem laidAll_of_layer {root : Value} (hroot : root.isTable) :
    ∀ {es : List (String × Value)} {r : Value}, root.layer es = some r → LaidAll root es r
  | [], r, h => by
    cases h
    exact .nil root
  | (k, v) :: es, r, h => by
    rw [layer_cons] at h
    obtain ⟨r₁, h₁, hrest⟩ := Option.bind_eq_some_iff.1 h
    have hlaid := setAt_laid hroot h₁
    exact .cons hlaid (laidAll_of_layer hlaid.isTable hrest)

namespace LaidAll

variable {root r' : Value} {es : List (String × Value)}

theorem isTable (h : LaidAll root es r') (hroot : root.isTable) : r'.isTable := by
  induction h with
  | nil => exact hroot
  | cons hlaid _ ih => exact ih hlaid.isTable

theorem keys_nodup (h : LaidAll root es r') (hroot : root.keys.Nodup) : r'.keys.Nodup := by
  induction h with
  | nil => exact hroot
  | cons hlaid _ ih => exact ih (hlaid.keys_nodup hroot)

/-- A source touches each setting as `sourceTouch` says, whatever it is laid over. -/
theorem leafAt (h : LaidAll root es r') (sec field : String) :
    r'.leafAt sec field = (sourceTouch sec field es).apply (root.leafAt sec field) := by
  induction h with
  | nil => rfl
  | cons hlaid _ ih =>
    rw [ih, hlaid.leafAt, sourceTouch, Touch.apply_andThen, entryTouch]

theorem section_table (h : LaidAll root es r') {sec : String}
    (hkeep : ∀ e ∈ es, keepsTable sec e = true)
    (hsec : ∀ c, root.get? sec = some c → c.isTable ∧ c.keys.Nodup) :
    ∀ c, r'.get? sec = some c → c.isTable ∧ c.keys.Nodup := by
  induction h with
  | nil => exact hsec
  | @cons _ _ _ k v _ hlaid _ ih =>
    refine ih (fun e he => hkeep e (List.mem_cons_of_mem _ he)) ?_
    exact hlaid.section_table (hkeep (k, v) List.mem_cons_self) hsec

theorem slotAt_isSome (h : LaidAll root es r') {sec field : String}
    (hkeep : ∀ e ∈ es, keepsTable sec e = true) (hslot : (root.slotAt sec field).isSome) :
    (r'.slotAt sec field).isSome := by
  induction h with
  | nil => exact hslot
  | @cons _ _ _ k v _ hlaid _ ih =>
    refine ih (fun e he => hkeep e (List.mem_cons_of_mem _ he)) ?_
    exact hlaid.slotAt_isSome (hkeep (k, v) List.mem_cons_self) hslot

end LaidAll

/-! ## The highest source that gives a setting -/

/-- The leaf a source gives a setting: what its entries, in turn, leave there from nothing. -/
def sourceLeaf (es : List (String × Value)) (sec field : String) : Option Value :=
  (sourceTouch sec field es).apply none

/-- Laid alone over the empty table, a source shows the leaf it gives each setting. -/
theorem sourceLeaf_eq_leafAt {es : List (String × Value)} {r : Value}
    (hr : emptyTable.layer es = some r) (sec field : String) :
    sourceLeaf es sec field = r.leafAt sec field := by
  rw [(laidAll_of_layer rfl hr).leafAt]
  rfl

/-- The leaf that the highest of some sources giving the setting one gives it; the sources are
listed lowest first. -/
def highestLeaf (sources : List (List (String × Value))) (sec field : String) : Option Value :=
  sources.reverse.findSome? (sourceLeaf · sec field)

theorem highestLeaf_cons (es : List (String × Value)) (sources : List (List (String × Value)))
    (sec field : String) :
    highestLeaf (es :: sources) sec field =
      (highestLeaf sources sec field).or (sourceLeaf es sec field) := by
  simp only [highestLeaf, List.reverse_cons, List.findSome?_append, List.findSome?_singleton]

theorem highestLeaf_append (lower upper : List (List (String × Value))) (sec field : String) :
    highestLeaf (lower ++ upper) sec field =
      (highestLeaf upper sec field).or (highestLeaf lower sec field) := by
  simp only [highestLeaf, List.reverse_append, List.findSome?_append]

/-- The highest leaf is the one a source gives when no source above it gives one. -/
theorem highestLeaf_eq_some_iff {sources : List (List (String × Value))} {sec field : String}
    {w : Value} :
    highestLeaf sources sec field = some w ↔
      ∃ lower es upper, sources = lower ++ es :: upper ∧ sourceLeaf es sec field = some w ∧
        ∀ u ∈ upper, sourceLeaf u sec field = none := by
  rw [highestLeaf, List.findSome?_eq_some_iff]
  constructor
  · rintro ⟨above, es, below, hsplit, hw, hnone⟩
    refine ⟨below.reverse, es, above.reverse, ?_, hw, fun u hu => hnone u (by simpa using hu)⟩
    simpa using congrArg List.reverse hsplit
  · rintro ⟨lower, es, upper, rfl, hw, hnone⟩
    exact ⟨upper.reverse, es, lower.reverse, by simp, hw, fun u hu => hnone u (by simpa using hu)⟩

/-- Sources laid one after another, each entry by entry. -/
inductive LaidSources : Value → List (List (String × Value)) → Value → Prop where
  | nil (root : Value) : LaidSources root [] root
  | cons {root r₁ r' : Value} {es : List (String × Value)} {sources : List (List (String × Value))} :
      LaidAll root es r₁ → LaidSources r₁ sources r' → LaidSources root (es :: sources) r'

/-- A leaf that stands at a setting after sources are laid is the one the highest of them that
gives the setting gives it, or, when none does, the one that stood there before. -/
theorem LaidSources.leafAt {root r' : Value} {sources : List (List (String × Value))}
    (h : LaidSources root sources r') {sec field : String} {w : Value}
    (hw : r'.leafAt sec field = some w) :
    highestLeaf sources sec field = some w ∨
      (highestLeaf sources sec field = none ∧ root.leafAt sec field = some w) := by
  induction h with
  | nil => exact .inr ⟨rfl, hw⟩
  | @cons root r₁ r' es sources hes _ ih =>
    rw [highestLeaf_cons]
    rcases ih hw with hhigh | ⟨hhigh, h₁⟩
    · exact .inl (by rw [hhigh]; rfl)
    · rw [hhigh, Option.none_or]
      rw [hes.leafAt] at h₁
      -- the source gives the setting a leaf of its own, or keeps or clears the one below
      cases ht : sourceLeaf es sec field with
      | some u =>
        rw [Touch.apply_of_apply_none_eq_some ht] at h₁
        exact .inl h₁
      | none =>
        rcases Touch.apply_of_apply_none ht (root.leafAt sec field) with h | h
        · exact .inr ⟨rfl, h ▸ h₁⟩
        · rw [h] at h₁
          cases h₁

end Value

end CoordStore.Config
