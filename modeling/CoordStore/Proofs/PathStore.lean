import CoordStore.Proofs.Tree.Paths
import CoordStore.Store.Op

/-!
# A store keyed by paths

The reference the node tree is measured against: a finite map from absolute paths to entries
(payload, mode, owner, and the counter that numbers sequential children), holding the root at
the empty path. Its operations read paths below a base path, the path of a handle's root, and
say in paths alone what the store does:

* a creation walks to the parent's path, refuses a plain name already taken and an ephemeral
  parent, numbers a sequential name with the parent's counter (which moves on even when the
  numbered name then turns out to be taken), and stores the owner only for ephemeral modes;
* a replacement of a payload changes the entry at the path;
* a deletion refuses a path that is missing or has an entry one name below it;
* a read gives the payload at a path, or the names one name below it in ascending order, and a
  path leads somewhere when a read of its payload succeeds;
* a batch refuses a check, and otherwise runs its writes in order; when one fails, the store
  is left as it was;
* the expiry of a session drops the entries it owns, and counts them.

Errors name the first path that is missing, as the store's do.
-/

namespace CoordStore

/-- What the reference keeps at a path. -/
structure Entry where
  data : Option (List UInt8)
  mode : CreateMode
  owner : Option Int
  /-- The number the next sequential child gets. -/
  counter : Nat
  deriving DecidableEq, Repr

/-- An entry later: the same but for a counter that has moved on. -/
def Entry.Advanced (e e' : Entry) : Prop :=
  e' = { e with counter := e'.counter } ∧ e.counter ≤ e'.counter

/-- Entries by absolute path. -/
abbrev PathStore := Std.ExtTreeMap String Entry

namespace Path

/-- Whether `k` is `q` with one more name. -/
def extendsByName (q k : String) : Bool :=
  match Tree.lastSplit k with
  | some (parent, name) => parent == q.toList && !name.isEmpty
  | none => false

theorem extendsByName_iff {q : String} (hq : Unslashed q) {k : String} :
    extendsByName q k = true ↔ ∃ name, IsName name ∧ k = join q name := by
  constructor
  · intro h
    unfold extendsByName at h
    split at h
    · rename_i parent name hsplit
      simp only [Bool.and_eq_true, beq_iff_eq, Bool.not_eq_true', String.isEmpty_eq_false_iff]
        at h
      obtain ⟨rfl, hne⟩ := h
      obtain ⟨hk, hslash⟩ := toList_of_lastSplit hsplit
      exact ⟨name, ⟨hne, hslash⟩, String.toList_inj.1 (by rw [hk, toList_join hq])⟩
    · cases h
  · rintro ⟨name, hname, rfl⟩
    simp [extendsByName, lastSplit_join hq hname.2, hname.1]

end Path

namespace PathStore

/-- The store with only the root: no payload, persistent, no owner. -/
def initial : PathStore :=
  (∅ : PathStore).insert "" ⟨none, .persistent, none, 0⟩

/-- Walks names down from path `q`; the first path not in the store is reported. -/
def walk (M : PathStore) : String → List String → Except DirError String
  | q, [] => .ok q
  | q, name :: rest =>
    if M.contains (Path.join q name) then walk M (Path.join q name) rest
    else .error (.notFound (Path.join q name))

/-- The path a path below `base` leads to. -/
def find (M : PathStore) (base path : String) : Except DirError String := do
  let names ← (Path.segments path).mapError .badPath
  M.walk base names

/-- Creates `name` below the path `q`; gives the created path. -/
def createAt (M : PathStore) (q name : String) (data : Option (List UInt8)) (mode : CreateMode)
    (session : Int) : Except DirError String × PathStore :=
  match M[q]? with
  | none => (.error (.notFound q), M)
  | some e =>
    if !mode.isSequential && M.contains (Path.join q name) then
      (.error (.alreadyExists (Path.join q name)), M)
    else if e.mode.isEphemeral then
      (.error (.ephemeralParent (Path.join q name)), M)
    else
      -- a sequential name takes the counter as suffix, and the counter moves on
      let name' := if mode.isSequential then name ++ sequenceSuffix e.counter else name
      let M' := if mode.isSequential then M.insert q { e with counter := e.counter + 1 } else M
      let path := Path.join q name'
      if M'.contains path then (.error (.alreadyExists path), M')
      else
        (.ok path,
          M'.insert path ⟨data, mode, if mode.isEphemeral then some session else none, 0⟩)

/-- Creates the entry at a path below `base`; gives its path below `base`. -/
def add (M : PathStore) (base path : String) (data : Option (List UInt8)) (mode : CreateMode)
    (session : Int) : Except DirError String × PathStore :=
  match Path.splitParent path with
  | .error e => (.error (.badPath e), M)
  | .ok (names, name) =>
    match M.walk base names with
    | .error e => (.error e, M)
    | .ok q =>
      let (r, M') := M.createAt q name data mode session
      (r.map fun absolute => String.ofList (absolute.toList.drop base.length), M')

/-- Replaces the payload at a path below `base`. -/
def update (M : PathStore) (base path : String) (data : Option (List UInt8)) :
    Except DirError Unit × PathStore :=
  match M.find base path with
  | .error e => (.error e, M)
  | .ok q => (.ok (), M.modify q fun e => { e with data })

/-- Removes `name` below the path `q`, unless it is missing or has an entry below it. -/
def deleteAt (M : PathStore) (q name : String) : Except DirError Unit × PathStore :=
  let path := Path.join q name
  if !M.contains path then (.error (.notFound path), M)
  else if M.keys.any (Path.extendsByName path) then (.error (.notEmpty path), M)
  else (.ok (), M.erase path)

/-- Removes the entry at a path below `base`. -/
def delete (M : PathStore) (base path : String) : Except DirError Unit × PathStore :=
  match Path.splitParent path with
  | .error e => (.error (.badPath e), M)
  | .ok (names, name) =>
    match M.walk base names with
    | .error e => (.error e, M)
    | .ok q => M.deleteAt q name

/-- The payload at a path below `base`. -/
def get (M : PathStore) (base path : String) : Except DirError (Option (List UInt8)) := do
  let q ← M.find base path
  match M[q]? with
  | some e => pure e.data
  | none => throw (.notFound q)

/-- The name a path one name below the path `q` ends in. -/
def lastName (q k : String) : String :=
  String.ofList (k.toList.drop (q.toList.length + 1))

theorem lastName_join {q : String} (hq : Path.Unslashed q) (name : String) :
    lastName q (Path.join q name) = name := by
  simp [lastName, Path.toList_join hq]

/-- The names of the entries one name below the path `q`, in ascending order. -/
def namesBelow (M : PathStore) (q : String) : List String :=
  ((M.keys.filter (Path.extendsByName q)).map (lastName q)).mergeSort

/-- The names of the entries one name below a path below `base`, in ascending order. -/
def getChildren (M : PathStore) (base path : String) : Except DirError (List String) := do
  let q ← M.find base path
  match M[q]? with
  | some _ => pure (M.namesBelow q)
  | none => throw (.notFound q)

/-- Whether a path below `base` leads to an entry. -/
def has (M : PathStore) (base path : String) : Bool :=
  (M.get base path).toBool

/-- Runs one write of a batch. -/
def write (M : PathStore) (base : String) (session : Int) :
    Write → Except DirError OpResult × PathStore
  | .create p d m => let (r, M') := M.add base p d m session; (r.map .create, M')
  | .setData p d => let (r, M') := M.update base p d; (r.map fun _ => .setData, M')
  | .delete p => let (r, M') := M.delete base p; (r.map fun _ => .delete, M')

/-- Runs writes in order, up to the first that fails. -/
def writes (M : PathStore) (base : String) (session : Int) :
    List Write → Except DirError (List OpResult) × PathStore
  | [] => (.ok [], M)
  | w :: ws =>
    match M.write base session w with
    | (.error e, M') => (.error e, M')
    | (.ok r, M') =>
      let (rs, M'') := M'.writes base session ws
      (rs.map (r :: ·), M'')

/-- Runs a batch: refused if it holds a check, else kept whole or, when a write fails, left
undone. -/
def multi (M : PathStore) (base : String) (session : Int) (ops : List BatchOp) :
    Except DirError (List OpResult) × PathStore :=
  match ops.mapM BatchOp.toWrite? with
  | none => (.error .checkInBatch, M)
  | some ws =>
    match M.writes base session ws with
    | (.ok rs, M') => (.ok rs, M')
    | (.error e, _) => (.error e, M)

/-- Drops the entries a session owns; gives how many. -/
def expire (M : PathStore) (session : Int) : Nat × PathStore :=
  ((M.filter fun _ e => e.owner == some session).size,
    M.filter fun _ e => e.owner != some session)

/-! ## Stores equal but for counters -/

/-- `M'` has the entries of `M` at the same paths, but for counters that have moved on. -/
def CountersAdvanced (M M' : PathStore) : Prop :=
  ∀ k : String, Option.Rel Entry.Advanced M[k]? M'[k]?

theorem CountersAdvanced.refl (M : PathStore) : CountersAdvanced M M := by
  intro k
  cases M[k]? with
  | none => exact .none
  | some e => exact .some ⟨rfl, Nat.le_refl _⟩

end PathStore

end CoordStore
