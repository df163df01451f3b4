import CoordStore.Float.Binary64
/-!
# Configuration values

A configuration is a tree of values, each leaf remembering the source it came from: a file's
name, the environment, or none for values that the program supplies itself. Sources are laid
one over the other. Each top-level key of a source is read as a key path, a name followed by
`.name` and `[index]` steps (names of ASCII letters, digits, blanks, `_` and `-`); a key that is
not a key path is one name. The value is laid at its path by one rule: a table laid over a value
merges into it entry by entry, and anything else replaces it. The way to a path is made on
demand. A missing entry starts as nil, a value below a name that is not a table becomes an empty
table, and a value below an index that is not an array becomes an empty array, padded with nil
up to the index. An array cannot grow beyond `maxItems` items; asking it to stops the laying.

Tables built by the merge come from no source; only leaves and arrays keep theirs.
-/

namespace CoordStore.Config

/-- A configuration value, with the source it came from, if known. -/
inductive Value where
  | nil (origin : Option String)
  | bool (origin : Option String) (b : Bool)
  | int (origin : Option String) (i : Int)
  | float (origin : Option String) (x : Binary64)
  | text (origin : Option String) (s : String)
  | table (origin : Option String) (entries : List (String × Value))
  /-- An array: its items in order, each after the number of nil items that stand before it,
  so that padding an array far out stays a count. -/
  | array (origin : Option String) (items : List (Nat × Value))
  deriving Repr

/-- A key path: a name, a name inside a table, or a position inside an array. -/
inductive KeyPath where
  | name (n : String)
  | child (parent : KeyPath) (n : String)
  | index (parent : KeyPath) (i : Int)
  deriving DecidableEq, Repr

namespace KeyPath

/-- Whether a character may stand in a name of a key path. -/
def isNameChar (c : Char) : Bool :=
  (c.toNat < 128 && c.isAlphanum) || c = ' ' || c = '_' || c = '-'

/-- Whether a character is a blank allowed around an index. -/
def isPad (c : Char) : Bool :=
  c = ' ' || c = '\t'

/-- Reads an index and its closing bracket: blanks, an optional minus sign, digits, blanks, `]`;
the index must fit in a signed 64-bit integer. -/
def readIndex (cs : List Char) : Option (Int × List Char) :=
  let cs := cs.dropWhile isPad
  let (neg, cs) := match cs with
    | '-' :: rest => (true, rest)
    | _ => (false, cs)
  let ds := cs.takeWhile Char.isDigit
  let rest := (cs.dropWhile Char.isDigit).dropWhile isPad
  let n : Nat := ds.foldl (fun acc c => 10 * acc + (c.toNat - '0'.toNat)) 0
  let i : Int := if neg then -(n : Int) else n
  match rest with
  | ']' :: rest =>
    if ds.isEmpty || i < -(Nat.pow 2 63 : Int) || i ≥ (Nat.pow 2 63 : Int) then none
    else some (i, rest)
  | _ => none

/-- Reads the steps after the first name of a key path. -/
def readSteps (base : KeyPath) (cs : List Char) : (fuel : Nat) → Option KeyPath
  | 0 => none
  | fuel + 1 =>
    match cs with
    | [] => some base
    | '.' :: rest =>
      let n := rest.takeWhile isNameChar
      if n.isEmpty then none
      else readSteps (.child base (String.ofList n)) (rest.drop n.length) fuel
    | '[' :: rest =>
      match readIndex rest with
      | some (i, rest) => readSteps (.index base i) rest fuel
      | none => none
    | _ => none

/-- Reads a key path; none if the text is not one. -/
def read? (s : String) : Option KeyPath :=
  let cs := s.toList
  let n := cs.takeWhile isNameChar
  if n.isEmpty then none
  else readSteps (.name (String.ofList n)) (cs.drop n.length) (cs.length + 1)

/-- The key path a top-level key of a source stands for. -/
def ofKey (s : String) : KeyPath :=
  (read? s).getD (.name s)

end KeyPath

namespace Value

/-- The empty table of no source. -/
def emptyTable : Value :=
  .table none []

/-- The source a value came from. -/
def origin : Value → Option String
  | .nil o | .bool o _ | .int o _ | .float o _ | .text o _ | .table o _ | .array o _ => o

/-- The value's source and entries if it is a table; an empty table of no source otherwise. -/
def tableParts : Value → Option String × List (String × Value)
  | .table o es => (o, es)
  | _ => (none, [])

/-- The value's source and items if it is an array; an empty array of no source otherwise. -/
def arrayParts : Value → Option String × List (Nat × Value)
  | .array o xs => (o, xs)
  | _ => (none, [])

/-- Entries with the entry of a key replaced in its place, or added at the end. -/
def upsert (es : List (String × Value)) (k : String) (v : Value) : List (String × Value) :=
  if es.any (·.1 == k) then es.map fun e => if e.1 == k then (k, v) else e else es ++ [(k, v)]

mutual

/-- Lays a value under a name of a table (a value that is not a table is first replaced by an
empty one): a table merges into what the name holds, anything else replaces it. -/
def setName (root : Value) (k : String) : Value → Value
  | .table _ incoming =>
    let (o, es) := root.tableParts
    .table o (upsert es k (mergeEntries ((es.lookup k).getD emptyTable) incoming))
  | .nil vo => let (o, es) := root.tableParts; .table o (upsert es k (.nil vo))
  | .bool vo b => let (o, es) := root.tableParts; .table o (upsert es k (.bool vo b))
  | .int vo i => let (o, es) := root.tableParts; .table o (upsert es k (.int vo i))
  | .float vo x => let (o, es) := root.tableParts; .table o (upsert es k (.float vo x))
  | .text vo s => let (o, es) := root.tableParts; .table o (upsert es k (.text vo s))
  | .array vo xs => let (o, es) := root.tableParts; .table o (upsert es k (.array vo xs))

/-- Lays entries over a value, one after the other. -/
def mergeEntries (target : Value) : List (String × Value) → Value
  | [] => target
  | (k, v) :: rest => mergeEntries (setName target k v) rest

end

/-- The items of an array with the padding written out, each count as that many nils. -/
def expandItems : List (Nat × Value) → List Value
  | [] => []
  | (n, v) :: rest => List.replicate n (.nil none) ++ v :: expandItems rest

/-- The item at a position of an array: nil inside padding, none past the end. -/
def itemAt? : List (Nat × Value) → Nat → Option Value
  | [], _ => none
  | (n, v) :: rest, j =>
    if j < n then some (.nil none) else if j = n then some v else itemAt? rest (j - n - 1)

/-- The number of items of an array, padding included. -/
def itemCount : List (Nat × Value) → Nat
  | [] => 0
  | (n, _) :: rest => n + 1 + itemCount rest

/-- An array's items with the item at a position replaced; a position past the end pads the
array with nil up to it. -/
def setItem : List (Nat × Value) → Nat → Value → List (Nat × Value)
  | [], j, v => [(j, v)]
  | (n, w) :: rest, j, v =>
    if j < n then (j, v) :: (n - j - 1, w) :: rest
    else if j = n then (n, v) :: rest
    else (n, w) :: setItem rest (j - n - 1) v

/-- The most items an array can hold: items take 96 bytes each, and no block of memory may
exceed 2^63 - 16 bytes. Asking an array to grow beyond fails. -/
def maxItems : Nat := (Nat.pow 2 63 - 16) / 96

/-- The position an index stands for in an array of `len` items: an index below zero counts from
the end. None when it points before the start. -/
def position (i : Int) (len : Nat) : Option Nat :=
  if 0 ≤ i then some i.toNat
  else if i.natAbs ≤ len then some (len - i.natAbs) else none

/-- Changes the item at an index of an array by `f`, padding the array up to it; an index before
the start leaves the array as it is. None when the array would grow beyond `maxItems`. -/
def changeItem (o : Option String) (xs : List (Nat × Value)) (i : Int)
    (f : Value → Option Value) : Option Value :=
  match position i (itemCount xs) with
  | some j =>
    if j < maxItems then (fun v => .array o (setItem xs j v)) <$> f ((itemAt? xs j).getD (.nil none))
    else none
  | none => some (.array o xs)

/-- Changes the value at a key path by `f`, making the way to it. A plain name in a value that is
not a table reaches nothing, and the value is left as it is. None when an array on the way would
grow beyond `maxItems`. -/
def modifyAt : KeyPath → (Value → Option Value) → Value → Option Value
  | .name k, f, root =>
    match root with
    | .table o es => (fun v => .table o (upsert es k v)) <$> f ((es.lookup k).getD (.nil none))
    | _ => some root
  | .child p k, f, root =>
    modifyAt p (fun parent =>
      let (o, es) := parent.tableParts
      (fun v => .table o (upsert es k v)) <$> f ((es.lookup k).getD (.nil none))) root
  | .index p i, f, root =>
    modifyAt p (fun parent => let (o, xs) := parent.arrayParts; changeItem o xs i f) root

/-- Lays a value at a key path: under a name it merges or replaces by the rule of `setName`; at
a position of an array it replaces the item. None when an array would grow beyond `maxItems`. -/
def setAt (root : Value) : KeyPath → Value → Option Value
  | .name k, v => some (setName root k v)
  | .child p k, v => modifyAt p (fun parent => some (setName parent k v)) root
  | .index p i, v =>
    modifyAt p (fun parent => let (o, xs) := parent.arrayParts; changeItem o xs i fun _ => v) root

/-- Lays the top-level entries of a source over a value, each at the key path its key reads as.
None when an array would grow beyond `maxItems`. -/
def layer (root : Value) : List (String × Value) → Option Value
  | [] => some root
  | (k, v) :: rest => do (← root.setAt (KeyPath.ofKey k) v).layer rest

end Value

end CoordStore.Config
