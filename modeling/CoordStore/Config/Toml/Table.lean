import CoordStore.Config.Toml.Value
import CoordStore.Config.Toml.Token
/-!
# Assembling the tables of a TOML document

A document is assembled line by line. Key/value lines go to the current table, the one the
last header opened (the top-level table before any header). A header first files the current
table into the document at its path, then opens a new one.

The rules that refuse a document:
* A dotted key or a header may go through tables and through the last table of an array of
  tables, never through another value (`attempted to extend non-table type`).
* A dotted key may not go into a table that a header defined, and may add keys only to tables
  that dotted keys made.
* A key may be defined once in its table.
* A header may name a table only once, unless the table was only made on the way to another
  header; `[[name]]` may only add to an array of tables.

Inside an inline table, dotted keys may only go into tables that other dotted keys of the same
inline table made.
-/

namespace CoordStore.Config.Toml

/-- An entry of a table being assembled, with the stretch of the document it is known by. -/
inductive Node where
  /-- A value given by a key/value line, written at `span`; an inline table is one too. -/
  | value (v : Value) (span : Span)
  /-- A table, `implicit` when it was only made on the way to another, `dotted` when a
  dotted key made it; `span` runs from its header to the end of its last key/value line, or is
  the key that made it. -/
  | table (implicit dotted : Bool) (entries : List (String × Node)) (span : Span)
  /-- An array of tables, by their entries; `span` runs from where its first element is written
  to where its last one ends. -/
  | tables (elements : List (List (String × Node))) (span : Span)
  deriving Repr

/-- The entries of a table being assembled, by name. -/
abbrev Entries := List (String × Node)

/-- Entries with the entry of a name replaced in its place, or added at the end. -/
def Entries.put (es : Entries) (k : String) (n : Node) : Entries :=
  if es.any (·.1 == k) then es.map fun e => if e.1 == k then (k, n) else e else es ++ [(k, n)]

/-- The names of keys. -/
def keyNames (ks : List Key) : List String :=
  ks.map (·.name)

/-- A header naming a table that exists: the key as TOML writes it, and the path before it. -/
def duplicateAt (path : List Key) (i : Nat) : Cause :=
  .duplicateKey ((path[i]?.map (keyText ·.name)).getD "") (some (keyNames (path.take i)))

/-- How a walk down a path treats the tables it meets. -/
structure Walk where
  /-- Whether dotted keys make the walk: the tables it makes are dotted, and it may not
  enter a table that a header defined. -/
  dotted : Bool
  /-- Whether the walk is inside an inline table, where the inline tables met are defined
  already. -/
  inline : Bool

/-- Walks down the keys `rest` from a table with entries `es` (`isDotted` tells whether dotted
keys made it), making missing tables, and applies `f` to the table reached, rebuilding the
tables on the way. `done` holds the keys walked so far. -/
def Walk.descend {β : Type} (w : Walk) (f : Bool → Entries → Except Cause (Entries × β))
    (done rest : List Key) (isDotted : Bool) (es : Entries) : Except Cause (Entries × β) :=
  match rest with
  | [] => f isDotted es
  | k :: ks =>
    match es.lookup k.name with
    | none => do
      let (sub, b) ← w.descend f (done ++ [k]) ks w.dotted []
      pure (es ++ [(k.name, .table true w.dotted sub k.span)], b)
    | some (.value v _) =>
      match v with
      | .table _ =>
        if w.inline then .error (.duplicateKey k.name none)
        else .error (.extendsNonTable (keyNames (done ++ [k])) v.typeName)
      | _ => .error (.extendsNonTable (keyNames (done ++ [k])) v.typeName)
    | some (.tables elements span) => do
      let (sub, b) ← w.descend f (done ++ [k]) ks false (elements.getLast?.getD [])
      pure (es.put k.name (.tables (elements.dropLast ++ [sub]) span), b)
    | some (.table implicit dotted sub span) =>
      if w.dotted && !implicit then .error (.duplicateKey k.name none)
      else do
        let (sub, b) ← w.descend f (done ++ [k]) ks dotted sub
        pure (es.put k.name (.table implicit dotted sub span), b)

mutual

/-- The value a node stands for. -/
def Node.toValue : Node → Value
  | .value v _ => v
  | .table _ _ es _ => .table (Node.entriesToValues es)
  | .tables ts _ => .array (Node.tablesToValues ts)

/-- The stretch of the document a node is known by. -/
def Node.span : Node → Span
  | .value _ s | .table _ _ _ s | .tables _ s => s

/-- The values of entries, with their stretches. -/
def Node.entriesToValues : Entries → List (String × Value × Span)
  | [] => []
  | (k, n) :: es => (k, n.toValue, n.span) :: Node.entriesToValues es

/-- The values of the tables of an array of tables. -/
def Node.tablesToValues : List Entries → List Value
  | [] => []
  | es :: ts => .table (Node.entriesToValues es) :: Node.tablesToValues ts

end

/-- An inline table from its key/value pairs, in order: the dotted path, the key, the value
and where the value is written, of each. -/
def inlineTableOf (pairs : List (List Key × Key × Value × Span)) : Except Cause Value := do
  let add (es : Entries) (pair : List Key × Key × Value × Span) : Except Cause Entries := do
    let (path, k, v, span) := pair
    let (es, _) ← Walk.descend ⟨true, true⟩ (fun _ es =>
        if es.any (·.1 == k.name) then .error (.duplicateKey k.name none)
        else .ok (es ++ [(k.name, .value v span)], ())) [] path false es
    pure es
  let es ← pairs.foldlM add []
  pure (.table (Node.entriesToValues es))

/-- A document being assembled: the tables filed so far, the current table's entries, the
path of its header (empty for the top-level table), whether it is an element of an array of
tables, and where it is written: from its header to the end of its last key/value line. -/
structure Doc where
  root : Entries
  current : Entries
  path : List Key
  isArray : Bool
  span : Span
  deriving Repr

namespace Doc

/-- The document before its first line. -/
def empty : Doc :=
  ⟨[], [], [], false, ⟨0, 0⟩⟩

/-- Adds a key/value line to the current table: the dotted path, the key, the value and where
it is written. The current table then reaches to the end of the value. -/
def addKeyval (d : Doc) (path : List Key) (k : Key) (v : Value) (span : Span) :
    Except Cause Doc := do
  let (es, _) ← Walk.descend ⟨true, false⟩ (fun isDotted es =>
      if isDotted == path.isEmpty then .error (.duplicateKey k.name none)
      else if es.any (·.1 == k.name) then .error (.duplicateKey k.name (some (keyNames d.path)))
      else .ok (es ++ [(k.name, .value v span)], ())) [] path false d.current
  pure { d with current := es, span := ⟨d.span.start, span.stop⟩ }

/-- Files the current table into the document at the path of its header. -/
def file (d : Doc) : Except Cause Doc :=
  match d.path.getLast? with
  | none => pure { d with root := d.current, current := [] }
  | some k => do
    let here := duplicateAt d.path (d.path.length - 1)
    let (root, _) ← Walk.descend ⟨false, false⟩ (fun _ es =>
        match es.lookup k.name, d.isArray with
        | none, true => .ok (es ++ [(k.name, .tables [d.current] d.span)], ())
        | some (.tables ts span), true =>
          .ok (es.put k.name (.tables (ts ++ [d.current]) ⟨span.start, d.span.stop⟩), ())
        | none, false => .ok (es ++ [(k.name, .table false false d.current d.span)], ())
        | some (.table true _ _ _), false =>
          .ok (es.put k.name (.table false false d.current d.span), ())
        | _, _ => .error here) [] d.path.dropLast false d.root
    pure { d with root, current := [], path := [] }

/-- Opens the table a header written at `span` names: a table made only on the way to another
header becomes the current table with what it holds. -/
def openTable (d : Doc) (path : List Key) (span : Span) : Except Cause Doc :=
  match path.getLast? with
  | none => pure d
  | some k => do
    let (root, taken) ← Walk.descend ⟨false, false⟩ (fun _ es =>
        match es.lookup k.name with
        | none => .ok (es, [])
        | some (.table true false sub _) => .ok (es.filter (·.1 != k.name), sub)
        | some _ => .error (duplicateAt path (path.length - 1))) [] path.dropLast false d.root
    pure { root, current := taken, path, isArray := false, span }

/-- Opens a new element of the array of tables a header written at `span` names. -/
def openArrayTable (d : Doc) (path : List Key) (span : Span) : Except Cause Doc :=
  match path.getLast? with
  | none => pure d
  | some k => do
    let (root, _) ← Walk.descend ⟨false, false⟩ (fun _ es =>
        match es.lookup k.name with
        | none => .ok (es ++ [(k.name, .tables [] span)], ())
        | some (.tables _ _) => .ok (es, ())
        | some _ => .error (duplicateAt path (path.length - 1))) [] path.dropLast false d.root
    pure { root, current := [], path, isArray := true, span }

/-- Takes a table header written at `span`: `[path]`, or `[[path]]` when `isArray`. -/
def addHeader (d : Doc) (isArray : Bool) (path : List Key) (span : Span) : Except Cause Doc := do
  let d ← d.file
  if isArray then d.openArrayTable path span else d.openTable path span

/-- The top-level entries of the finished document. -/
def finish (d : Doc) : Except Cause (List (String × Value × Span)) := do
  let d ← d.file
  pure (Node.entriesToValues d.root)

end Doc

end CoordStore.Config.Toml
