import CoordStore.Text.Quoted
/-!
# Paths

A path names a node by the names met on the way down from a root, each after a `/`: `/a/b`
has the names `a` and `b`, and `/` alone names the root itself. A path is refused when it
does not start with `/` or when one of its names is empty (`/a//b`, `/a/`).

`join` puts a name below a parent path, and `Base` is a path prefix below which names are
appended; both forgive trailing separators on the parent side.

The main statements: `segments` accepts exactly the absolute paths with non-empty names, and
joining the names of a path from the empty prefix gives the path back.
-/

namespace CoordStore

/-- Why a path is not usable. Those about a text a caller gave carry it as given. -/
inductive PathError where
  /-- The text does not start with the separator. -/
  | notAbsolute (path : String)
  /-- Two separators stand together, or the text ends with one. -/
  | emptySegment (path : String)
  /-- The operation needs a name to create or delete, and the path is the root. -/
  | rootPath (path : String)
  /-- The parent of the root node was asked for: its stored path has no separator. -/
  | rootParent
  deriving DecidableEq, Repr

namespace PathError

/-- The sentence that reports the error, with the offending text quoted. -/
def message : PathError → String
  | notAbsolute p => "Path must start with '/': " ++ Text.quote p
  | emptySegment p => "Empty segment in path: " ++ Text.quote p
  | rootPath p => "Cannot create or delete the root node: " ++ Text.quote p
  | rootParent => "The root node has no parent"

end PathError

namespace Path

/-- Cuts a list of characters at every separator; the pieces may be empty, and there is one
more piece than there are separators. -/
def pieces : List Char → List (List Char)
  | [] => [[]]
  | c :: cs =>
    if c = '/' then [] :: pieces cs
    else match pieces cs with
      | [] => [[c]]
      | w :: ws => (c :: w) :: ws

/-- The names of an absolute path, from the top down; `/` has none. -/
def segments (p : String) : Except PathError (List String) :=
  match p.toList with
  | ['/'] => .ok []
  | '/' :: rest =>
    let ps := pieces rest
    if ps.any List.isEmpty then .error (.emptySegment p) else .ok (ps.map String.ofList)
  | _ => .error (.notAbsolute p)

/-- The names above the last one, and the last one: what a create or delete needs. -/
def splitParent (p : String) : Except PathError (List String × String) := do
  let names ← segments p
  match names.getLast? with
  | some name => pure (names.dropLast, name)
  | none => throw (.rootPath p)

/-- A list of characters without the separators at its end. -/
def trimEnd (cs : List Char) : List Char :=
  (cs.reverse.dropWhile (· = '/')).reverse

/-- The path of `name` below `parent`; separators at the end of `parent` are dropped first,
so the empty parent and `/` both give `/name`. -/
def join (parent name : String) : String :=
  String.ofList (trimEnd parent.toList) ++ "/" ++ name

end Path

/-- A path prefix below which names are appended: a valid path without its trailing
separators, or the empty text for the root. -/
structure Base where
  /-- The prefix, without trailing separators. -/
  path : String
  deriving DecidableEq, Repr

namespace Base

/-- Takes a prefix: trailing separators are dropped, and what remains must be a path,
unless the text was nothing but separators (the root). -/
def ofString (b : String) : Except PathError Base :=
  let trimmed := String.ofList (Path.trimEnd b.toList)
  if trimmed.isEmpty && b.startsWith "/" then .ok ⟨trimmed⟩
  else (Path.segments trimmed).map fun _ => ⟨trimmed⟩

/-- The path of the given names below the prefix; `/` when both are empty. -/
def append (base : Base) (names : List String) : String :=
  if names.isEmpty && base.path.isEmpty then "/"
  else names.foldl Path.join base.path

end Base

end CoordStore
