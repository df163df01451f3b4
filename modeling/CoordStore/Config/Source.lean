import CoordStore.Config.Convert
/-!
# Sources of settings

Three kinds of source give settings.

**Files.** A file is looked up by name in a folder; a name that starts with `/` leads from the
root of the file system instead, where only files written under such names are. An exact match
counts only when its extension is `toml`; another extension is refused. A name with no such
file stands for the name with `.toml` added. A found file is read as TOML, and its values come
from the file's name.

**The environment.** It contributes the variables whose names start with `DIRECTORY__` in any
case and whose values are not empty. The rest of the name is taken in lower case, with `__` read
as a dot. The value is read as a boolean (`true` or `false` in any case), else as a signed 64-bit
integer, else as a float, else as text. These values come from "the environment".

**The program's own settings.** They are laid as values of no source.
-/

namespace CoordStore.Config

/-- TOML entries as configuration entries: keys are taken in lower case, in the sorted order of
the keys as written, and a key that meets another in lower case replaces it. -/
def Value.settleEntries (es : List (String × Value)) : List (String × Value) :=
  let sorted := es.mergeSort fun a b => decide (a.1 ≤ b.1)
  sorted.foldl (fun acc e => upsert acc (asciiLower e.1) e.2) []

mutual

/-- A TOML value as a configuration value from a source. Dates and times become their text. -/
def Value.ofToml (o : Option String) : Toml.Value → Value
  | .text s => .text o s
  | .int i => .int o i
  | .float x => .float o x.toBinary64
  | .bool b => .bool o b
  | .datetime d => .text o d.text
  | .array xs => .array o (Value.ofTomlItems o xs)
  | .table es => .table o (Value.settleEntries (Value.ofTomlPairs o es))

/-- TOML items as configuration items from a source, with no padding between them. -/
def Value.ofTomlItems (o : Option String) : List Toml.Value → List (Nat × Value)
  | [] => []
  | x :: xs => (0, Value.ofToml o x) :: Value.ofTomlItems o xs

/-- TOML entries as configuration entries from a source, in the order of the TOML table. -/
def Value.ofTomlPairs (o : Option String) :
    List (String × Toml.Value × Toml.Span) → List (String × Value)
  | [] => []
  | (k, v, _) :: es => (k, Value.ofToml o v) :: Value.ofTomlPairs o es

end

/-- A TOML table as configuration entries from a source, settled as `settleEntries` says. -/
def Value.ofTomlEntries (o : Option String) (es : List (String × Toml.Value × Toml.Span)) :
    List (String × Value) :=
  Value.settleEntries (Value.ofTomlPairs o es)

/-- A folder of files: names and contents. A later write of a name replaces the earlier one. -/
structure Folder where
  files : List (String × String) := []
  /-- How the folder's own place is written in messages. -/
  place : String
  deriving Repr

namespace Folder

/-- The pieces of a text between the occurrences of a character, empty ones included: one more
piece than there are occurrences. -/
def cut (sep : Char) (s : String) : List String :=
  (s.toList.splitOn sep).map String.ofList

/-- The steps of a file name, without empty and `.` steps. -/
def steps (name : String) : List String :=
  (cut '/' name).filter fun s => s ≠ "" && s ≠ "."

/-- The slash a file name from the root of the file system starts with, or nothing. -/
def rootMark (name : String) : String :=
  if name.startsWith "/" then "/" else ""

/-- Where a file name leads: whether it starts at the root of the file system rather than in
the folder, and its steps. -/
def target (name : String) : Bool × List String :=
  (name.startsWith "/", steps name)

/-- Writes a file. -/
def write (f : Folder) (name text : String) : Folder :=
  { f with files := (name, text) :: f.files.filter fun e => target e.1 ≠ target name }

/-- The contents of the file a name leads to, if there is one. A name whose last step is empty,
`.` or `..` leads to a folder rather than a file; a name from the root of the file system finds
only a file written under such a name. -/
def contents? (f : Folder) (name : String) : Option String :=
  let last := (cut '/' name).getLast?.getD ""
  if last = "" || last = "." || last = ".." then none
  else (f.files.find? fun e => target e.1 = target name).map (·.2)

/-- The extension of a file name: what follows its last dot, unless the name has no dot or its
only dot leads it. -/
def extension? (name : String) : Option String :=
  let last := (cut '/' name).getLast?.getD ""
  let parts := cut '.' last
  match parts with
  | [] | [_] => none
  | _ =>
    if last = ".." || (parts.length = 2 && parts.head? = some "") then none
    else parts.getLast?

/-- The name of a file with `.toml` added, after its last step: trailing slashes and `.` steps
go, and a name with no last step stays as it is. -/
def withExtension (name : String) : String :=
  match (steps name).reverse with
  | last :: rest =>
    if last = ".." then name
    else rootMark name ++ "/".intercalate (rest.reverse ++ [last ++ ".toml"])
  | [] => name

/-- Finds the file a name stands for, with the name it is known by: the file of that name if
its extension is `toml`, else the file with `.toml` added. -/
def resolve (f : Folder) (name : String) : Except LoadError (String × String) :=
  match f.contents? name with
  | some text =>
    if extension? name = some "toml" then .ok (rootMark name ++ "/".intercalate (steps name), text)
    else .error (.unknownFormat (if name.startsWith "/" then name else f.place ++ "/" ++ name))
  | none =>
    let other := withExtension name
    match f.contents? other with
    | some text => .ok (rootMark other ++ "/".intercalate (steps other), text)
    | none => .error (.notFound name)

/-- The top-level entries of the file a name stands for, from that file. -/
def read (f : Folder) (name : String) : Except LoadError (List (String × Value)) := do
  let (uri, text) ← f.resolve name
  match Toml.parse text with
  | .ok (.table entries) => .ok (Value.ofTomlEntries (some uri) entries)
  | .ok other => .error (.notAMap (Value.ofToml (some uri) other).found uri)
  | .error e => .error (.malformed uri e text)

end Folder

namespace Environment

/-- The source that environment values come from. -/
def origin : String := "the environment"

/-- The start of the names of variables that give settings, in lower case. -/
def namePrefix : String := "directory__"

/-- Reads every `__` of a name as a dot, from left to right. -/
def dotted : List Char → List Char
  | '_' :: '_' :: rest => '.' :: dotted rest
  | c :: rest => c :: dotted rest
  | [] => []

/-- A variable's value, typed as it reads. -/
def value (v : String) : Value :=
  let o := some origin
  let l := Value.asciiLower v
  if l = "true" then .bool o true
  else if l = "false" then .bool o false
  else match Value.readInt? v with
    | some i => .int o i
    | none => match Number.readFloat v.toList with
      | some x => .float o x.toBinary64
      | none => .text o v

/-- The entry a variable gives, if it gives one. -/
def entry? (name v : String) : Option (String × Value) :=
  let l := Value.asciiLower name
  if v.isEmpty || !l.startsWith namePrefix then none
  else some (String.ofList (dotted (l.toList.drop namePrefix.length)), value v)

/-- The entries the variables give, in their order. -/
def entries (vars : List (String × String)) : List (String × Value) :=
  vars.filterMap fun e => entry? e.1 e.2

end Environment

end CoordStore.Config
