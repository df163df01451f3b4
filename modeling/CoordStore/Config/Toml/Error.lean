/-!
# Why a TOML document does not read

A document that does not read is reported by the place where reading stopped, the notes
gathered on the way out of the constructs that were being read, and, for a construct that is
well-formed but refused, a cause.

A note is the name of a construct (`table header`) or a token that would have fitted there
(``expected `.`, `]` ``). The report names the innermost construct only, and lists every
expected token, innermost first.

`Error.render` shows the report against the document: the line and column of the place, the
line itself, and carets under the character there, or under the refused stretch.
-/

namespace CoordStore.Config.Toml

/-- A stretch of the document, by character offsets: from `start` up to, not including,
`stop`. -/
structure Span where
  start : Nat
  stop : Nat
  deriving DecidableEq, Repr

/-- The part of a date-time text that does not read. -/
inductive DatetimePart where
  | whole
  | date
  | time
  | dateTime
  | offset
  deriving DecidableEq, Repr

/-- The word reports use for a part of a date-time. -/
def DatetimePart.word : DatetimePart → String
  | .whole => "datetime"
  | .date => "date"
  | .time => "time"
  | .dateTime => "date-time"
  | .offset => "offset"

/-- Why a well-formed construct is refused. -/
inductive Cause where
  /-- A number, date, time or escape lies outside its range. -/
  | outOfRange
  /-- Values or keys are nested too deeply. -/
  | recursionLimit
  /-- An integer above the largest signed 64-bit integer. -/
  | tooLarge
  /-- An integer below the smallest signed 64-bit integer. -/
  | tooSmall
  /-- A key defined twice, with the table it was defined in when that is named. -/
  | duplicateKey (key : String) (table : Option (List String))
  /-- A dotted key or header that goes through a value that is not a table. -/
  | extendsNonTable (path : List String) (typeName : String)
  /-- A table marked as a date-time whose value is not text, with what it is instead. -/
  | datetimeNotText (found : String)
  /-- Date-time text that does not read: the part at fault, and what was expected there. -/
  | badDatetime (part : DatetimePart) (expected : Option String)
  deriving DecidableEq, Repr

/-- The sentence a cause reads as. -/
def Cause.message : Cause → String
  | .outOfRange => "value is out of range"
  | .recursionLimit => "recursion limit exceeded"
  | .tooLarge => "number too large to fit in target type"
  | .tooSmall => "number too small to fit in target type"
  | .duplicateKey k none => "duplicate key `" ++ k ++ "`"
  | .duplicateKey k (some []) => "duplicate key `" ++ k ++ "` in document root"
  | .duplicateKey k (some t) =>
    "duplicate key `" ++ k ++ "` in table `" ++ ".".intercalate t ++ "`"
  | .extendsNonTable p t =>
    "dotted key `" ++ ".".intercalate p ++ "` attempted to extend non-table type (" ++ t ++ ")"
  | .datetimeNotText found => "invalid type: " ++ found ++ ", expected string containing a datetime"
  | .badDatetime part none => "invalid " ++ part.word
  | .badDatetime part (some e) => "invalid " ++ part.word ++ ", expected " ++ e

/-- A note gathered by a failure on its way out of a construct. -/
inductive Note where
  /-- The construct that was being read. -/
  | label (name : String)
  /-- A token that would have fitted, as reports write it. -/
  | expected (token : String)
  deriving DecidableEq, Repr

/-- Where and why a document does not read. -/
structure Error where
  /-- The character offset where reading stopped; none for a fault of the document as a
  whole. -/
  pos : Option Nat
  /-- The notes gathered, innermost first. -/
  notes : List Note
  /-- Why a well-formed construct was refused, if it was. -/
  cause : Option Cause
  /-- Where the refused text ends, when the fault is a stretch of text rather than a place. -/
  stop : Option Nat := none
  deriving Repr

namespace Error

/-- The description: `invalid` and the innermost construct, the expected tokens, and the
cause, one per line. -/
def message (e : Error) : String :=
  let label := e.notes.findSome? fun
    | .label s => some s
    | .expected _ => none
  let expected := e.notes.filterMap fun
    | .expected s => some s
    | .label _ => none
  let parts := (label.map ("invalid " ++ ·)).toList ++
    (if expected.isEmpty then [] else ["expected " ++ ", ".intercalate expected]) ++
    (e.cause.map Cause.message).toList
  "\n".intercalate parts

/-- The line (from 0) of a character offset, the offset where that line starts, and the
column (from 0). The column counts the characters before the offset on its line, but bytes
when the character at the offset takes more than one. An offset at the end counts one past
the last character. -/
def place (cs : List Char) (pos : Nat) : Nat × Nat × Nat :=
  let n := cs.length
  let at_ := if n = 0 then 0 else min pos (n - 1)
  let before := cs.take at_
  let line := before.count '\n'
  let lead := before.reverse.takeWhile (· ≠ '\n')
  let wide : Bool := pos < n && match cs[at_]? with
    | some c => c.utf8Size > 1
    | none => false
  let width := if wide then lead.foldl (fun k c => k + c.utf8Size) 0 else lead.length
  (line, at_ - lead.length, width + (pos - at_))

/-- The error shown against the document: line and column (from 1), the line itself, and
under it one caret per byte of the refused stretch, or of the character at the place (one at
the end of the text), no further than the end of the line, then the description. -/
def render (src : String) (e : Error) : String :=
  match e.pos with
  | none => e.message ++ "\n"
  | some pos =>
    let cs := src.toList
    let (line, start, column) := place cs pos
    let content := String.ofList ((cs.drop start).takeWhile (· ≠ '\n'))
    let width := match e.stop with
      | some stop => ((cs.drop pos).take (stop - pos)).foldl (fun n c => n + c.utf8Size) 0
      | none => ((cs[pos]?).map Char.utf8Size).getD 1
    let carets := max 1 (min width (content.utf8ByteSize - column))
    let lineNum := toString (line + 1)
    let gutter := String.ofList (List.replicate (lineNum.length + 1) ' ')
    "TOML parse error at line " ++ lineNum ++ ", column " ++ toString (column + 1) ++ "\n" ++
      gutter ++ "|\n" ++ lineNum ++ " | " ++ content ++ "\n" ++
      gutter ++ "|" ++ String.ofList (List.replicate (column + 1) ' ') ++
      String.ofList (List.replicate carets '^') ++ "\n" ++ e.message ++ "\n"

end Error

end CoordStore.Config.Toml
