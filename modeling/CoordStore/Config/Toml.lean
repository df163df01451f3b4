import CoordStore.Config.Toml.Table
import CoordStore.Config.Toml.Numeral
import CoordStore.Config.Toml.Stamp
/-!
# TOML documents

A reader for TOML documents: tables (`[a.b]`) and arrays of tables (`[[a]]`), key/value lines
with bare, quoted and dotted keys, the four kinds of strings, integers, floats, booleans,
date-times, arrays and inline tables, comments and blank lines. A byte order mark at the start
is skipped.

A value is told by its first character: a quote starts a string, `[` an array, `{` an inline
table, a digit or a sign a date-time, float or integer (tried in that order), and `t`, `f`,
`i`, `n` the words `true`, `false`, `inf`, `nan`. Arrays and inline tables nest at most
`nestingLimit - 1` deep.

`parse` gives the top-level table of a document, or where and why it does not read; tables
marked as date-times are read as them (`Value.settle`).
-/

namespace CoordStore.Config.Toml

open Reader

/-- Runs a reader at a place where a string could have stood, giving its failures the notes of
a string. -/
def likeString {α : Type} (r : Reader α) : Reader α :=
  expecting ["`\"`", "`'`"] (labelled "string" r)

/-- Reads a date-time, a float or an integer, tried in that order. -/
def numeric : Reader Value :=
  orElse (Value.datetime <$> dateTime) (orElse (Value.float <$> float) (Value.int <$> integer))

/-- Reads a value that is not an array or an inline table. -/
def scalar : Reader Value :=
  fun c => match c.rest.head? with
    | none => miss c
    | some '"' | some '\'' => (Value.text <$> string) c
    | some '+' | some '-' => numeric c
    | some '_' => expecting ["leading digit"] (Value.int <$> integer) c
    | some '.' => expecting ["leading digit"] (Value.float <$> float) c
    | some 't' => likeString (do
        lookahead (token 't'); commit (literal ['t', 'r', 'u', 'e']); pure (.bool true)) c
    | some 'f' => likeString (do
        lookahead (token 'f'); commit (literal ['f', 'a', 'l', 's', 'e']); pure (.bool false)) c
    | some 'i' => likeString (do
        literal ['i', 'n', 'f']; pure (.float (.infinity false))) c
    | some 'n' => likeString (do literal ['n', 'a', 'n']; pure (.float .notANumber)) c
    | some ch => if ch.isDigit then numeric c else likeString miss c

/-- Reads an array after the reader of its items. -/
def array (item : Reader Value) : Reader Value := do
  token '['
  let items ← commit do
    let items ← optional do
      let vs ← sepBy1 (do wsCommentNewline; let v ← item; wsCommentNewline; pure v) (token ',')
      let _ ← optional (token ',')
      pure vs
    wsCommentNewline
    pure (items.getD [])
  expecting ["`]`"] (labelled "array" (commit (token ']')))
  pure (.array items)

/-- Reads a value with the stretch it is written in. -/
def spanned {α : Type} (r : Reader α) : Reader (α × Span) := do
  let start ← position
  let v ← r
  pure (v, ⟨start, ← position⟩)

/-- Reads a key, `=` and a value of an inline table; gives the dotted path, the last key, the
value and where it is written. -/
def inlinePair (item : Reader Value) : Reader (List Key × Key × Value × Span) := do
  let ks ← key
  commit do
    expecting ["`.`", "`=`"] (token '=')
    ws
    let (v, span) ← spanned item
    ws
    match ks.getLast? with
    | some k => pure (ks.dropLast, k, v, span)
    | none => miss

/-- Reads an inline table after the reader of its values. -/
def inlineTable (item : Reader Value) : Reader Value := do
  token '{'
  let v ← commit (checked (do let pairs ← sepBy (inlinePair item) (token ','); ws; pure pairs)
    inlineTableOf)
  expecting ["`\x7d`"] (labelled "inline table" (commit (token '}')))
  pure v

/-- Reads a value where arrays and inline tables may still nest `room` deep; one nested
deeper is refused at its bracket. -/
def value : Nat → Reader Value
  | 0 => fun c => match c.rest.head? with
    | some '[' | some '{' =>
      .error ⟨true, { pos := some c.pos, notes := [], cause := some .recursionLimit }⟩
    | _ => scalar c
  | room + 1 => fun c => match c.rest.head? with
    | some '[' => array (value room) c
    | some '{' => inlineTable (value room) c
    | _ => scalar c

/-- Reads a key/value line, up to its line ending; gives the dotted path, the last key, the
value and where it is written. -/
def keyvalLine : Reader (List Key × Key × Value × Span) := do
  let ks ← key
  commit do
    expecting ["`.`", "`=`"] (token '=')
    ws
    let (v, span) ← spanned (value (nestingLimit - 1))
    expecting ["newline", "`#`"] lineTrailing
    match ks.getLast? with
    | some k => pure (ks.dropLast, k, v, span)
    | none => miss

/-- Reads a table header and its line ending: whether it names an array of tables, its key,
and where the header is written, brackets included. -/
def header : Reader (Bool × List Key × Span) :=
  labelled "table header" fun c => match c.rest.take 2 with
    | ['[', '['] => (do
        literal ['[', '[']
        let ks ← commit key
        expecting ["`.`", "`]]`"] (commit (literal [']', ']']))
        let stop ← position
        expecting ["newline", "`#`"] (commit lineTrailing)
        pure (true, ks, Span.mk c.pos stop)) c
    | [_, _] => (do
        token '['
        let ks ← commit key
        expecting ["`.`", "`]`"] (commit (token ']'))
        let stop ← position
        expecting ["newline", "`#`"] (commit lineTrailing)
        pure (false, ks, Span.mk c.pos stop)) c
    | _ => miss c

/-- A committed failure at an offset for a cause, with the given notes. -/
def refusedAt (pos : Nat) (notes : List Note) (cause : Cause) : Failure :=
  ⟨true, { pos := some pos, notes, cause := some cause }⟩

/-- Reads the lines of a document, at most `fuel` of them, into the document being
assembled. Reading stops before a line break that does not read. -/
def linesFor : Nat → Doc → Reader Doc
  | 0, d => pure d
  | fuel + 1, d => fun c =>
    match c.rest.head? with
    | none => .ok (d, c)
    | some '#' => (do commit (do comment; lineEnding); ws; linesFor fuel d) c
    | some '[' =>
      match commit header c with
      | .error f => .error f
      | .ok ((isArray, ks, span), c1) =>
        match d.addHeader isArray ks span with
        | .error cause => .error (refusedAt c.pos [.label "table header"] cause)
        | .ok d => (do ws; linesFor fuel d) c1
    | some '\n' | some '\r' =>
      match newline c with
      | .error f => if f.committed then .error f else .ok (d, c)
      | .ok (_, c1) => (do ws; linesFor fuel d) c1
    | some _ =>
      match commit keyvalLine c with
      | .error f => .error f
      | .ok ((path, k, v, span), c1) =>
        match d.addKeyval path k v span with
        | .error cause => .error (refusedAt c.pos [] cause)
        | .ok d => (do ws; linesFor fuel d) c1

/-- Reads a whole document. Every line reads at least one character, so the lines are at
most one more than the characters. -/
def document : Reader Doc := do
  let _ ← optional (token '\uFEFF')
  ws
  let d ← fun c => linesFor (c.rest.length + 1) Doc.empty c
  eof
  pure d

/-- Reads a document into the value it stands for: its top-level table, with the tables
marked as date-times read as them (so a document whose first key is the mark is a
date-time). -/
def parse (src : String) : Except Error Value :=
  match document ⟨src.toList, 0⟩ with
  | .error f => .error f.error
  | .ok (d, _) =>
    match d.finish with
    | .ok es => (Value.table es).settle
    | .error cause => .error { pos := none, notes := [], cause := some cause }

end CoordStore.Config.Toml
