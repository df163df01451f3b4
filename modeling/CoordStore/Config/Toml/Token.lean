import CoordStore.Config.Toml.Reader
/-!
# Blanks, comments, line endings, strings and keys of TOML

The small pieces of a TOML document, each read by a step reader.

Strings come in four kinds: basic (`"…"`, with escapes), literal (`'…'`), and the multi-line
forms of both (three quotes), where a newline right after the opening quotes is dropped and,
in the basic form, a backslash at the end of a line removes the line break and the blanks
after it. A key is a dotted list of bare or quoted keys.
-/

namespace CoordStore.Config.Toml

open Reader

/-- Whether a character is a blank: a space or a tab. -/
def isBlank (c : Char) : Bool :=
  c = ' ' || c = '\t'

/-- Whether a character is a code point beyond ASCII. -/
def isNonAscii (c : Char) : Bool :=
  c.toNat ≥ 0x80

/-- Whether a character may stand in a comment: a tab, a visible ASCII character or a blank,
or a character beyond ASCII. -/
def isCommentChar (c : Char) : Bool :=
  c = '\t' || (0x20 ≤ c.toNat && c.toNat ≤ 0x7E) || isNonAscii c

/-- Skips blanks. -/
def ws : Reader Unit :=
  (fun _ => ()) <$> takeWhile isBlank

/-- Reads a comment: `#` and the comment characters after it. -/
def comment : Reader Unit := do
  token '#'
  let _ ← takeWhile isCommentChar

/-- Reads a line break: a line feed, or a carriage return and a line feed. -/
def newline : Reader Unit :=
  orElse (token '\n') (do token '\r'; token '\n')

/-- Reads a line break, or succeeds at the end of the text. -/
def lineEnding : Reader Unit :=
  orElse newline eof

/-- Reads what may end a line after its content: blanks, a comment, and a line ending. -/
def lineTrailing : Reader Unit := do
  ws
  let _ ← optional comment
  lineEnding

/-- Skips blanks and line breaks. -/
def wsNewline : Reader Unit :=
  (fun _ => ()) <$> many (orElse newline ((fun _ => ()) <$> takeWhile1 isBlank))

/-- Reads a line break, then skips blanks and line breaks. -/
def wsNewlines : Reader Unit := do
  newline
  wsNewline

/-- Skips blanks, then a comment with its line break or a line break, at most `fuel` times;
stops at anything else. A comment must end in a line break. -/
def wsCommentNewlineFor : Nat → Reader Unit
  | 0 => pure ()
  | fuel + 1 => fun c =>
    let round : Reader Bool := do
      ws
      match ← peek? with
      | some '#' => do comment; newline; pure true
      | some '\n' | some '\r' => do newline; pure true
      | _ => pure false
    match round c with
    | .ok (true, c') => if c'.pos = c.pos then .ok ((), c') else wsCommentNewlineFor fuel c'
    | .ok (false, c') => .ok ((), c')
    | .error f => .error f

/-- Skips blanks, comments and line breaks, as between the items of an array. -/
def wsCommentNewline : Reader Unit :=
  fun c => wsCommentNewlineFor (c.rest.length + 1) c

/-- Whether a character is a hexadecimal digit. -/
def isHexDigit (c : Char) : Bool :=
  c.isDigit || ('a' ≤ c && c ≤ 'f') || ('A' ≤ c && c ≤ 'F')

/-- The value of a hexadecimal digit. -/
def hexDigitValue (c : Char) : Nat :=
  if c.isDigit then c.toNat - '0'.toNat
  else if 'a' ≤ c && c ≤ 'f' then c.toNat - 'a'.toNat + 10
  else c.toNat - 'A'.toNat + 10

/-- Reads exactly `k` hexadecimal digits naming a Unicode scalar value; a value that is a
surrogate or beyond `10FFFF` is out of range. -/
def hexEscape (k : Nat) : Reader Char :=
  fun c =>
    let ds := (c.rest.takeWhile isHexDigit).take k
    if ds.length ≠ k then miss c
    else
      let v := ds.foldl (fun a d => 16 * a + hexDigitValue d) 0
      if v < 0xD800 || (0xDFFF < v && v ≤ 0x10FFFF) then
        .ok (Char.ofNat v, ⟨c.rest.drop k, c.pos + k⟩)
      else .error ⟨false, { pos := some c.pos, notes := [], cause := some .outOfRange }⟩

/-- The tokens an escape may continue with. -/
def escapeTokens : List String :=
  ["`b`", "`f`", "`n`", "`r`", "`t`", "`u`", "`U`", "`\\`", "`\"`"]

/-- Reads what follows the backslash of an escape. An unknown escape is a committed failure
just after its character, or at it when the character takes more than one byte. -/
def escapeTail : Reader Char :=
  fun c => match c.rest with
    | [] => miss c
    | ch :: r =>
      let after : Cursor := ⟨r, c.pos + 1⟩
      match ch with
      | 'b' => .ok ('\x08', after)
      | 'f' => .ok ('\x0c', after)
      | 'n' => .ok ('\n', after)
      | 'r' => .ok ('\r', after)
      | 't' => .ok ('\t', after)
      | '\\' => .ok ('\\', after)
      | '"' => .ok ('"', after)
      | 'u' => labelled "unicode 4-digit hex code" (commit (hexEscape 4)) after
      | 'U' => labelled "unicode 8-digit hex code" (commit (hexEscape 8)) after
      | _ =>
        let pos := if ch.utf8Size > 1 then c.pos else c.pos + 1
        .error ⟨true,
          { pos := some pos, notes := .label "escape sequence" :: escapeTokens.map .expected,
            cause := none }⟩

/-- Reads an escape: a backslash and what follows it. -/
def escaped : Reader Char := do
  token '\\'
  escapeTail

/-- Whether a character stands for itself in a basic string. -/
def isBasicChar (c : Char) : Bool :=
  isBlank c || c = '!' || (0x23 ≤ c.toNat && c.toNat ≤ 0x5B) ||
    (0x5D ≤ c.toNat && c.toNat ≤ 0x7E) || isNonAscii c

/-- Reads a run of plain characters or one escape of a basic string. -/
def basicChunk : Reader (List Char) :=
  orElse (takeWhile1 isBasicChar) ((fun ch => [ch]) <$> escaped)

/-- Reads a basic string, quotes included. -/
def basicString : Reader String := do
  token '"'
  let chunks ← many basicChunk
  labelled "basic string" (commit (token '"'))
  pure (String.ofList chunks.flatten)

/-- Whether a character may stand in a literal string. -/
def isLiteralChar (c : Char) : Bool :=
  c = '\t' || (0x20 ≤ c.toNat && c.toNat ≤ 0x26) || (0x28 ≤ c.toNat && c.toNat ≤ 0x7E) ||
    isNonAscii c

/-- Reads a literal string, quotes included. -/
def literalString : Reader String :=
  labelled "literal string" do
    token '\''
    let cs ← commit (takeWhile isLiteralChar)
    commit (token '\'')
    pure (String.ofList cs)

/-- Reads one or two quote characters `q` that are followed by what `term` reads, preferring
two. -/
def closingQuotes (q : Char) (term : Reader Unit) : Reader (List Char) :=
  orElse (do literal [q, q]; lookahead term; pure [q, q]) (do token q; lookahead term; pure [q])

/-- Reads a character other than `q`. -/
def notQuote (q : Char) : Reader Unit :=
  (fun _ => ()) <$> satisfy (· ≠ q)

/-- Reads a backslash at the end of a line: the blanks after it, line breaks, and the blanks
and line breaks after those, any number of times. -/
def foldedBreak : Reader Unit :=
  (fun _ => ()) <$> many1 (do token '\\'; ws; wsNewlines)

/-- Reads a piece of a multi-line basic string: plain characters, a folded line break (which
reads as nothing), an escape, or a line break. -/
def mlBasicChunk : Reader (List Char) :=
  orElse (takeWhile1 isBasicChar) <|
    orElse ((fun _ => []) <$> foldedBreak) <|
      orElse ((fun ch => [ch]) <$> escaped) ((fun _ => ['\n']) <$> newline)

/-- Reads the body of a multi-line basic string: pieces, with runs of one or two quotes
between them, and up to two quotes right before the closing three. -/
def mlBasicBodyFor : Nat → List Char → Reader (List Char)
  | 0, acc => pure acc
  | fuel + 1, acc => fun c =>
    match optional (closingQuotes '"' (notQuote '"')) c with
    | .error f => .error f
    | .ok (none, c1) => .ok (acc, c1)
    | .ok (some qs, c1) =>
      match optional mlBasicChunk c1 with
      | .error f => .error f
      | .ok (none, c2) => .ok (acc, c2)
      | .ok (some first, c2) =>
        match many mlBasicChunk c2 with
        | .error f => .error f
        | .ok (more, c3) => mlBasicBodyFor fuel (acc ++ qs ++ first ++ more.flatten) c3

/-- Reads the body of a multi-line basic string. -/
def mlBasicBody : Reader (List Char) := do
  let chunks ← many mlBasicChunk
  let body ← fun c => mlBasicBodyFor (c.rest.length + 1) chunks.flatten c
  let tail ← optional (closingQuotes '"' (literal ['"', '"', '"']))
  pure (body ++ tail.getD [])

/-- Reads a multi-line basic string, delimiters included. -/
def mlBasicString : Reader String :=
  labelled "multiline basic string" do
    literal ['"', '"', '"']
    let _ ← optional newline
    let body ← commit mlBasicBody
    commit (literal ['"', '"', '"'])
    pure (String.ofList body)

/-- Reads a character or a line break of a multi-line literal string. -/
def mlLiteralChunk : Reader Unit :=
  orElse ((fun _ => ()) <$> satisfy isLiteralChar) newline

/-- Line breaks as strings hold them: each carriage return and line feed becomes a line
feed. -/
def unifyBreaks : List Char → List Char
  | '\r' :: '\n' :: rest => '\n' :: unifyBreaks rest
  | c :: rest => c :: unifyBreaks rest
  | [] => []

/-- Reads the body of a multi-line literal string. -/
def mlLiteralBody : Reader (List Char) := do
  let (_, text) ← recognize do
    let _ ← many mlLiteralChunk
    let _ ← many (do
      let _ ← closingQuotes '\'' (notQuote '\'')
      many1 mlLiteralChunk)
    optional (closingQuotes '\'' (literal ['\'', '\'', '\'']))
  pure (unifyBreaks text)

/-- Reads a multi-line literal string, delimiters included. -/
def mlLiteralString : Reader String :=
  labelled "multiline literal string" do
    literal ['\'', '\'', '\'']
    let _ ← optional newline
    let body ← commit mlLiteralBody
    commit (literal ['\'', '\'', '\''])
    pure (String.ofList body)

/-- Reads a string of any of the four kinds. -/
def string : Reader String :=
  orElse mlBasicString (orElse basicString (orElse mlLiteralString literalString))

/-- A key as read: its name, quotes removed and escapes resolved, and where it is written. -/
structure Key where
  name : String
  span : Span
  deriving DecidableEq, Repr

/-- Whether a character may stand in a bare key: an ASCII letter or digit, `-` or `_`. -/
def isBareKeyChar (c : Char) : Bool :=
  c.isAlphanum || c = '-' || c = '_'

/-- Reads one key of a dotted key: a basic string, a literal string or a bare key. -/
def simpleKey : Reader Key :=
  fun c =>
    let body : Reader String := match c.rest.head? with
      | some '"' => basicString
      | some '\'' => literalString
      | _ => String.ofList <$> takeWhile1 isBareKeyChar
    match body c with
    | .ok (name, c') => .ok (⟨name, ⟨c.pos, c'.pos⟩⟩, c')
    | .error f => .error f

/-- Whether a key is written as a literal string: it holds a double quote or a backslash,
which a literal string spares escaping, and a literal string on one line can hold it (no
single quote, and no control character but tab, nor delete). -/
def prefersLiteral (cs : List Char) : Bool :=
  (cs.contains '"' || cs.contains '\\') && !cs.contains '\'' &&
    cs.all (fun c => c = '\t' || (c.toNat > 0x1F && c.toNat ≠ 0x7F))

/-- A character of a basic string as written: the short escapes, `\uXXXX` in upper-case hex for
the other control characters and delete, and every other character itself. -/
def basicEscape (c : Char) : String :=
  match c with
  | '\x08' => "\\b"
  | '\t' => "\\t"
  | '\n' => "\\n"
  | '\x0c' => "\\f"
  | '\r' => "\\r"
  | '"' => "\\\""
  | '\\' => "\\\\"
  | c =>
    if c.toNat ≤ 0x1F || c.toNat = 0x7F then
      let ds := (Nat.toDigits 16 c.toNat).map Char.toUpper
      "\\u" ++ String.ofList (List.replicate (4 - ds.length) '0' ++ ds)
    else c.toString

/-- A key's name as TOML writes it by default: bare when it can be, else as a literal string
when `prefersLiteral` says so, else as a basic string. -/
def keyText (name : String) : String :=
  let cs := name.toList
  if !cs.isEmpty && cs.all isBareKeyChar then name
  else if prefersLiteral cs then "'" ++ name ++ "'"
  else "\"" ++ String.join (cs.map basicEscape) ++ "\""

/-- How deep values and keys may nest. -/
def nestingLimit : Nat := 80

/-- Reads a dotted key: keys with dots between them and blanks around each. A key of as many
parts as the nesting limit or more is refused. -/
def key : Reader (List Key) :=
  checked (labelled "key" (sepBy1 (do ws; let k ← simpleKey; ws; pure k) (token '.')))
    fun ks => if ks.length ≥ nestingLimit then .error .recursionLimit else .ok ks

end CoordStore.Config.Toml
