import CoordStore.Config.Toml.Error
/-!
# Step readers over TOML text

A reader consumes a prefix of the text and returns what it read with the rest, or fails at a
place. A failure is either open, when an enclosing choice may still try another way, or
committed, when the text has shown which construct it is and no other way can fit.

The combinators fix how places and notes travel:
* a sequence fails where its failing step fails;
* a choice tries its ways from the same place, and fails as its last way fails;
* `optional`, `many` and the separated lists stop at the start of an item that fails open;
* `checked` and `verified` fail at the place where the reader they check started;
* `noted` adds a note to any failure that leaves it.
-/

namespace CoordStore.Config.Toml

/-- Where a reader is: the text not yet read, and its character offset. -/
structure Cursor where
  rest : List Char
  pos : Nat
  deriving Repr

/-- A failure of a reader: its error, and whether it is committed. -/
structure Failure where
  committed : Bool
  error : Error
  deriving Repr

/-- A reader of TOML text. -/
abbrev Reader := StateT Cursor (Except Failure)

namespace Reader

/-- A failure at an offset, committed or not, with no notes and an optional cause. -/
def failAt {α : Type} (committed : Bool) (pos : Nat) (cause : Option Cause) : Reader α :=
  fun _ => .error ⟨committed, { pos := some pos, notes := [], cause }⟩

/-- An open failure here. -/
def miss {α : Type} : Reader α :=
  fun c => .error ⟨false, { pos := some c.pos, notes := [], cause := none }⟩

/-- The next character, if any, without reading it. -/
def peek? : Reader (Option Char) :=
  fun c => .ok (c.rest.head?, c)

/-- The current offset. -/
def position : Reader Nat :=
  fun c => .ok (c.pos, c)

/-- Reads the next `k` characters, as many as there are. -/
def advance (k : Nat) : Reader (List Char) :=
  fun c =>
    let taken := c.rest.take k
    .ok (taken, ⟨c.rest.drop k, c.pos + taken.length⟩)

/-- Reads one character that satisfies `p`. -/
def satisfy (p : Char → Bool) : Reader Char :=
  fun c => match c.rest with
    | ch :: r => if p ch then .ok (ch, ⟨r, c.pos + 1⟩) else miss c
    | [] => miss c

/-- Reads the character `ch`. -/
def token (ch : Char) : Reader Unit :=
  (fun _ => ()) <$> satisfy (· = ch)

/-- Reads the characters `s` in order. -/
def literal (s : List Char) : Reader Unit :=
  fun c => if s.isPrefixOf c.rest then .ok ((), ⟨c.rest.drop s.length, c.pos + s.length⟩)
    else miss c

/-- Reads the characters that satisfy `p`, none or more. -/
def takeWhile (p : Char → Bool) : Reader (List Char) :=
  fun c =>
    let taken := c.rest.takeWhile p
    .ok (taken, ⟨c.rest.drop taken.length, c.pos + taken.length⟩)

/-- Reads from `lo` up to `hi` characters that satisfy `p`; fails if fewer than `lo` do. -/
def takeBetween (lo hi : Nat) (p : Char → Bool) : Reader (List Char) :=
  fun c =>
    let taken := (c.rest.takeWhile p).take hi
    if taken.length < lo then miss c
    else .ok (taken, ⟨c.rest.drop taken.length, c.pos + taken.length⟩)

/-- Reads one or more characters that satisfy `p`. -/
def takeWhile1 (p : Char → Bool) : Reader (List Char) :=
  fun c =>
    let taken := c.rest.takeWhile p
    if taken.isEmpty then miss c
    else .ok (taken, ⟨c.rest.drop taken.length, c.pos + taken.length⟩)

/-- Succeeds at the end of the text only. -/
def eof : Reader Unit :=
  fun c => if c.rest.isEmpty then .ok ((), c) else miss c

/-- Runs a reader; an open failure gives none and reads nothing. -/
def optional {α : Type} (r : Reader α) : Reader (Option α) :=
  fun c => match r c with
    | .ok (a, c') => .ok (some a, c')
    | .error f => if f.committed then .error f else .ok (none, c)

/-- Runs `r`, and `s` from the same place when `r` fails open. -/
def orElse {α : Type} (r s : Reader α) : Reader α :=
  fun c => match r c with
    | .error f => if f.committed then .error f else s c
    | ok => ok

/-- Runs a reader, committing its failures. -/
def commit {α : Type} (r : Reader α) : Reader α :=
  fun c => match r c with
    | .error f => .error { f with committed := true }
    | ok => ok

/-- Runs a reader, adding a note to its failures. -/
def noted {α : Type} (n : Note) (r : Reader α) : Reader α :=
  fun c => match r c with
    | .error f => .error { f with error := { f.error with notes := f.error.notes ++ [n] } }
    | ok => ok

/-- Runs a reader, adding the name of the construct it reads to its failures. -/
def labelled {α : Type} (name : String) (r : Reader α) : Reader α :=
  noted (.label name) r

/-- Runs a reader, adding the tokens that would have fitted to its failures, in order. -/
def expecting {α : Type} (tokens : List String) (r : Reader α) : Reader α :=
  tokens.foldl (fun r t => noted (.expected t) r) r

/-- Runs a reader and converts what it read; a refused conversion fails open, with its cause,
where the reader started. -/
def checked {α β : Type} (r : Reader α) (f : α → Except Cause β) : Reader β :=
  fun c => match r c with
    | .ok (a, c') => match f a with
      | .ok b => .ok (b, c')
      | .error cause => .error ⟨false, { pos := some c.pos, notes := [], cause := some cause }⟩
    | .error f => .error f

/-- Runs a reader and keeps what it read if `p` holds; otherwise fails open where the reader
started. -/
def verified {α : Type} (r : Reader α) (p : α → Bool) : Reader α :=
  fun c => match r c with
    | .ok (a, c') => if p a then .ok (a, c') else miss c
    | .error f => .error f

/-- Runs a reader and then `r2` on what it read, failing where the first started when the
second fails. -/
def andThen {α β : Type} (r : Reader α) (r2 : α → Except Failure β) : Reader β :=
  fun c => match r c with
    | .ok (a, c') => match r2 a with
      | .ok b => .ok (b, c')
      | .error f => .error { f with error := { f.error with pos := some c.pos } }
    | .error f => .error f

/-- Runs a reader and goes back to where it started. -/
def lookahead {α : Type} (r : Reader α) : Reader α :=
  fun c => match r c with
    | .ok (a, _) => .ok (a, c)
    | .error f => .error f

/-- Runs a reader and also returns the characters it read. -/
def recognize {α : Type} (r : Reader α) : Reader (α × List Char) :=
  fun c => match r c with
    | .ok (a, c') => .ok ((a, c.rest.take (c'.pos - c.pos)), c')
    | .error f => .error f

/-- Repeats a reader while it reads something, at most `fuel` times. -/
def manyFor {α : Type} (r : Reader α) : Nat → List α → Reader (List α)
  | 0, acc => pure acc.reverse
  | fuel + 1, acc => fun c => match r c with
    | .ok (a, c') =>
      if c'.pos = c.pos then .ok ((a :: acc).reverse, c') else manyFor r fuel (a :: acc) c'
    | .error f => if f.committed then .error f else .ok (acc.reverse, c)

/-- Repeats a reader until it fails open, and returns what it read. Every round must read a
character, so the rounds are at most one more than the characters left. -/
def many {α : Type} (r : Reader α) : Reader (List α) :=
  fun c => manyFor r (c.rest.length + 1) [] c

/-- Repeats a reader one or more times. -/
def many1 {α : Type} (r : Reader α) : Reader (List α) := do
  let a ← r
  let rest ← many r
  pure (a :: rest)

/-- Reads further items, each after a separator, at most `fuel` of them; stops before a
separator when it or the item after it fails open. -/
def sepRest {α : Type} (r : Reader α) (sep : Reader Unit) : Nat → List α → Reader (List α)
  | 0, acc => pure acc.reverse
  | fuel + 1, acc => fun c => match sep c with
    | .error f => if f.committed then .error f else .ok (acc.reverse, c)
    | .ok (_, c1) => match r c1 with
      | .error f => if f.committed then .error f else .ok (acc.reverse, c)
      | .ok (a, c2) => sepRest r sep fuel (a :: acc) c2

/-- Reads one or more items with separators between them. -/
def sepBy1 {α : Type} (r : Reader α) (sep : Reader Unit) : Reader (List α) := do
  let a ← r
  fun c => sepRest r sep (c.rest.length + 1) [a] c

/-- Reads none or more items with separators between them. -/
def sepBy {α : Type} (r : Reader α) (sep : Reader Unit) : Reader (List α) :=
  (fun o => o.getD []) <$> optional (sepBy1 r sep)

end Reader

end CoordStore.Config.Toml
