import CoordStore.Codec.Utf8
/-!
# The binary entity format

Entities are stored as bytes in a fixed-width little-endian format: an unsigned 64-bit
integer is eight bytes, lowest first; a boolean is one byte, `0` or `1`; an optional value is a
tag byte `0` (absent) or `1` (present) followed by the value; a text and a sequence are their
length as a 64-bit integer followed by the UTF-8 bytes or the elements. Reading takes what it
needs from the front and leaves the rest, so bytes after a value are ignored.
-/

namespace CoordStore.Codec

/-- Why bytes do not read as a value. -/
inductive CodecError where
  /-- The input ended inside a number, a boolean or a tag. -/
  | endOfInput
  /-- A text's length runs past the end of the input. -/
  | shortInput
  /-- A text's bytes are not UTF-8. -/
  | badUtf8 (e : Utf8Error)
  /-- A boolean byte other than `0` or `1`. -/
  | badBool (b : UInt8)
  /-- An option tag other than `0` or `1`. -/
  | badTag (b : UInt8)
  deriving DecidableEq, Repr

/-- The sentence that reports the error. -/
def CodecError.message : CodecError → String
  | .endOfInput => "io error: unexpected end of file"
  | .shortInput => "io error: "
  | .badUtf8 e => "string is not valid utf8: " ++ e.message
  | .badBool b => "invalid u8 while decoding bool, expected 0 or 1, found " ++ toString b
  | .badTag b => "tag for enum is not valid, found " ++ toString b

/-- A reader takes a value from the front of the bytes and leaves the rest. -/
abbrev Reader := StateT (List UInt8) (Except CodecError)

namespace Reader

/-- Fails with a reading error. -/
def fail {α : Type} (e : CodecError) : Reader α :=
  fun _ => .error e

/-- One byte. -/
def byte : Reader UInt8 := fun
  | b :: rest => .ok (b, rest)
  | [] => .error .endOfInput

/-- The number of eight bytes, lowest first. -/
def littleEndian (bs : List UInt8) : Nat :=
  bs.foldr (fun b acc => b.toNat + 256 * acc) 0

/-- An unsigned 64-bit integer. -/
def u64 : Reader Nat := fun bs =>
  if 8 ≤ bs.length then .ok (littleEndian (bs.take 8), bs.drop 8) else .error .endOfInput

/-- A boolean. -/
def bool : Reader Bool := do
  match ← byte with
  | 0 => pure false
  | 1 => pure true
  | b => fail (.badBool b)

/-- A text: its byte length, then its UTF-8 bytes. -/
def text : Reader String := do
  let n ← u64
  let bs ← get
  if bs.length < n then fail .shortInput
  else
    set (bs.drop n)
    match decode (bs.take n) with
    | .ok s => pure s
    | .error e => fail (.badUtf8 e)

/-- An optional value: a tag, then the value when the tag is `1`. -/
def option {α : Type} (r : Reader α) : Reader (Option α) := do
  match ← byte with
  | 0 => pure none
  | 1 => some <$> r
  | b => fail (.badTag b)

/-- A given number of values, one after the other. -/
def times {α : Type} (r : Reader α) : Nat → Reader (List α)
  | 0 => pure []
  | n + 1 => do
    let x ← r
    let xs ← times r n
    pure (x :: xs)

/-- A sequence: its length, then its elements. -/
def seq {α : Type} (r : Reader α) : Reader (List α) := do
  let n ← u64
  times r n

end Reader

namespace Writer

/-- The eight bytes of a number below `2 ^ 64`, lowest first. -/
def u64 (n : Nat) : List UInt8 :=
  (List.range 8).map fun i => UInt8.ofNat (n / Nat.pow 256 i % 256)

/-- A boolean as one byte. -/
def bool (b : Bool) : List UInt8 :=
  [if b then 1 else 0]

/-- A text: its byte length, then its UTF-8 bytes. -/
def text (s : String) : List UInt8 :=
  let bs := encode s
  u64 bs.length ++ bs

/-- An optional value: a tag, then the value if present. -/
def option {α : Type} (w : α → List UInt8) : Option α → List UInt8
  | none => [0]
  | some a => 1 :: w a

/-- A sequence: its length, then its elements. -/
def seq {α : Type} (w : α → List UInt8) (xs : List α) : List UInt8 :=
  u64 xs.length ++ xs.flatMap w

end Writer

end CoordStore.Codec
