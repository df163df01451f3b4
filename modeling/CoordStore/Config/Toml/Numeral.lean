import CoordStore.Config.Toml.Reader
import CoordStore.Config.Number
/-!
# Integers and floats of TOML

Integers are decimal, with an optional sign and no leading zero, or hexadecimal (`0x`), octal
(`0o`) or binary (`0b`) without a sign. Single underscores may stand between digits. An integer
must fit in a signed 64-bit integer.

A float is a decimal integer part followed by a fraction, an exponent, or both, or one of
`inf` and `nan` with an optional sign. A float too large for binary64 is refused unless it is
negative, when it reads as negative infinity.

Once an underscore or the point of a fraction is read, a digit must follow; once `e` is read,
an exponent must follow.
-/

namespace CoordStore.Config.Toml

open Reader

/-- Reads digits of a kind with single underscores between them, after a first digit. -/
def digitRun (isDigit : Char → Bool) : Reader Unit :=
  (fun _ => ()) <$> many (orElse ((fun _ => ()) <$> satisfy isDigit) do
    token '_'
    let _ ← expecting ["digit"] (commit (satisfy isDigit))
    pure ())

/-- Reads an optional sign. -/
def sign : Reader (Option Char) :=
  optional (satisfy fun c => c = '+' || c = '-')

/-- Reads a decimal integer and returns its text: an optional sign, then `0` or digits that do
not start with `0`. -/
def decimalText : Reader (List Char) :=
  labelled "integer" <| (·.2) <$> recognize do
    let _ ← sign
    orElse (do let _ ← satisfy (fun c => '1' ≤ c && c ≤ '9'); digitRun Char.isDigit)
      ((fun _ => ()) <$> satisfy Char.isDigit)

/-- Reads digits that may start with zero. -/
def leadingZeroDigits : Reader Unit := do
  let _ ← satisfy Char.isDigit
  digitRun Char.isDigit

/-- Reads the fraction of a float: a point and digits. -/
def fraction : Reader Unit := do
  token '.'
  expecting ["digit"] (commit leadingZeroDigits)

/-- Reads the exponent of a float: `e` or `E`, an optional sign, and digits. -/
def exponent : Reader Unit := do
  let _ ← satisfy fun c => c = 'e' || c = 'E'
  let _ ← sign
  commit leadingZeroDigits

/-- Reads the text of a float with digits: an integer part, then an exponent, or a fraction
and an optional exponent. -/
def floatText : Reader (List Char) :=
  (·.2) <$> recognize do
    let _ ← decimalText
    orElse exponent (do fraction; let _ ← optional exponent)

/-- The number a float text stands for, refused when it is too large for binary64. -/
def floatValue (cs : List Char) : Except Failure Number :=
  let refused : Failure := ⟨true, { pos := none, notes := [], cause := none }⟩
  match Number.readFloat (cs.filter (· ≠ '_')) with
  | some n => if n.toBinary64 = .infinity false then .error refused else .ok n
  | none => .error refused

/-- Reads `inf` or `nan` with an optional sign. -/
def specialFloat : Reader Number := do
  let s ← sign
  orElse (do literal ['i', 'n', 'f']; pure (.infinity (s = some '-')))
    (do literal ['n', 'a', 'n']; pure .notANumber)

/-- Reads a float. -/
def float : Reader Number :=
  labelled "floating-point number" (orElse (andThen floatText floatValue) specialFloat)

/-- The largest signed 64-bit integer. -/
def maxInt : Int := (Nat.pow 2 63 : Int) - 1

/-- The value of digits in a base, underscores skipped. -/
def radixValue (base : Nat) (cs : List Char) : Nat :=
  (cs.filter (· ≠ '_')).foldl (fun acc c => base * acc + hexDigit c) 0
where
  /-- The value of a digit of any base up to sixteen. -/
  hexDigit (c : Char) : Nat :=
    if c.isDigit then c.toNat - '0'.toNat
    else if 'a' ≤ c && c ≤ 'f' then c.toNat - 'a'.toNat + 10
    else c.toNat - 'A'.toNat + 10

/-- Reads an integer of a base after its prefix `0` and `letter`; `name` names the kind in
reports. -/
def radixInteger (letter : Char) (name : String) (base : Nat) (isDigit : Char → Bool) :
    Reader Int :=
  commit <| checked
    (labelled name do
      literal ['0', letter]
      let (_, ds) ← recognize (commit do let _ ← satisfy isDigit; digitRun isDigit)
      pure ds)
    fun ds =>
      let v := radixValue base ds
      if (v : Int) > maxInt then .error .tooLarge else .ok v

/-- The value of a decimal integer text, refused outside the signed 64-bit range. -/
def decimalValue (cs : List Char) : Except Failure Int :=
  let refuse (c : Cause) : Failure := ⟨true, { pos := none, notes := [], cause := some c }⟩
  let (neg, ds) := match cs with
    | '-' :: r => (true, r)
    | '+' :: r => (false, r)
    | r => (false, r)
  let v : Int := radixValue 10 ds
  if neg then (if -v < -maxInt - 1 then .error (refuse .tooSmall) else .ok (-v))
  else if v > maxInt then .error (refuse .tooLarge) else .ok v

/-- Reads an integer, its base chosen by its first two characters. -/
def integer : Reader Int :=
  fun c => match c.rest.take 2 with
    | ['0', 'x'] => radixInteger 'x' "hexadecimal integer" 16 isHexDigitChar c
    | ['0', 'o'] => radixInteger 'o' "octal integer" 8 (fun d => '0' ≤ d && d ≤ '7') c
    | ['0', 'b'] => radixInteger 'b' "binary integer" 2 (fun d => d = '0' || d = '1') c
    | _ => andThen decimalText decimalValue c
where
  /-- Whether a character is a hexadecimal digit. -/
  isHexDigitChar (d : Char) : Bool :=
    d.isDigit || ('a' ≤ d && d ≤ 'f') || ('A' ≤ d && d ≤ 'F')

end CoordStore.Config.Toml
