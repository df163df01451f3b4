import CoordStore.Float.Binary64
/-!
# Configuration numbers

Numbers as configuration text writes them: a signed decimal fraction held exactly as a
mantissa and a power of ten, or an infinity, or not-a-number. A setting holds the binary64
number nearest to what was written.
-/

namespace CoordStore.Config

/-- A number written in configuration text. -/
inductive Number where
  /-- `mantissa * 10 ^ exponent`, negated when `negative`. -/
  | finite (negative : Bool) (mantissa : Nat) (exponent : Int)
  | infinity (negative : Bool)
  | notANumber
  deriving DecidableEq, Repr

namespace Number

/-- The value of a list of decimal digit characters. -/
def digitValue (cs : List Char) : Nat :=
  cs.foldl (fun acc c => 10 * acc + (c.toNat - '0'.toNat)) 0

/-- Reads an optionally signed decimal integer without separators. -/
def readInteger (cs : List Char) : Option Int :=
  let (neg, body) := match cs with
    | '-' :: rest => (true, rest)
    | '+' :: rest => (false, rest)
    | _ => (false, cs)
  if body.isEmpty || !body.all Char.isDigit then none
  else some (if neg then -(digitValue body : Int) else digitValue body)

/-- Reads a decimal number in the usual float syntax: an optional sign, digits with an
optional point (at least one digit on some side), an optional exponent; or `inf`, `infinity`,
`nan` in any case. -/
def readFloat (cs : List Char) : Option Number :=
  let (neg, body) := match cs with
    | '-' :: rest => (true, rest)
    | '+' :: rest => (false, rest)
    | _ => (false, cs)
  let lower := String.ofList (body.map Char.toLower)
  if lower = "inf" || lower = "infinity" then some (.infinity neg)
  else if lower = "nan" then some .notANumber
  else
    let whole := body.takeWhile Char.isDigit
    let rest := body.dropWhile Char.isDigit
    let (frac, rest) := match rest with
      | '.' :: r => (r.takeWhile Char.isDigit, r.dropWhile Char.isDigit)
      | r => ([], r)
    if whole.isEmpty && frac.isEmpty then none
    else
      let expo : Option Int := match rest with
        | [] => some 0
        | c :: r => if c = 'e' || c = 'E' then readInteger r else none
      expo.map fun x => .finite neg (digitValue (whole ++ frac)) (x - frac.length)

/-- The binary64 number nearest to the written one. -/
def toBinary64 : Number → Binary64
  | finite negative m e => .ofDecimal negative m e
  | infinity negative => .infinity negative
  | notANumber => .nan

end Number

end CoordStore.Config
