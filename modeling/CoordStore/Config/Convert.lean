import CoordStore.Config.Value
import CoordStore.Config.Error
import CoordStore.Config.Number
import CoordStore.Float.Shortest
/-!
# Reading settings from values

A setting takes the value at its key leniently:
- An integer setting takes integers, booleans as `0` and `1`, and floats rounded half away from
  zero (clamped to the range).
- It also takes strings that spell an integer, or one of `true`, `on`, `yes`, `false`, `off`,
  `no` in any case.
- An unsigned setting refuses negative integers.
- A string setting takes booleans and numbers as their text, floats in their shortest positional
  form.
- Nil, tables and arrays convert to neither.

A refusal names the value found, the key and the value's source.
-/

namespace CoordStore.Config

namespace Value

/-- How a refused setting names the value it found. -/
def found : Value → String
  | .nil _ => "unit value"
  | .bool _ b => "boolean `" ++ toString b ++ "`"
  | .int _ i => "64-bit integer `" ++ toString i ++ "`"
  | .float _ x => "floating point `" ++ x.positional ++ "`"
  | .text _ s => "string " ++ Text.quote s
  | .table .. => "map"
  | .array .. => "sequence"

/-- How a refused section names the value it found. -/
def foundBySection : Value → String
  | .nil _ => "unit value"
  | .bool _ b => "boolean `" ++ toString b ++ "`"
  | .int _ i => "integer `" ++ toString i ++ "`"
  | .float _ x => "floating point `" ++ x.positionalWithPoint ++ "`"
  | .text _ s => "string " ++ Text.quote s
  | .table .. => "map"
  | .array .. => "sequence"

/-- A text in ASCII lower case. -/
def asciiLower (s : String) : String :=
  String.ofList (s.toList.map Char.toLower)

/-- The number a word of truth stands for: `1` for `true`, `on`, `yes`, `0` for `false`,
`off`, `no`, in any case. -/
def truthNumber? (s : String) : Option Nat :=
  let l := asciiLower s
  if l = "true" || l = "on" || l = "yes" then some 1
  else if l = "false" || l = "off" || l = "no" then some 0
  else none

/-- The smallest signed 64-bit integer. -/
def minInt : Int := -(Nat.pow 2 63 : Int)

/-- The largest signed 64-bit integer. -/
def maxInt : Int := (Nat.pow 2 63 : Int) - 1

/-- The largest unsigned 64-bit integer. -/
def maxNat : Nat := Nat.pow 2 64 - 1

/-- Reads a signed 64-bit integer: an optional sign and decimal digits. -/
def readInt? (s : String) : Option Int :=
  (Number.readInteger s.toList).filter fun i => minInt ≤ i && i ≤ maxInt

/-- Reads an unsigned 64-bit integer: an optional plus sign and decimal digits. -/
def readNat? (s : String) : Option Nat :=
  let body := match s.toList with
    | '+' :: r => r
    | r => r
  if !body.isEmpty && body.all Char.isDigit && Number.digitValue body ≤ maxNat then
    some (Number.digitValue body)
  else none

/-- The value as a signed 64-bit integer, for the setting at `key`. -/
def toInt (key : String) (v : Value) : Except LoadError Int :=
  let refused := LoadError.wrongType v.found "an integer" (some key) v.origin
  match v with
  | .int _ i => .ok i
  | .bool _ b => .ok (if b then 1 else 0)
  | .float _ x => .ok (x.roundClamp minInt maxInt)
  | .text _ s =>
    match truthNumber? s with
    | some n => .ok n
    | none => match readInt? s with
      | some i => .ok i
      | none => .error refused
  | _ => .error refused

/-- The value as an unsigned 64-bit integer, for the setting at `key`. -/
def toNat (key : String) (v : Value) : Except LoadError Nat :=
  let refused := LoadError.wrongType v.found "an integer" (some key) v.origin
  match v with
  | .int _ i =>
    if 0 ≤ i then .ok i.toNat
    else .error (.wrongType v.found "an unsigned 64 bit or less integer" (some key) v.origin)
  | .bool _ b => .ok (if b then 1 else 0)
  | .float _ x => .ok (x.roundClamp 0 maxNat).toNat
  | .text _ s =>
    match truthNumber? s with
    | some n => .ok n
    | none => match readNat? s with
      | some n => .ok n
      | none => .error refused
  | _ => .error refused

/-- The value as text, for the setting at `key`. -/
def toText (key : String) (v : Value) : Except LoadError String :=
  match v with
  | .text _ s => .ok s
  | .bool _ b => .ok (toString b)
  | .int _ i => .ok (toString i)
  | .float _ x => .ok x.positional
  | _ => .error (.wrongType v.found "a string" (some key) v.origin)

end Value

end CoordStore.Config
