/-!
# Entity ids

An entity is named below its manager's root by its id written in decimal (or as the text
itself, for text ids). Ids of a numeric kind are read back the way decimal integers are read:
an optional sign (`+`, or `-` for signed kinds), then at least one ASCII digit, within the kind's
range; leading zeros are allowed, so `007` and `+7` both read as `7`. Text ids read as
themselves.
-/

namespace CoordStore

/-- The kinds of id a manager can use. -/
inductive IdKind where
  | u64
  | i64
  | u8
  | text
  deriving DecidableEq, Repr

/-- An entity id: a number of an integer kind, or a text. -/
inductive EntityId where
  | nat (n : Nat)
  | int (i : Int)
  | text (s : String)
  deriving DecidableEq, Repr

namespace EntityId

/-- The id as written in a node name. -/
def display : EntityId → String
  | nat n => toString n
  | int i => toString i
  | text s => s

/-- Ids in order: numbers by value, texts by characters; ids of different shapes (which one
manager never mixes) by shape. -/
def compare : EntityId → EntityId → Ordering
  | nat a, nat b => Ord.compare a b
  | int a, int b => Ord.compare a b
  | text a, text b => Ord.compare a b
  | nat _, _ => .lt
  | _, nat _ => .gt
  | int _, _ => .lt
  | _, int _ => .gt

/-- Whether the first id comes no later than the second. -/
def le (a b : EntityId) : Bool :=
  a.compare b != .gt

end EntityId

/-- The value of a non-empty list of ASCII digits, or nothing if another character is there. -/
def digitsValue (cs : List Char) : Option Nat :=
  if cs.isEmpty || !cs.all Char.isDigit then none
  else some (cs.foldl (fun acc c => 10 * acc + (c.toNat - '0'.toNat)) 0)

namespace IdKind

/-- Reads an unsigned decimal up to a bound, with an optional plus sign. -/
def readUnsigned (bound : Nat) (cs : List Char) : Option Nat :=
  let body := match cs with
    | '+' :: rest => rest
    | _ => cs
  (digitsValue body).bind fun n => if n ≤ bound then some n else none

/-- Reads a signed 64-bit decimal, with an optional sign. -/
def readSigned (cs : List Char) : Option Int :=
  match cs with
  | '-' :: rest => (digitsValue rest).bind fun n =>
      if n ≤ Nat.pow 2 63 then some (-(n : Int)) else none
  | '+' :: rest =>
    (digitsValue rest).bind fun n => if n < Nat.pow 2 63 then some (n : Int) else none
  | _ => (digitsValue cs).bind fun n => if n < Nat.pow 2 63 then some (n : Int) else none

/-- Reads an id of the kind from a name, or nothing if the name is not one. -/
def parse (k : IdKind) (s : String) : Option EntityId :=
  match k with
  | u64 => EntityId.nat <$> readUnsigned (Nat.pow 2 64 - 1) s.toList
  | u8 => EntityId.nat <$> readUnsigned 255 s.toList
  | i64 => EntityId.int <$> readSigned s.toList
  | text => some (.text s)

end IdKind

end CoordStore
