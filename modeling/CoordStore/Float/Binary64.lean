/-!
# Binary64 numbers

Double-precision floating-point numbers, held exactly as a significand and a power of two.
A decimal becomes the nearest such number, ties going to the even significand; a number becomes an
integer by rounding halves away from zero and clamping to the target's range. A decimal can also
be read the quick way, its significand rounded and then scaled by a power of ten with rounding
at each step, which may miss the nearest number by a unit in the last place. No arithmetic of
the machine's own floats is involved, so every step can be read and reasoned about.
-/

namespace CoordStore

/-- A double-precision floating-point number. -/
inductive Binary64 where
  /-- The value `mantissa * 2 ^ exponent`, negated when `negative`. The pair is canonical: the
  exponent is at least `-1074`, and the mantissa lies in `[2 ^ 52, 2 ^ 53)` unless the exponent
  is `-1074`, where it is below `2 ^ 53`. Zero has mantissa `0` and keeps its sign. -/
  | finite (negative : Bool) (mantissa : Nat) (exponent : Int)
  | infinity (negative : Bool)
  | nan
  deriving DecidableEq, Repr

namespace Binary64

/-- The exponent of the smallest subnormal number. -/
def minExponent : Int := -1074

/-- The exponent of the largest finite numbers. -/
def maxExponent : Int := 971

/-- The number of binary digits of `n`; none for `0`. -/
def bitLength (n : Nat) : Nat :=
  if n = 0 then 0 else Nat.log2 n + 1

/-- The number of decimal digits of `n`; one for `0`. -/
def digitCount (n : Nat) : Nat :=
  (Nat.toDigits 10 n).length

/-- The fraction `num / den` divided by `2 ^ q`, again as a numerator and a denominator. -/
def scaled (num den : Nat) (q : Int) : Nat × Nat :=
  if 0 ≤ q then (num, den * Nat.pow 2 q.toNat) else (num * Nat.pow 2 (-q).toNat, den)

/-- The quotient `a / b` rounded to the nearest natural number, ties to the even one. -/
def divNearestEven (a b : Nat) : Nat :=
  let q := a / b
  let r := a % b
  if 2 * r > b || (2 * r = b && q % 2 = 1) then q + 1 else q

/-- The number nearest to the fraction `num / den`, with the given sign. The significand is
taken at the binary exponent that gives it 53 digits, or at the subnormal exponent; a carry
into a 54th digit moves up one exponent, and past the largest exponent lies infinity. -/
def ofFraction (negative : Bool) (num den : Nat) : Binary64 :=
  if num = 0 || den = 0 then .finite negative 0 minExponent
  else
    -- `2 ^ (b - 1) < num / den < 2 ^ (b + 1)`, so `⌊log₂ (num / den)⌋` is `b` or `b - 1`
    let b : Int := (bitLength num : Int) - bitLength den
    let (n, d) := scaled num den b
    let l := if n ≥ d then b else b - 1
    let q := max (l - 52) minExponent
    let (n, d) := scaled num den q
    let m := divNearestEven n d
    let (m, q) := if m = Nat.pow 2 53 then (Nat.pow 2 52, q + 1) else (m, q)
    if q > maxExponent then .infinity negative else .finite negative m q

/-- The number nearest to `mantissa * 10 ^ exponent`, with the given sign. Decimals of more
than 400 digits before the point are infinite, and those with 400 zeros after it are zero, so
no power of ten beyond the input's own size is formed. -/
def ofDecimal (negative : Bool) (mantissa : Nat) (exponent : Int) : Binary64 :=
  let size : Int := (digitCount mantissa : Int) + exponent
  if mantissa = 0 || size < -400 then .finite negative 0 minExponent
  else if size > 400 then .infinity negative
  else if 0 ≤ exponent then ofFraction negative (mantissa * Nat.pow 10 exponent.toNat) 1
  else ofFraction negative mantissa (Nat.pow 10 (-exponent).toNat)

/-- The exact magnitude of a finite number as a numerator and a denominator; `0 / 1` for the
others. -/
def magnitude : Binary64 → Nat × Nat
  | .finite _ m q => if 0 ≤ q then (m * Nat.pow 2 q.toNat, 1) else (m, Nat.pow 2 (-q).toNat)
  | _ => (0, 1)

/-- The number nearest to `a * b`, for non-negative finite `a` and `b`. -/
def mulNearest (a b : Binary64) : Binary64 :=
  let (an, ad) := a.magnitude
  let (bn, bd) := b.magnitude
  ofFraction false (an * bn) (ad * bd)

/-- The number nearest to `a / b`, for non-negative finite `a` and positive finite `b`. -/
def divNearest (a b : Binary64) : Binary64 :=
  let (an, ad) := a.magnitude
  let (bn, bd) := b.magnitude
  ofFraction false (an * bd) (ad * bn)

/-- The number nearest to `10 ^ k`. -/
def powerOfTen (k : Nat) : Binary64 :=
  ofFraction false (Nat.pow 10 k) 1

/-- `f * 10 ^ e` for a non-negative `f`, in rounded steps: a power of ten up to `10 ^ 308` is
taken as the number nearest to it and multiplies or divides `f` once; a smaller power first
divides `f` by `10 ^ 308`, as often as needed, stopping early at zero. None when the product
is infinite or the power is beyond `10 ^ 308`. At most `fuel` divisions are made. -/
def scaleByPowerOfTen : (fuel : Nat) → Binary64 → Int → Option Binary64
  | 0, f, _ => some f
  | fuel + 1, f, e =>
    if e.natAbs ≤ 308 then
      if 0 ≤ e then
        match mulNearest f (powerOfTen e.natAbs) with
        | .infinity _ => none
        | r => some r
      else some (divNearest f (powerOfTen e.natAbs))
    else if f.magnitude.1 = 0 then some f
    else if 0 ≤ e then none
    else scaleByPowerOfTen fuel (divNearest f (powerOfTen 308)) (e + 308)

/-- `significand * 10 ^ exponent` read the quick way: the significand rounded to a number, then
scaled by `scaleByPowerOfTen`. Every step rounds to nearest, so the result may lie a unit in
the last place from the number nearest to the decimal. None when it overflows. -/
def ofScaledDecimal (negative : Bool) (significand : Nat) (exponent : Int) : Option Binary64 :=
  (scaleByPowerOfTen (exponent.natAbs / 308 + 2) (ofFraction false significand 1) exponent).map
    fun
      | .finite _ m q => .finite negative m q
      | x => x

/-- The integer nearest to the number, halves away from zero, clamped into `[lo, hi]`.
Infinities go to the nearer end and NaN to zero. -/
def roundClamp (x : Binary64) (lo hi : Int) : Int :=
  match x with
  | .nan => 0
  | .infinity negative => if negative then lo else hi
  | .finite negative m q =>
    let r : Nat :=
      if 0 ≤ q then m * Nat.pow 2 q.toNat
      else (m + Nat.pow 2 ((-q).toNat - 1)) / Nat.pow 2 (-q).toNat
    max lo (min hi (if negative then -(r : Int) else r))

end Binary64

end CoordStore
