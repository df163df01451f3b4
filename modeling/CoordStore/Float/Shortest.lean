import CoordStore.Float.Binary64
/-!
# Shortest decimal text of binary64 numbers

A number is written with the fewest significant digits that read back as the same number,
and of those the nearest to it. A decimal reads back as `m * 2 ^ q` when it lies within half
a step of it on either side; the bounds count when `m` is even, since ties are read to even.
The step below is half as large at the bottom of a binade.

Of two decimals equally near, the positional layouts below take the larger and the compact
one takes the one whose last digit is even.

Three layouts of those digits are used: plain positional notation; positional notation with
`.0` added to whole numbers; and a compact one that keeps positional notation for values from
`1e-5` up to `1e16` and otherwise writes one digit before the point and a signed exponent.
-/

namespace CoordStore

namespace Binary64

/-- `⌊log₁₀ (m * 2 ^ q)⌋`, for a positive `m`. -/
def decimalExponent (m : Nat) (q : Int) : Int :=
  if 0 ≤ q then (digitCount (m * Nat.pow 2 q.toNat) : Int) - 1
  else
    let d := Nat.pow 2 (-q).toNat
    if m ≥ d then (digitCount (m / d) : Int) - 1
    else
      -- `m * 10 ^ t` has as many digits as `d`, so `d` is reached at `t` or `t + 1`
      let t := digitCount d - digitCount m
      if m * Nat.pow 10 t ≥ d then -(t : Int) else -((t + 1 : Nat) : Int)

/-- The decimal of `n` significant digits nearest to the positive canonical value
`m * 2 ^ q` that reads back as it, as a coefficient and a power of ten; none if neither of
the two nearest decimals of that many digits reads back. When both read back and lie equally
near, `tiesUp` takes the larger, else the one with the even last digit. -/
def candidate (tiesUp : Bool) (m : Nat) (q : Int) (n : Nat) : Option (Nat × Int) :=
  let k : Int := decimalExponent m q - n + 1
  -- in units of `10 ^ k`, the value is `a / b` and the step above it is `g / b`
  let g := Nat.pow 2 q.toNat * Nat.pow 10 (-k).toNat
  let a := m * g
  let b := Nat.pow 2 (-q).toNat * Nat.pow 10 k.toNat
  let lowerStep := if m = Nat.pow 2 52 && q > minExponent then g else 2 * g
  let inclusive : Bool := m % 2 = 0
  let below := a / b
  let above := below + 1
  -- scaled by `4 * b`, the value is `4 * a` and the interval reaches `2 * g` above it
  let lowOk : Bool :=
    if inclusive then 4 * b * below ≥ 4 * a - lowerStep else 4 * b * below > 4 * a - lowerStep
  let highOk : Bool :=
    if inclusive then 4 * b * above ≤ 4 * a + 2 * g else 4 * b * above < 4 * a + 2 * g
  match lowOk, highOk with
  | true, true =>
    let dBelow := a - b * below
    let dAbove := b * above - a
    if dBelow < dAbove || (dBelow = dAbove && !tiesUp && below % 2 = 0) then some (below, k)
    else some (above, k)
  | true, false => some (below, k)
  | false, true => some (above, k)
  | false, false => none

/-- A coefficient and a power of ten with the trailing zeros of the coefficient moved into the
power. -/
def stripZeros (c : Nat) (k : Int) : (fuel : Nat) → Nat × Int
  | 0 => (c, k)
  | fuel + 1 => if c ≠ 0 && c % 10 = 0 then stripZeros (c / 10) (k + 1) fuel else (c, k)

/-- The shortest decimal that reads back as the positive canonical value `m * 2 ^ q`, as a
coefficient without trailing zeros and a power of ten, ties as `candidate` takes them.
Seventeen digits always suffice. -/
def shortest (tiesUp : Bool) (m : Nat) (q : Int) : Nat × Int :=
  let found := (List.range 17).findSome? fun i => candidate tiesUp m q (i + 1)
  let (c, k) := found.getD (m * Nat.pow 2 q.toNat, 0)
  stripZeros c k (digitCount c)

/-- The significant digits and the decimal exponent of a finite number, `(digits, k)` with the
value `digits * 10 ^ k`, ties as `candidate` takes them; zero is `("0", 0)`. -/
def decimalDigits (tiesUp : Bool) (m : Nat) (q : Int) : List Char × Int :=
  if m = 0 then (['0'], 0)
  else
    let (c, k) := shortest tiesUp m q
    (Nat.toDigits 10 c, k)

/-- Digits and an exponent in positional notation, without an exponent. -/
def positionalDigits (ds : List Char) (k : Int) : String :=
  if 0 ≤ k then String.ofList (ds ++ List.replicate k.toNat '0')
  else
    let point := (ds.length : Int) + k
    if 0 < point then
      String.ofList (ds.take point.toNat ++ '.' :: ds.drop point.toNat)
    else String.ofList ('0' :: '.' :: List.replicate (-point).toNat '0' ++ ds)

/-- The sign mark of a number. -/
def signText (negative : Bool) : String :=
  if negative then "-" else ""

/-- The number in positional notation with the shortest digits, of two equally near the larger:
`1.5`, `100`, `0.001`, `-0`, `inf`, `NaN`. -/
def positional : Binary64 → String
  | .nan => "NaN"
  | .infinity negative => signText negative ++ "inf"
  | .finite negative m q =>
    let (ds, k) := decimalDigits true m q
    signText negative ++ positionalDigits ds k

/-- The number in positional notation, with `.0` after a finite whole number: `1.5`, `100.0`. -/
def positionalWithPoint (x : Binary64) : String :=
  match x with
  | .finite .. =>
    let s := x.positional
    if s.toList.contains '.' then s else s ++ ".0"
  | _ => x.positional

/-- The number in compact notation, with the shortest digits, of two equally near the one
with the even last digit: positional from `1e-5` up to `1e16`, with `.0` after a whole number,
and otherwise one digit before the point and a signed exponent: `1e+16`, `1.5e-7`, `0.0001`,
`100.0`. -/
def compact : Binary64 → String
  | .nan => "NaN"
  | .infinity negative => signText negative ++ "inf"
  | .finite negative m q =>
    if m = 0 then signText negative ++ "0.0"
    else
      let (ds, k) := decimalDigits false m q
      -- the value lies in `[10 ^ (e - 1), 10 ^ e)`
      let e : Int := (ds.length : Int) + k
      let body :=
        if 0 ≤ k && e ≤ 16 then positionalDigits ds k ++ ".0"
        else if -5 < e && e ≤ 16 then positionalDigits ds k
        else
          let mantissa := match ds with
            | [d] => String.singleton d
            | d :: rest => String.ofList (d :: '.' :: rest)
            | [] => "0"
          mantissa ++ "e" ++ (if 0 < e then "+" else "") ++ toString (e - 1)
      signText negative ++ body

end Binary64

end CoordStore
