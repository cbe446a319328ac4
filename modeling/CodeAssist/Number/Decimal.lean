import CodeAssist.Number.Binary

/-!
Decimal text of binary numbers.

Writing takes the fewest decimal digits that read back as the same number: for one digit, two
digits and so on, the two neighbours of the value on that decimal grid are tested against the
interval of reals that round to it. Reading takes a significand and a power of ten and computes
in the 64-bit format, one rounding for the significand and one for each scaling.
-/

namespace CodeAssist.Number

/-! ## 1. Reading -/

/-- The power `10 ^ n` in the 64-bit format. -/
def powerOfTen (n : Nat) : Binary :=
  double.ofNat (Nat.pow 10 n)

/-- `x` divided by `10 ^ n`, in steps of at most 308 places. -/
def divByPowerOfTen (x : Binary) (n : Nat) : Binary :=
  if n ≤ 308 then double.div x (powerOfTen n)
  else if x.isZero then x
  else divByPowerOfTen (double.div x (powerOfTen 308)) (n - 308)
termination_by n

/-- `± significand · 10 ^ exponent`; nothing when it is too large for the format. -/
def ofDecimal (negative : Bool) (significand : Nat) (exponent : Int) : Option Binary :=
  let x := double.ofNat significand
  let signed (y : Binary) : Binary := if negative then y.neg else y
  if exponent < 0 then some (signed (divByPowerOfTen x exponent.natAbs))
  else if exponent ≤ 308 then
    let y := double.mul x (powerOfTen exponent.toNat)
    if y.isInfinite then none else some (signed y)
  else if x.isZero then some (signed x)
  else none

/-! ## 2. The shortest digits -/

def digitsOf (n : Nat) : List Char :=
  Nat.toDigits 10 n

/-- The greatest `k` with `10 ^ k ≤ num / den`, for a positive ratio. -/
def floorLog10 (num den : Nat) : Int :=
  if den ≤ num then (digitsOf (num / den)).length - 1
  else
    let k := (digitsOf (den / num)).length
    if den ≤ num * Nat.pow 10 (k - 1) then -((k : Int) - 1) else -(k : Int)

/-- The reals that round to a number, as `low / den` to `high / den` around `value / den`. -/
structure Interval where
  low : Nat
  value : Nat
  high : Nat
  den : Nat
  closed : Bool

/-- The interval of `significand · 2 ^ exponent`: halfway to its two neighbours, the ends included
when the significand is even. -/
def Format.interval (f : Format) (significand : Nat) (exponent : Int) : Interval :=
  let narrow := significand == Nat.pow 2 (f.precision - 1) && f.least < exponent
  let low := 4 * significand - (if narrow then 1 else 2)
  let e := exponent - 2
  let scale := if 0 ≤ e then Nat.pow 2 e.toNat else 1
  { low := low * scale
    value := 4 * significand * scale
    high := (4 * significand + 2) * scale
    den := if 0 ≤ e then 1 else Nat.pow 2 (-e).toNat
    closed := significand % 2 == 0 }

/-- Whether `num / den` lies in the interval. -/
def Interval.holds (i : Interval) (num den : Nat) : Bool :=
  let below := i.low * den
  let above := i.high * den
  let x := num * i.den
  if i.closed then below ≤ x && x ≤ above else below < x && x < above

/-- The decimal of `n` digits in the interval that is nearest to its value, if there is one: the
digits and the power of ten of the last of them. -/
def Interval.nearest (i : Interval) (n : Nat) : Option (Nat × Int) :=
  let unit : Int := floorLog10 i.value i.den - (n - 1 : Nat)
  -- the grid step is `up / down`
  let up := if 0 ≤ unit then Nat.pow 10 unit.toNat else 1
  let down := if 0 ≤ unit then 1 else Nat.pow 10 (-unit).toNat
  let d := i.value * down / (i.den * up)
  let fits (k : Nat) : Bool := i.holds (k * up) down
  -- twice the value against `d + (d + 1)` grid steps
  let lower := 2 * i.value * down
  let middle := (2 * d + 1) * up * i.den
  match fits d, fits (d + 1) with
  | true, true =>
    some (if lower < middle || (lower == middle && d % 2 == 0) then d else d + 1, unit)
  | true, false => some (d, unit)
  | false, true => some (d + 1, unit)
  | false, false => none

/-- The first grid, from `n` digits on, that has a decimal in the interval. -/
def Interval.search (i : Interval) (n : Nat) : Nat → Nat × Int
  | 0 => (i.value / i.den, 0)
  | tries + 1 => (i.nearest n).getD (i.search (n + 1) tries)

/-- The number without its trailing zeros, their count added to the power of ten. -/
def dropZeros (n : Nat) (exponent : Int) : Nat × Int :=
  if h : n = 0 then (0, 0)
  else if n % 10 = 0 then dropZeros (n / 10) (exponent + 1)
  else (n, exponent)
termination_by n
decreasing_by omega

/-- The fewest digits that read back as `significand · 2 ^ exponent`, and their power of ten. -/
def Format.shortest (f : Format) (significand : Nat) (exponent : Int) : Nat × Int :=
  if significand == 0 then (0, 0)
  else
    let (digits, power) := (f.interval significand exponent).search 1 17
    dropZeros digits power

/-! ## 3. Writing -/

/-- Where positional notation ends: a number whose point stands after more than `widest` digits,
or more than `deepest` places before the first one, is written with an exponent. -/
structure Layout where
  widest : Int
  deepest : Int

/-- Numbers are positional up to sixteen digits before the point and four zeros after it. -/
def plainLayout : Layout := ⟨16, 5⟩

/-- A decimal as text. A whole number keeps one zero after the point, and an exponent its
sign. -/
def Layout.write (l : Layout) (digits : Nat) (power : Int) : List Char :=
  let ds := digitsOf digits
  let point : Int := ds.length + power
  if digits == 0 then ['0', '.', '0']
  else if 0 ≤ power && point ≤ l.widest then
    ds ++ List.replicate power.toNat '0' ++ ['.', '0']
  else if 0 < point && point ≤ l.widest then
    ds.take point.toNat ++ ['.'] ++ ds.drop point.toNat
  else if -l.deepest < point && point ≤ 0 then
    ['0', '.'] ++ List.replicate (-point).toNat '0' ++ ds
  else
    let tail := match ds with
      | [d] => [d]
      | d :: more => d :: '.' :: more
      | [] => []
    let e := point - 1
    tail ++ ['e'] ++ (if e < 0 then ['-'] else ['+']) ++ digitsOf e.natAbs

/-- The text of a number; an infinity has none. -/
def Format.write (f : Format) (l : Layout) : Binary → Option (List Char)
  | .finite negative significand exponent =>
    let (digits, power) := f.shortest significand exponent
    some ((if negative then ['-'] else []) ++ l.write digits power)
  | .infinite _ => none

end CodeAssist.Number
