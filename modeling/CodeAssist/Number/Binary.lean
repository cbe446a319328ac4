/-!
Binary floating-point numbers, computed exactly.

A finite number is a sign, a natural significand and a power of two. Every operation works out its
exact result as a ratio of naturals and rounds once, to the nearest number of the format, a tie
going to the even significand. No hardware arithmetic takes part.
-/

namespace CodeAssist.Number

/-! ## 1. Formats and values -/

/-- A format: significands lie below `2 ^ precision`, and the power of two of the last place lies
between `least` and `greatest`. -/
structure Format where
  precision : Nat
  least : Int
  greatest : Int

def single : Format := ⟨24, -149, 104⟩

def double : Format := ⟨53, -1074, 971⟩

/-- A number of some format: `± significand · 2 ^ exponent`, or an infinity. -/
inductive Binary where
  | finite (negative : Bool) (significand : Nat) (exponent : Int)
  | infinite (negative : Bool)
  deriving DecidableEq, Repr, Inhabited

namespace Binary

/-- Whether the sign is negative; zero has a sign too. -/
def isNegative : Binary → Bool
  | finite negative _ _ => negative
  | infinite negative => negative

def isZero : Binary → Bool
  | finite _ significand _ => significand == 0
  | infinite _ => false

def isInfinite : Binary → Bool
  | finite .. => false
  | infinite _ => true

def neg : Binary → Binary
  | finite negative significand exponent => finite (!negative) significand exponent
  | infinite negative => infinite (!negative)

end Binary

/-! ## 2. Rounding -/

/-- `num / den` rounded to the nearest natural, a tie going to the even one. -/
def roundDiv (num den : Nat) : Nat :=
  let q := num / den
  let r := num % den
  if 2 * r < den || (2 * r == den && q % 2 == 0) then q else q + 1

/-- `num / den` divided by `2 ^ e`, as a ratio. -/
def scaleDown (e : Int) (num den : Nat) : Nat × Nat :=
  if 0 ≤ e then (num, den * Nat.pow 2 e.toNat) else (num * Nat.pow 2 (-e).toNat, den)

/-- The power of two of the last place of the number nearest to `num / den`, before rounding. -/
def Format.lastPlace (f : Format) (num den : Nat) : Int :=
  let guess : Int := (num.log2 : Int) - (den.log2 : Int) - (f.precision - 1 : Nat)
  let (n, d) := scaleDown guess num den
  max f.least (if n < Nat.pow 2 (f.precision - 1) * d then guess - 1 else guess)

/-- The number of the format nearest to `± num / den`. -/
def Format.round (f : Format) (negative : Bool) (num den : Nat) : Binary :=
  if num == 0 then .finite negative 0 f.least
  else
    let e := f.lastPlace num den
    let (n, d) := scaleDown e num den
    let q := roundDiv n d
    let (q, e) :=
      if q == Nat.pow 2 f.precision then (Nat.pow 2 (f.precision - 1), e + 1) else (q, e)
    if f.greatest < e then .infinite negative else .finite negative q e

/-- The number of the format nearest to `± significand · 2 ^ exponent`. -/
def Format.ofDyadic (f : Format) (negative : Bool) (significand : Nat) (exponent : Int) : Binary :=
  if 0 ≤ exponent then f.round negative (significand * Nat.pow 2 exponent.toNat) 1
  else f.round negative significand (Nat.pow 2 (-exponent).toNat)

/-- The number of the format nearest to a natural. -/
def Format.ofNat (f : Format) (n : Nat) : Binary :=
  f.round false n 1

/-- The number of the format nearest to an integer. -/
def Format.ofInt (f : Format) (n : Int) : Binary :=
  f.round (n < 0) n.natAbs 1

/-- The number of this format nearest to a number of another one. -/
def Format.convert (f : Format) : Binary → Binary
  | .finite negative significand exponent => f.ofDyadic negative significand exponent
  | .infinite negative => .infinite negative

/-! ## 3. Arithmetic -/

def Format.mul (f : Format) : Binary → Binary → Binary
  | .finite s m e, .finite t n d => f.ofDyadic (s != t) (m * n) (e + d)
  | x, y => .infinite (x.isNegative != y.isNegative)

/-- The rounded quotient; dividing by zero gives an infinity. -/
def Format.div (f : Format) : Binary → Binary → Binary
  | .finite s m e, .finite t n d =>
    if n == 0 then .infinite (s != t)
    else
      let (num, den) := scaleDown (d - e) m n
      f.round (s != t) num den
  | x, y => .infinite (x.isNegative != y.isNegative)

/-- A finite number as an integer multiple of `2 ^ e`, for `e` at most its exponent. -/
def alignedTo (e : Int) (negative : Bool) (significand : Nat) (exponent : Int) : Int :=
  let m : Int := (significand * Nat.pow 2 (exponent - e).toNat : Nat)
  if negative then -m else m

def Format.sub (f : Format) : Binary → Binary → Binary
  | .finite s m e, .finite t n d =>
    let low := min e d
    let diff := alignedTo low s m e - alignedTo low t n d
    f.ofDyadic (diff < 0) diff.natAbs low
  | .infinite s, _ => .infinite s
  | _, .infinite t => .infinite (!t)

/-- Whether the first of two finite numbers is below the second. -/
def Binary.lt : Binary → Binary → Bool
  | .finite s m e, .finite t n d =>
    let low := min e d
    alignedTo low s m e < alignedTo low t n d
  | .infinite s, .infinite t => s && !t
  | .infinite s, _ => s
  | _, .infinite t => !t

end CodeAssist.Number
