/-!
# Number — binary64

Finite binary64 numbers as `± significand · 2 ^ exponent`, in exact arithmetic.
Every rounding goes through `nearest`: the number nearest to a quotient of
naturals, a tie going to the even significand, and none where the quotient is
too large. Reading a decimal, multiplying and dividing are each one such
rounding. Powers are written as `Nat.pow`, which means the same under every import.
-/

namespace ExerciseDoc

/-- A finite binary64 number. Values built here are normal forms: the significand
has 53 bits, or fewer with the least exponent. -/
structure Binary64 where
  negative : Bool
  significand : Nat
  exponent : Int
  deriving DecidableEq, Repr, Inhabited

namespace Binary64

/-! ## The format -/

/-- Bits of a significand. -/
def precision : Nat := 53

/-- The exponent of the numbers closest to zero. -/
def leastExponent : Int := -1074

/-- The exponent of the numbers farthest from zero. -/
def greatestExponent : Int := 971

/-- The zero of either sign. -/
def zero (negative : Bool) : Binary64 :=
  ⟨negative, 0, leastExponent⟩

def isZero (x : Binary64) : Bool :=
  x.significand == 0

/-! ## Rounding -/

/-- The quotient rounded to a whole number, a tie going to the even neighbour. -/
def roundDiv (num den : Nat) : Nat :=
  let q := num / den
  let r := num % den
  if 2 * r < den ∨ (2 * r = den ∧ q % 2 = 0) then q else q + 1

/-- The two sides of `num / den = n / d · 2 ^ e`. -/
def scaled (num den : Nat) (e : Int) : Nat × Nat :=
  if 0 ≤ e then (num, den * Nat.pow 2 e.toNat) else (num * Nat.pow 2 (-e).toNat, den)

/-- The exponent at which the quotient has a significand of full width, or the
least exponent. -/
def exponentFor (num den : Nat) : Int :=
  let guess : Int := (num.log2 : Int) - den.log2 - (precision - 1 : Nat)
  let (n, d) := scaled num den guess
  let e := if n < Nat.pow 2 (precision - 1) * d then guess - 1 else guess
  max e leastExponent

/-- The number nearest to `± num / den`, or none if that is beyond the largest.
-/
def nearest (negative : Bool) (num den : Nat) : Option Binary64 :=
  if num = 0 then some (zero negative)
  else
    let e := exponentFor num den
    let (n, d) := scaled num den e
    let m := roundDiv n d
    let x : Binary64 :=
      if m = Nat.pow 2 precision then ⟨negative, Nat.pow 2 (precision - 1), e + 1⟩
      else ⟨negative, m, e⟩
    if x.significand = 0 then some (zero negative)
    else if x.exponent ≤ greatestExponent then some x
    else none

/-- The number nearest to `± digits · 10 ^ exponent10`. Quotients far outside the
range are not computed: a number below `10 ^ -330` rounds to zero. -/
def ofDecimal (negative : Bool) (digits : Nat) (exponent10 : Int) : Option Binary64 :=
  if digits = 0 then some (zero negative)
  else if exponent10 > 310 then none
  else if exponent10 < -(330 + digits.log2 : Int) then some (zero negative)
  else if 0 ≤ exponent10 then nearest negative (digits * Nat.pow 10 exponent10.toNat) 1
  else nearest negative digits (Nat.pow 10 (-exponent10).toNat)

/-! ## Arithmetic -/

/-- `significand · 2 ^ exponent` as a quotient. -/
def magnitude (x : Binary64) : Nat × Nat :=
  if 0 ≤ x.exponent then (x.significand * Nat.pow 2 x.exponent.toNat, 1)
  else (x.significand, Nat.pow 2 (-x.exponent).toNat)

/-- The rounded product, or none beyond the largest number. -/
def mul (x y : Binary64) : Option Binary64 :=
  let (a, b) := x.magnitude
  let (c, d) := y.magnitude
  nearest (x.negative != y.negative) (a * c) (b * d)

/-- The rounded quotient, for a divisor other than zero. -/
def div (x y : Binary64) : Option Binary64 :=
  let (a, b) := x.magnitude
  let (c, d) := y.magnitude
  nearest (x.negative != y.negative) (a * d) (b * c)

end Binary64

end ExerciseDoc
