import ExerciseDoc.Number.Decimal
import ExerciseDoc.Value.Basic

/-!
# Json — numbers

How a JSON number becomes a value. Digits alone are a whole number between
`-2 ^ 63` and `2 ^ 64 - 1`; minus zero and everything beyond are binary64. A
binary64 number is made of at most sixty-four bits of digits, scaled by a power
of ten in one rounded step: digits that no longer fit count by their place alone.
-/

namespace ExerciseDoc.Json

open Decimal (digitValue digitsValue)

/-- Digits gathered so far: their number, kept below `2 ^ 64`, and the power of
ten that it stands at. -/
structure Gathered where
  significand : Nat
  exponent : Int
  deriving DecidableEq, Repr

/-- The digits of a whole number: from the first that does not fit, each only
raises the exponent. -/
def gatherWhole (ds : List Char) : Gathered :=
  ds.foldl (fun g c =>
    let n := 10 * g.significand + digitValue c
    if g.exponent = 0 ∧ n < Nat.pow 2 64 then ⟨n, 0⟩ else ⟨g.significand, g.exponent + 1⟩) ⟨0, 0⟩

/-- The digits behind a point: from the first that does not fit they are left
out. -/
def gatherFraction : Gathered → List Char → Gathered
  | g, [] => g
  | g, c :: cs =>
    let n := 10 * g.significand + digitValue c
    if n < Nat.pow 2 64 then gatherFraction ⟨n, g.exponent - 1⟩ cs else g

/-- The binary64 number nearest to `10 ^ k`. -/
def powerOfTen (k : Nat) : Binary64 :=
  (Binary64.nearest false (Nat.pow 10 k) 1).getD (Binary64.zero false)

/-- The greatest power of ten that one step scales by. -/
def greatestStep : Nat := 308

/-- A number divided by `10 ^ 308` so many times; zero stays as it is. -/
def steppedDown : Nat → Binary64 → Option Binary64
  | 0, x => some x
  | steps + 1, x =>
    if x.isZero then some x
    else
      match x.div (powerOfTen greatestStep) with
      | some y => steppedDown steps y
      | none => none

/-- A number divided by `10 ^ k` in steps of `10 ^ 308` and one of what remains. -/
def dividedByTen (x : Binary64) (k : Nat) : Option Binary64 :=
  let steps := (k - 1) / greatestStep
  match steppedDown steps x with
  | some y => y.div (powerOfTen (k - greatestStep * steps))
  | none => none

/-- The binary64 number of gathered digits, or none if it is too large. -/
def Gathered.toBinary64? (g : Gathered) (negative : Bool) : Option Binary64 :=
  match Binary64.nearest negative g.significand 1 with
  | none => none
  | some x =>
    if g.exponent < 0 then dividedByTen x (-g.exponent).toNat
    else if g.exponent ≤ greatestStep then x.mul (powerOfTen g.exponent.toNat)
    else if x.isZero then some x
    else none

/-- The value of a number without point and exponent. -/
def wholeNumber? (negative : Bool) (ds : List Char) : Option Value :=
  let g := gatherWhole ds
  if g.exponent = 0 ∧ !negative then some (.int g.significand)
  else if g.exponent = 0 ∧ 0 < g.significand ∧ g.significand ≤ Nat.pow 2 63 then
    some (.int (-g.significand))
  else (g.toBinary64? negative).map .float

/-- The value of a number with a point, an exponent or both. -/
def scaledNumber? (negative : Bool) (whole fraction : List Char) (exponent : Int) :
    Option Value :=
  let g := gatherFraction (gatherWhole whole) fraction
  (Gathered.toBinary64? ⟨g.significand, g.exponent + exponent⟩ negative).map .float

end ExerciseDoc.Json
