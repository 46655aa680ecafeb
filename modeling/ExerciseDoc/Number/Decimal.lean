import ExerciseDoc.Number.Binary64
import ExerciseDoc.Text.Reader

/-!
# Number — decimal text

`shortest` gives the fewest decimal digits that read back to the same binary64
number, and of those the closest to it. `Layout` holds what a format decides
about their text: which exponents are written positionally. Whole numbers are
written by `natText` and `intText`, and `digitsValue` reads a run of digits.
-/

namespace ExerciseDoc.Decimal

/-! ## Whole numbers -/

def digitValue (c : Char) : Nat :=
  c.toNat - '0'.toNat

/-- The number that a run of decimal digits denotes. -/
def digitsValue (cs : List Char) : Nat :=
  cs.foldl (fun n c => 10 * n + digitValue c) 0

def natText (n : Nat) : List Char :=
  Nat.toDigits 10 n

def intText : Int → List Char
  | .ofNat n => natText n
  | .negSucc n => '-' :: natText (n + 1)

/-! ## Shortest digits -/

/-- A positive number as `digits · 10 ^ exponent`. -/
structure Digits where
  digits : Nat
  exponent : Int
  deriving DecidableEq, Repr

/-- The reals that round to a positive binary64 number, as quotients over the
denominator `4 · den`: from `low` to `high`, the ends included iff `closed`. The
number itself is `num / den`. -/
structure Interval where
  num : Nat
  den : Nat
  low : Nat
  high : Nat
  closed : Bool

/-- The interval of a number: half a step to each side, a quarter of a step below
the first significand of an exponent. -/
def Interval.of (x : Binary64) : Interval :=
  let m := x.significand
  let (step, den) :=
    if 0 ≤ x.exponent then (Nat.pow 2 x.exponent.toNat, 1)
    else (1, Nat.pow 2 (-x.exponent).toNat)
  let below :=
    if m = Nat.pow 2 (Binary64.precision - 1) ∧ x.exponent > Binary64.leastExponent then 1 else 2
  ⟨m * step, den, (4 * m - below) * step, (4 * m + 2) * step, m % 2 == 0⟩

/-- Whether `digits · 10 ^ exponent` lies in the interval. -/
def Interval.holds (i : Interval) (d : Digits) : Bool :=
  let (p, q) :=
    if 0 ≤ d.exponent then (d.digits * Nat.pow 10 d.exponent.toNat, 1)
    else (d.digits, Nat.pow 10 (-d.exponent).toNat)
  let point := 4 * i.den * p
  if i.closed then i.low * q ≤ point && point ≤ i.high * q
  else i.low * q < point && point < i.high * q

/-- The exponent of the first digit of `num / den`. -/
def leadingExponent (num den : Nat) : Int :=
  let guess := ((num.log2 : Int) - den.log2) * 30103 / 100000
  let reaches (e : Int) : Bool :=
    if 0 ≤ e then den * Nat.pow 10 e.toNat ≤ num
    else den ≤ num * Nat.pow 10 (-e).toNat
  if reaches (guess + 1) then guess + 1
  else if reaches guess then guess
  else guess - 1

/-- The digits without trailing zeros. -/
def Digits.stripped : Nat → Digits → Digits
  | 0, d => d
  | room + 1, d =>
    if d.digits ≠ 0 ∧ d.digits % 10 = 0 then stripped room ⟨d.digits / 10, d.exponent + 1⟩
    else d

/-- The neighbour of the number on the grid of `10 ^ exponent` that lies in the
interval; of two the nearer, and at equal distance the even one. -/
def Interval.onGrid? (i : Interval) (exponent : Int) : Option Digits :=
  let (n, d) :=
    if 0 ≤ exponent then (i.num, i.den * Nat.pow 10 exponent.toNat)
    else (i.num * Nat.pow 10 (-exponent).toNat, i.den)
  let lower : Digits := ⟨n / d, exponent⟩
  let upper : Digits := ⟨n / d + 1, exponent⟩
  let nearer : Digits := ⟨Binary64.roundDiv n d, exponent⟩
  match i.holds lower, i.holds upper with
  | true, true => some nearer
  | true, false => some lower
  | false, true => some upper
  | false, false => none

/-- The first grid with a hit, from `n` digits on; seventeen digits always read
back. -/
def Interval.firstHit (i : Interval) (leading : Int) : Nat → Nat → Digits
  | 0, _ => ⟨i.num, 0⟩
  | room + 1, n =>
    match i.onGrid? (leading - n) with
    | some d => d
    | none => firstHit i leading room (n + 1)

/-- The fewest digits that read back to a number other than zero, closest to it.
-/
def shortest (x : Binary64) : Digits :=
  let i := Interval.of x
  (i.firstHit (leadingExponent i.num i.den) 17 0).stripped 18

/-! ## Text -/

/-- What a format decides about the text of a number: the exponents of the first
digit that are written without an exponent mark. -/
structure Layout where
  leastPositional : Int
  greatestPositional : Int

/-- Digits with the first one at `10 ^ leading`: positional with at least one
digit on each side of the point, or one digit before the point and a signed
exponent. -/
def Layout.digitsText (layout : Layout) (digits : List Char) (leading : Int) : List Char :=
  if layout.leastPositional ≤ leading ∧ leading ≤ layout.greatestPositional then
    if leading < 0 then
      ['0', '.'] ++ List.replicate (-leading - 1).toNat '0' ++ digits
    else
      let whole := leading.toNat + 1
      if digits.length ≤ whole then
        digits ++ List.replicate (whole - digits.length) '0' ++ ['.', '0']
      else digits.take whole ++ '.' :: digits.drop whole
  else
    let fraction := if digits.length ≤ 1 then [] else '.' :: digits.drop 1
    let sign := if leading < 0 then '-' else '+'
    digits.take 1 ++ fraction ++ 'e' :: sign :: natText leading.natAbs

/-- The text of a binary64 number. -/
def Layout.text (layout : Layout) (x : Binary64) : List Char :=
  let sign := if x.negative then ['-'] else []
  if x.isZero then sign ++ ['0', '.', '0']
  else
    let d := shortest x
    let digits := natText d.digits
    sign ++ layout.digitsText digits (d.exponent + (digits.length - 1 : Nat))

end ExerciseDoc.Decimal
