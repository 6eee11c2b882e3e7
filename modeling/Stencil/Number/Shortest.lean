import Stencil.Number.Binary64

/-!
The fewest decimal digits that identify a floating-point number. A decimal
identifies a number if it lies among the reals that round to it: from halfway
to the number below to halfway to the number above, both ends included when the
significand is even. All comparisons are exact, between naturals.
-/
namespace Stencil

/-- `digits * 10 ^ exponent` -/
structure Decimal where
  digits : Nat
  exponent : Int
  deriving DecidableEq, Repr

inductive Tie where
  | up
  | toEven
  deriving DecidableEq, Repr

/-- Compares `a * 10 ^ i` with `n * 2 ^ j`. -/
def compareScaled (a : Nat) (i : Int) (n : Nat) (j : Int) : Ordering :=
  compare (a * tenTo i.toNat * twoTo (-j).toNat) (n * twoTo j.toNat * tenTo (-i).toNat)

namespace Binary64

-- Above a power of two the numbers lie twice as far apart as below it.
def narrowBelow (x : Binary64) : Bool :=
  x.significand = twoTo 52 && 1 < x.exponentField

def identifiedBy (x : Binary64) (decimal : Decimal) : Bool :=
  let low := if x.narrowBelow then 4 * x.significand - 1 else 4 * x.significand - 2
  let high := 4 * x.significand + 2
  let fromLow := compareScaled decimal.digits decimal.exponent low (x.exponent - 2)
  let fromHigh := compareScaled decimal.digits decimal.exponent high (x.exponent - 2)
  let even := x.significand % 2 = 0
  (fromLow = .gt || (even && fromLow = .eq)) && (fromHigh = .lt || (even && fromHigh = .eq))

/-- The multiple of `10 ^ grid` next to the number that identifies it. -/
def nearestOn? (x : Binary64) (tie : Tie) (grid : Int) : Option Decimal :=
  let below := x.significand * twoTo x.exponent.toNat * tenTo (-grid).toNat /
    (twoTo (-x.exponent).toNat * tenTo grid.toNat)
  let lower : Decimal := ⟨below, grid⟩
  let upper : Decimal := ⟨below + 1, grid⟩
  match x.identifiedBy lower, x.identifiedBy upper with
  | false, false => none
  | true, false => some lower
  | false, true => some upper
  | true, true =>
      match compareScaled (2 * below + 1) grid (2 * x.significand) x.exponent with
      | .gt => some lower
      | .lt => some upper
      | .eq =>
          match tie with
          | .up => some upper
          | .toEven => some (if below % 2 = 0 then lower else upper)

def exactDecimal (x : Binary64) : Decimal :=
  if 0 ≤ x.exponent then ⟨x.significand * twoTo x.exponent.toNat, 0⟩
  else ⟨x.significand * Nat.pow 5 (-x.exponent).toNat, x.exponent⟩

def topGrid (x : Binary64) : Int :=
  (x.significand.log2 + 1 + x.exponent) * 30103 / 100000 + 1

/-- The shortest decimal for a finite number: the coarsest grid with a decimal
that identifies it. Seventeen digits tell all numbers apart. -/
def shortest (x : Binary64) (tie : Tie) : Decimal :=
  let grids := (List.range 20).map fun (step : Nat) => x.topGrid - step
  (grids.findSome? (x.nearestOn? tie)).getD x.exactDecimal

end Binary64
end Stencil
