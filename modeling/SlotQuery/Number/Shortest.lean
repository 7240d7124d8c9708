import SlotQuery.Number.Binary64

/-!
# Shortest decimals

The shortest decimal of a number is the one with the fewest digits among those
that read back as the number, and of several such the one nearest to it. All
comparisons are made on exact fractions.
-/

namespace SlotQuery

/-- A decimal `coefficient · 10 ^ exponent`. -/
structure Decimal where
  coefficient : Nat
  exponent : Int
deriving DecidableEq, Repr, Inhabited

/-!
# Exact fractions

A positive fraction is a pair of a numerator and a denominator. Scaling by a
power of a base moves the power to the side where the exponent is positive.
-/

structure Ratio where
  num : Nat
  den : Nat
deriving DecidableEq, Repr, Inhabited

namespace Ratio

def scale (r : Ratio) (base : Nat) (exponent : Int) : Ratio :=
  if 0 ≤ exponent then
    { num := r.num * Nat.pow base exponent.toNat, den := r.den }
  else
    { num := r.num, den := r.den * Nat.pow base (-exponent).toNat }

def ofScaled (n : Nat) (base : Nat) (exponent : Int) : Ratio :=
  ({ num := n, den := 1 } : Ratio).scale base exponent

def le (a b : Ratio) : Bool :=
  decide (a.num * b.den ≤ b.num * a.den)

def lt (a b : Ratio) : Bool :=
  decide (a.num * b.den < b.num * a.den)

end Ratio

/-!
# The interval of a number

The reals that round to a number reach halfway to its two neighbours. The end
points belong to the interval exactly when the significand is even. Quarters of
the last binary place express all three bounds as whole numbers.
-/

structure RoundingInterval where
  low : Ratio
  value : Ratio
  high : Ratio
  closed : Bool
deriving Repr, Inhabited

namespace RoundingInterval

def ofBinary64 (x : Binary64) : RoundingInterval :=
  let quarter := fun n => Ratio.ofScaled n 2 (x.binaryExponent - 2)
  let m := x.significand
  { low := quarter (4 * m - (if x.atBinadeStart then 1 else 2))
    value := quarter (4 * m)
    high := quarter (4 * m + 2)
    closed := m % 2 == 0 }

def contains (interval : RoundingInterval) (r : Ratio) : Bool :=
  if interval.closed then
    interval.low.le r && r.le interval.high
  else
    interval.low.lt r && r.lt interval.high

end RoundingInterval

/-!
# Candidates

On the grid of a power of ten the only points worth testing are the two
neighbours of the value. A tie between them is decided by the caller.
-/

/-- How two decimals that are equally near are told apart. -/
inductive Tie where
  | toEven
  | up
deriving DecidableEq, Repr, Inhabited

def digitCount (n : Nat) : Nat :=
  (Nat.toDigits 10 n).length

/-- The position of the decimal point: the value is below `10 ^ p` and not below `10 ^ (p - 1)`. -/
def pointPosition (value : Ratio) : Int :=
  if value.den ≤ value.num then
    (digitCount (value.num / value.den) : Int)
  else
    let zeros := digitCount (value.den / value.num)
    if value.num * Nat.pow 10 (zeros - 1) < value.den then 1 - (zeros : Int) else 2 - (zeros : Int)

def nearestOnGrid (tie : Tie) (interval : RoundingInterval) (exponent : Int) : Option Decimal :=
  let scaled := interval.value.scale 10 (-exponent)
  let below := scaled.num / scaled.den
  let rest := scaled.num % scaled.den
  let reads := fun n => interval.contains (Ratio.ofScaled n 10 exponent)
  let upperIsNearer :=
    decide (scaled.den < 2 * rest) ||
      (decide (scaled.den = 2 * rest) && (tie == .up || below % 2 == 1))
  let lower := { coefficient := below, exponent := exponent : Decimal }
  let upper := { coefficient := below + 1, exponent := exponent : Decimal }
  if reads below && reads (below + 1) then
    some (if upperIsNearer then upper else lower)
  else if reads below then
    some lower
  else if reads (below + 1) then
    some upper
  else
    none

/-- Moves trailing zeros of the coefficient into the exponent; `fuel` bounds their number. -/
def dropTrailingZeros : Nat → Decimal → Decimal
  | 0, d => d
  | fuel + 1, d =>
      if d.coefficient % 10 = 0 ∧ d.coefficient ≠ 0 then
        dropTrailingZeros fuel { coefficient := d.coefficient / 10, exponent := d.exponent + 1 }
      else
        d

/-- The shortest decimal of the magnitude; seventeen digits are always enough. -/
def Binary64.shortest (tie : Tie) (x : Binary64) : Decimal :=
  if x.significand = 0 then
    { coefficient := 0, exponent := 0 }
  else
    let interval := RoundingInterval.ofBinary64 x
    let point := pointPosition interval.value
    let grids := (List.range 17).map fun (n : Nat) => point - 1 - (n : Int)
    let found := (grids.findSome? (nearestOnGrid tie interval)).getD
      { coefficient := 0, exponent := 0 }
    dropTrailingZeros 17 found

end SlotQuery
