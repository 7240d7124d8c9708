import SlotQuery.Number.Binary64

/-!
# Numerals

A number as it is written: a sign, the digits before and after the point, and
an exponent of ten. Numerals without fraction and exponent stand for integers,
and all of them stand for double precision numbers.
-/

namespace SlotQuery

structure Numeral where
  negative : Bool
  whole : Nat
  /-- The digits after the point; without any there is no point. -/
  fraction : List Nat
  exponent : Option Int
deriving DecidableEq, Repr, Inhabited

namespace Numeral

def ofInt (n : Int) : Numeral :=
  { negative := decide (n < 0), whole := n.natAbs, fraction := [], exponent := none }

/-- Minus zero is no integer. -/
def toInt? (numeral : Numeral) : Option Int :=
  if numeral.fraction.isEmpty && numeral.exponent.isNone then
    if numeral.negative then
      if numeral.whole = 0 then none else some (-(numeral.whole : Int))
    else
      some numeral.whole
  else
    none

/-!
# Written form

An exponent always shows its sign.
-/

def digitsText (digits : List Nat) : String :=
  String.ofList (digits.map Nat.digitChar)

def exponentText : Option Int → String
  | none => ""
  | some n => "e" ++ (if n < 0 then "-" else "+") ++ toString n.natAbs

def text (numeral : Numeral) : String :=
  (if numeral.negative then "-" else "") ++ toString numeral.whole ++
    (if numeral.fraction.isEmpty then "" else "." ++ digitsText numeral.fraction) ++
    exponentText numeral.exponent

/-!
# Reading as a double precision number

The leading digits that fit into sixty-four bits are taken as one whole number;
the others only shift the power of ten. The number is then scaled once, so the
result is exact to one rounding of each of the two steps. A result beyond the
largest number is refused, one below the least becomes zero.
-/

def wordLimit : Nat := 18446744073709551616

/-- Drops digits from the end until the rest fits, and counts them. -/
def fitWhole (whole : Nat) : Nat × Nat :=
  if wordLimit ≤ whole then
    let (kept, dropped) := fitWhole (whole / 10)
    (kept, dropped + 1)
  else
    (whole, 0)
termination_by whole
decreasing_by
  rename_i large
  have positive : 0 < whole := Nat.lt_of_lt_of_le (by decide) large
  exact Nat.div_lt_self positive (by decide)

/-- Takes in digits after the point as long as they fit, and counts them. -/
def fitFraction : Nat → List Nat → Nat × Nat
  | kept, [] => (kept, 0)
  | kept, digit :: rest =>
      if 10 * kept + digit < wordLimit then
        let (all, taken) := fitFraction (10 * kept + digit) rest
        (all, taken + 1)
      else
        (kept, 0)

def powerOfTen (n : Nat) : Float :=
  Float.ofScientific 1 false n

/-- The largest power of ten among the double precision numbers. -/
def largestPower : Nat := 308

def scaleUp (x : Float) (n : Nat) : Option Float :=
  if n ≤ largestPower then
    let scaled := x * powerOfTen n
    if scaled.isInf then none else some scaled
  else if x == 0 then
    some x
  else
    none

def scaleDown (x : Float) (n : Nat) : Float :=
  if n ≤ largestPower then
    x / powerOfTen n
  else if x == 0 then
    x
  else
    scaleDown (x / powerOfTen largestPower) (n - largestPower)
termination_by n
decreasing_by
  rename_i large _
  simp only [largestPower] at large ⊢
  omega

def toBinary64? (numeral : Numeral) : Option Binary64 :=
  let (whole, dropped) := fitWhole numeral.whole
  let (significand, taken) := fitFraction whole numeral.fraction
  let exponent := (dropped : Int) - (taken : Int) + numeral.exponent.getD 0
  let magnitude := significand.toUInt64.toFloat
  let scaled :=
    if 0 ≤ exponent then
      scaleUp magnitude exponent.toNat
    else
      some (scaleDown magnitude exponent.natAbs)
  scaled.map fun x => Binary64.ofFloat (if numeral.negative then -x else x)

end Numeral

end SlotQuery
