import SlotQuery.Number.Numeral
import SlotQuery.Number.Shortest

/-!
# Styles of writing numbers

A style turns the shortest decimal of a number into a numeral: it says which
positions of the decimal point are written without an exponent, and whether a
whole number keeps a point.
-/

namespace SlotQuery

structure NumberStyle where
  tie : Tie
  /-- Positions of the decimal point that are written without an exponent. -/
  positional : Int → Bool
  /-- The digits after the point of a whole number. -/
  wholeFraction : List Nat

namespace NumberStyle

def digitsOf (n : Nat) : List Nat :=
  (Nat.toDigits 10 n).map fun c => c.toNat - '0'.toNat

def ofDigits (digits : List Nat) : Nat :=
  digits.foldl (fun n digit => 10 * n + digit) 0

def positionalNumeral (style : NumberStyle) (negative : Bool) (d : Decimal) : Numeral :=
  let digits := digitsOf d.coefficient
  let point := (digits.length : Int) + d.exponent
  if 0 ≤ d.exponent then
    { negative := negative
      whole := d.coefficient * Nat.pow 10 d.exponent.toNat
      fraction := style.wholeFraction
      exponent := none }
  else if 0 < point then
    { negative := negative
      whole := ofDigits (digits.take point.toNat)
      fraction := digits.drop point.toNat
      exponent := none }
  else
    { negative := negative
      whole := 0
      fraction := List.replicate (-point).toNat 0 ++ digits
      exponent := none }

/-- One digit before the point. -/
def exponentNumeral (negative : Bool) (d : Decimal) : Numeral :=
  let digits := digitsOf d.coefficient
  { negative := negative
    whole := ofDigits (digits.take 1)
    fraction := digits.drop 1
    exponent := some ((digits.length : Int) + d.exponent - 1) }

def numeral (style : NumberStyle) (x : Binary64) : Numeral :=
  let d := x.shortest style.tie
  let point := (digitCount d.coefficient : Int) + d.exponent
  if d.coefficient = 0 || style.positional point then
    style.positionalNumeral x.isNegative d
  else
    exponentNumeral x.isNegative d

def text (style : NumberStyle) (x : Binary64) : String :=
  (style.numeral x).text

/-!
# The two styles

Documents keep a fraction on whole numbers and turn to exponents outside
`1e-5 ≤ |x| < 1e16`. Diagnostics never write an exponent.
-/

def document : NumberStyle :=
  { tie := .toEven
    positional := fun point => decide (-4 ≤ point) && decide (point ≤ 16)
    wholeFraction := [0] }

def plain : NumberStyle :=
  { tie := .up
    positional := fun _ => true
    wholeFraction := [] }

end NumberStyle

end SlotQuery
