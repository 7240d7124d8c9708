/-!
# Double precision numbers

A double precision number is kept as its sixty-four bits, so that two numbers
are equal exactly when they are stored alike: the two zeros are told apart.
-/

namespace SlotQuery

structure Binary64 where
  bits : UInt64
deriving DecidableEq, Repr, Inhabited

namespace Binary64

def ofFloat (x : Float) : Binary64 :=
  { bits := x.toBits }

def toFloat (x : Binary64) : Float :=
  Float.ofBits x.bits

def isNegative (x : Binary64) : Bool :=
  decide (Nat.pow 2 63 ≤ x.bits.toNat)

/-- The biased exponent field, eleven bits wide. -/
def exponentField (x : Binary64) : Nat :=
  x.bits.toNat / Nat.pow 2 52 % Nat.pow 2 11

/-- The fraction field, fifty-two bits wide. -/
def fractionField (x : Binary64) : Nat :=
  x.bits.toNat % Nat.pow 2 52

/-!
# The magnitude of a finite number

A finite number is a whole significand times a power of two. Normal numbers
have a leading bit that is not stored; subnormal ones share the least exponent.
-/

def significand (x : Binary64) : Nat :=
  if x.exponentField = 0 then x.fractionField else Nat.pow 2 52 + x.fractionField

def binaryExponent (x : Binary64) : Int :=
  if x.exponentField = 0 then -1074 else (x.exponentField : Int) - 1075

/-- The predecessor is only half a step away at the low end of a binade. -/
def atBinadeStart (x : Binary64) : Bool :=
  x.fractionField == 0 && decide (1 < x.exponentField)

end Binary64

end SlotQuery
