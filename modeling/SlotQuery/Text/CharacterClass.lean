import SlotQuery.Text.Alphabetic
import SlotQuery.Text.Numeric

/-!
# Character classes

Membership of a character in a class that is given by ascending ranges of code
points. The search stops at the first range that begins beyond the character.
-/

namespace SlotQuery

def inRanges (n : Nat) : List (Nat × Nat) → Bool
  | [] => false
  | (low, high) :: rest =>
      if n < low then
        false
      else if n ≤ high then
        true
      else
        inRanges n rest

def isAlphabetic (c : Char) : Bool :=
  inRanges c.toNat alphabeticRanges

def isNumeric (c : Char) : Bool :=
  inRanges c.toNat numericRanges

def isAlphanumeric (c : Char) : Bool :=
  isAlphabetic c || isNumeric c

end SlotQuery
