/-!
# Decimal digits

Runs of ASCII digits as numbers, and numbers as runs of digits of a given
width.
-/

namespace SlotQuery
namespace Digits

def value (c : Char) : Nat :=
  c.toNat - '0'.toNat

def toNat (digits : List Char) : Nat :=
  digits.foldl (fun n c => 10 * n + value c) 0

/-- The longest beginning of at most `limit` digits, and what follows it. -/
def take : Nat → List Char → List Char × List Char
  | 0, cs => ([], cs)
  | _ + 1, [] => ([], [])
  | limit + 1, c :: rest =>
      if c.isDigit then
        let (digits, after) := take limit rest
        (c :: digits, after)
      else
        ([], c :: rest)

/-- The number at the front, written with one to `limit` digits. -/
def read (limit : Nat) (cs : List Char) : Option (Nat × List Char) :=
  match take limit cs with
  | ([], _) => none
  | (digits, after) => some (toNat digits, after)

/-- The number at the front, with all of its digits. -/
def readAll (cs : List Char) : Option (Nat × List Char) :=
  match cs.span Char.isDigit with
  | ([], _) => none
  | (digits, after) => some (toNat digits, after)

/-- Zeros are put in front until the text has the width. -/
def padded (width n : Nat) : String :=
  let digits := Nat.toDigits 10 n
  String.ofList (List.replicate (width - digits.length) '0' ++ digits)

end Digits
end SlotQuery
