import SlotQuery.Instant
import SlotQuery.Text.Blank
import SlotQuery.Text.Digits

/-!
# The written form of instants

A date, a time of day with up to nine fraction digits, and the offset of the
clock that shows it. Reading is generous with blanks and leading zeros; what is
read is kept in universal time.
-/

namespace SlotQuery
namespace Instant

/-!
# Reading

A reader takes a front part of the text and returns the rest. Blanks are passed
over in front of each number and each separator.
-/

def readSeparator (separator : Char) (cs : List Char) : Option (List Char) :=
  match dropBlanks cs with
  | c :: rest => if c = separator then some rest else none
  | [] => none

def readField (cs : List Char) : Option (Nat × List Char) :=
  Digits.read 2 (dropBlanks cs)

/-- Without a sign a year has at most four digits. -/
def readYear (cs : List Char) : Option (Int × List Char) :=
  match dropBlanks cs with
  | '-' :: rest => (Digits.readAll rest).map fun (n, rest) => (-(n : Int), rest)
  | '+' :: rest => (Digits.readAll rest).map fun (n, rest) => ((n : Int), rest)
  | rest => (Digits.read 4 rest).map fun (n, rest) => ((n : Int), rest)

def readDate (cs : List Char) : Option (Date × List Char) := do
  let (year, cs) ← readYear cs
  let cs ← readSeparator '-' cs
  let (month, cs) ← readField cs
  let cs ← readSeparator '-' cs
  let (day, cs) ← readField cs
  let date ← Date.ofNumbers? year month day
  return (date, cs)

/-- A point must be followed by digits; those after the ninth are cut. -/
def readFraction (cs : List Char) : Option (Nat × List Char) :=
  match cs with
  | '.' :: rest =>
      match Digits.take 9 rest with
      | ([], _) => none
      | (digits, after) =>
          some (Digits.toNat digits * Nat.pow 10 (9 - digits.length), after.dropWhile Char.isDigit)
  | _ => some (0, cs)

structure TimeOfDay where
  hour : Nat
  minute : Nat
  second : Nat
  nanosecond : Nat

def readTime (cs : List Char) : Option (TimeOfDay × List Char) := do
  let (hour, cs) ← readField cs
  let cs ← readSeparator ':' cs
  let (minute, cs) ← readField cs
  let cs ← readSeparator ':' cs
  let (second, cs) ← readField cs
  let (nanosecond, cs) ← readFraction cs
  if hour ≤ 23 ∧ minute ≤ 59 ∧ second ≤ 60 then
    return ({ hour, minute, second, nanosecond }, cs)
  else
    none

def twoDigits? : List Char → Option (Nat × List Char)
  | a :: b :: rest =>
      if a.isDigit && b.isDigit then some (Digits.toNat [a, b], rest) else none
  | _ => none

/-- Hours and minutes of two digits each; colons and blanks may stand between them. -/
def readMinutes (cs : List Char) : Option (Nat × List Char) := do
  let (hours, cs) ← twoDigits? cs
  let (minutes, cs) ← twoDigits? (cs.dropWhile fun c => c == ':' || isBlank c)
  if minutes ≤ 59 ∧ hours ≤ 23 then
    return (60 * hours + minutes, cs)
  else
    none

def isUniversalWord (a b c : Char) : Bool :=
  (a == 'U' || a == 'u') && (b == 'T' || b == 't') && (c == 'C' || c == 'c')

def readSignedOffset (cs : List Char) : Option (Int × List Char) :=
  match cs with
  | 'Z' :: rest => some (0, rest)
  | 'z' :: rest => some (0, rest)
  | '+' :: rest => (readMinutes rest).map fun (n, rest) => ((n : Int), rest)
  | '-' :: rest => (readMinutes rest).map fun (n, rest) => (-(n : Int), rest)
  | '\u2212' :: rest => (readMinutes rest).map fun (n, rest) => (-(n : Int), rest)
  | _ => none

/-- Minutes that the clock is ahead of universal time. -/
def readOffset (cs : List Char) : Option (Int × List Char) :=
  match cs with
  | a :: b :: c :: rest =>
      if isUniversalWord a b c then some (0, rest) else readSignedOffset cs
  | _ => readSignedOffset cs

def parse? (text : String) : Option Instant := do
  let (date, cs) ← readDate text.toList
  let cs ← match cs with
    | 'T' :: rest => some rest
    | 't' :: rest => some rest
    | ' ' :: rest => some rest
    | _ => none
  let (time, cs) ← readTime cs
  let (offset, cs) ← readOffset (dropBlanks cs)
  if (dropBlanks cs).isEmpty then
    let shown : Instant :=
      { date := date
        minuteOfDay := 60 * time.hour + time.minute
        second := time.second
        nanosecond := time.nanosecond }
    shown.behind? offset
  else
    none

/-!
# Printing

The fraction has no digit, three, six or nine of them, the fewest that show it
exactly. Years outside four digits carry their sign.
-/

def yearText (year : Int) : String :=
  if 0 ≤ year ∧ year ≤ 9999 then
    Digits.padded 4 year.toNat
  else
    (if year < 0 then "-" else "+") ++ Digits.padded 4 year.natAbs

def fractionText (nanosecond : Nat) : String :=
  if nanosecond = 0 then
    ""
  else if nanosecond % 1000000 = 0 then
    "." ++ Digits.padded 3 (nanosecond / 1000000)
  else if nanosecond % 1000 = 0 then
    "." ++ Digits.padded 6 (nanosecond / 1000)
  else
    "." ++ Digits.padded 9 nanosecond

/-- The text up to the mark of universal time, which the caller chooses. -/
def clockText (instant : Instant) : String :=
  yearText instant.date.year ++ "-" ++ Digits.padded 2 instant.date.month ++ "-" ++
    Digits.padded 2 instant.date.day ++ "T" ++ Digits.padded 2 (instant.minuteOfDay / 60) ++ ":" ++
    Digits.padded 2 (instant.minuteOfDay % 60) ++ ":" ++ Digits.padded 2 instant.second ++
    fractionText instant.nanosecond

/-- The form used in documents. -/
def text (instant : Instant) : String :=
  instant.clockText ++ "Z"

/-- The form used in diagnostics, with a numeric offset. -/
def offsetText (instant : Instant) : String :=
  instant.clockText ++ "+00:00"

end Instant
end SlotQuery
