import SlotQuery.Json.Reader

/-!
# TOML scalars

Strings in their four spellings, integers, floats, booleans, and dates with or
without a time. Dates and floats are recognised but have no content here, since
no record holds one.
-/

namespace SlotQuery
namespace Toml

/-!
# Characters
-/

def isSpace (c : Char) : Bool :=
  c == ' ' || c == '\t'

def dropSpace (cs : List Char) : List Char :=
  cs.dropWhile isSpace

/-- The text after a line break at the front. -/
def afterNewline? : List Char → Option (List Char)
  | '\n' :: rest => some rest
  | '\r' :: '\n' :: rest => some rest
  | _ => none

/-- Characters that may stand for themselves in strings of one line and in comments. -/
def isPlain (c : Char) : Bool :=
  c == '\t' || (decide (0x20 ≤ c.toNat) && c.toNat != 0x7F)

/-!
# Strings

Basic strings have escapes, literal strings have none. Strings between three
quotes may span lines; a line break right after the opening is dropped, and up
to two quotes may stand right before the closing.
-/

def ofScalarValue? (n : Nat) : Option Char :=
  if n < 0xD800 ∨ (0xE000 ≤ n ∧ n ≤ 0x10FFFF) then some (Char.ofNat n) else none

def hexChar? (digits : List Char) : Option Char :=
  if digits.all Json.isHexDigit then
    ofScalarValue? (digits.foldl (fun n c => 16 * n + Json.hexValue c) 0)
  else
    none

def simpleEscape? (c : Char) : Option Char :=
  if c = '/' then none else Json.simpleEscape? c

/-- The character that an escape stands for, after its backslash. -/
def readEscape (cs : List Char) : Option (Char × List Char) :=
  match cs with
  | 'u' :: rest =>
      if rest.length < 4 then none else (hexChar? (rest.take 4)).map fun c => (c, rest.drop 4)
  | 'U' :: rest =>
      if rest.length < 8 then none else (hexChar? (rest.take 8)).map fun c => (c, rest.drop 8)
  | c :: rest => (simpleEscape? c).map fun plain => (plain, rest)
  | [] => none

def readBasic : Nat → List Char → List Char → Option (String × List Char)
  | 0, _, _ => none
  | _ + 1, [], _ => none
  | fuel + 1, c :: rest, reversed =>
      if c = '"' then
        some (String.ofList reversed.reverse, rest)
      else if c = '\\' then
        match readEscape rest with
        | some (plain, after) => readBasic fuel after (plain :: reversed)
        | none => none
      else if isPlain c then
        readBasic fuel rest (c :: reversed)
      else
        none

def readLiteral : List Char → List Char → Option (String × List Char)
  | [], _ => none
  | c :: rest, reversed =>
      if c = '\x27' then
        some (String.ofList reversed.reverse, rest)
      else if isPlain c then
        readLiteral rest (c :: reversed)
      else
        none

/-- How many quotes belong to the text when the closing ones stand here. -/
def closing? (quote : Char) (cs : List Char) : Option (Nat × List Char) :=
  let run := (cs.takeWhile (· == quote)).length
  if run < 3 then
    none
  else
    let kept := min (run - 3) 2
    some (kept, cs.drop (kept + 3))

def dropSpaceAndNewlines : List Char → List Char
  | [] => []
  | '\r' :: '\n' :: rest => dropSpaceAndNewlines rest
  | c :: rest => if isSpace c || c == '\n' then dropSpaceAndNewlines rest else c :: rest

/-- The text after a backslash that ends its line, without the blanks that follow. -/
def afterContinuation? (cs : List Char) : Option (List Char) :=
  (afterNewline? (dropSpace cs)).map dropSpaceAndNewlines

def finishQuoted (quote : Char) (kept : Nat) (reversed : List Char) : String :=
  String.ofList (reversed.reverse ++ List.replicate kept quote)

def readLongBasic : Nat → List Char → List Char → Option (String × List Char)
  | 0, _, _ => none
  | fuel + 1, cs, reversed =>
      match closing? '"' cs with
      | some (kept, rest) => some (finishQuoted '"' kept reversed, rest)
      | none =>
          match afterNewline? cs with
          | some rest => readLongBasic fuel rest ('\n' :: reversed)
          | none =>
              match cs with
              | [] => none
              | c :: rest =>
                  if c = '\\' then
                    match afterContinuation? rest with
                    | some after => readLongBasic fuel after reversed
                    | none =>
                        match readEscape rest with
                        | some (plain, after) => readLongBasic fuel after (plain :: reversed)
                        | none => none
                  else if isPlain c then
                    readLongBasic fuel rest (c :: reversed)
                  else
                    none

def readLongLiteral : Nat → List Char → List Char → Option (String × List Char)
  | 0, _, _ => none
  | fuel + 1, cs, reversed =>
      match closing? '\x27' cs with
      | some (kept, rest) => some (finishQuoted '\x27' kept reversed, rest)
      | none =>
          match afterNewline? cs with
          | some rest => readLongLiteral fuel rest ('\n' :: reversed)
          | none =>
              match cs with
              | [] => none
              | c :: rest =>
                  if isPlain c then readLongLiteral fuel rest (c :: reversed) else none

def dropNewline (cs : List Char) : List Char :=
  (afterNewline? cs).getD cs

/-- A string in any of its spellings, from its first quote on. -/
def readString (cs : List Char) : Option (String × List Char) :=
  match cs with
  | '"' :: '"' :: '"' :: rest => readLongBasic (rest.length + 1) (dropNewline rest) []
  | '"' :: rest => readBasic (rest.length + 1) rest []
  | '\x27' :: '\x27' :: '\x27' :: rest => readLongLiteral (rest.length + 1) (dropNewline rest) []
  | '\x27' :: rest => readLiteral rest []
  | _ => none

/-!
# Numbers

Single underscores may stand between digits. Decimal numbers have no leading
zeros; numbers in other bases have no sign.
-/

/-- The digits of a group, without the underscores between them. -/
def ungrouped? (isDigit : Char → Bool) : List Char → Option (List Char)
  | [] => none
  | [c] => if isDigit c then some [c] else none
  | c :: '_' :: rest => if isDigit c then (ungrouped? isDigit rest).map (c :: ·) else none
  | c :: next :: rest =>
      if isDigit c then (ungrouped? isDigit (next :: rest)).map (c :: ·) else none

def decimalDigits? (cs : List Char) : Option (List Char) :=
  match ungrouped? Char.isDigit cs with
  | some ('0' :: _ :: _) => none
  | digits => digits

def splitSign : List Char → Bool × List Char
  | '-' :: rest => (true, rest)
  | '+' :: rest => (false, rest)
  | cs => (false, cs)

def inBase (base : Nat) (digits : List Char) : Int :=
  (digits.foldl (fun n c => base * n + Json.hexValue c) 0 : Nat)

def isOctal (c : Char) : Bool :=
  decide ('0' ≤ c) && decide (c ≤ '7')

def isBinary (c : Char) : Bool :=
  c == '0' || c == '1'

def integer? (token : List Char) : Option Int :=
  match token with
  | '0' :: 'x' :: rest => (ungrouped? Json.isHexDigit rest).map (inBase 16)
  | '0' :: 'o' :: rest => (ungrouped? isOctal rest).map (inBase 8)
  | '0' :: 'b' :: rest => (ungrouped? isBinary rest).map (inBase 2)
  | _ =>
      let (negative, cs) := splitSign token
      (decimalDigits? cs).map fun digits =>
        if negative then -(inBase 10 digits) else inBase 10 digits

def inInt64 (n : Int) : Bool :=
  decide (-9223372036854775808 ≤ n) && decide (n ≤ 9223372036854775807)

/-- Cuts a token in front of the first character of a kind. -/
def cutAt (stop : Char → Bool) (cs : List Char) : List Char × List Char :=
  cs.span fun c => !stop c

def isExponentMark (c : Char) : Bool :=
  c == 'e' || c == 'E'

def exponent? : List Char → Option Int
  | [] => some 0
  | _ :: cs =>
      let (negative, digits) := splitSign cs
      (ungrouped? Char.isDigit digits).map fun digits =>
        if negative then -(Digits.toNat digits : Int) else Digits.toNat digits

/-- Numbers from here on round to infinity. -/
def overflowBound : Nat :=
  Nat.pow 2 1024 - Nat.pow 2 970

/-- A number too large for double precision is refused, unless it is negative. -/
def overflows (digits : List Char) (exponent : Int) : Bool :=
  let n := Digits.toNat digits
  let size := (Nat.toDigits 10 n).length + exponent
  if n = 0 ∨ size < 309 then
    false
  else if 309 < size then
    true
  else if 0 ≤ exponent then
    decide (overflowBound ≤ n * Nat.pow 10 exponent.toNat)
  else
    decide (overflowBound * Nat.pow 10 (-exponent).toNat ≤ n)

def isSpecialFloat (cs : List Char) : Bool :=
  cs == ['i', 'n', 'f'] || cs == ['n', 'a', 'n']

def isFloat (token : List Char) : Bool :=
  let (negative, cs) := splitSign token
  if isSpecialFloat cs then
    true
  else
    let (mantissa, power) := cutAt isExponentMark cs
    let (whole, point) := cutAt (· == '.') mantissa
    let fraction? :=
      match point with
      | [] => if power.isEmpty then none else some []
      | _ :: digits => ungrouped? Char.isDigit digits
    match decimalDigits? whole, fraction?, exponent? power with
    | some whole, some fraction, some exponent =>
        negative || !overflows (whole ++ fraction) (exponent - (fraction.length : Int))
    | _, _, _ => false

/-!
# Dates and times
-/

def twoDigits? : List Char → Option (Nat × List Char)
  | a :: b :: rest =>
      if a.isDigit && b.isDigit then some (Digits.toNat [a, b], rest) else none
  | _ => none

def afterChar? (c : Char) : List Char → Option (List Char)
  | d :: rest => if d = c then some rest else none
  | [] => none

def daysInMonth (year month : Nat) : Nat :=
  if month = 2 then
    if year % 4 == 0 && (year % 100 != 0 || year % 400 == 0) then 29 else 28
  else if month = 4 ∨ month = 6 ∨ month = 9 ∨ month = 11 then
    30
  else
    31

/-- The text after a date at the front. -/
def afterDate? (cs : List Char) : Option (List Char) := do
  let (century, cs) ← twoDigits? cs
  let (yearInCentury, cs) ← twoDigits? cs
  let cs ← afterChar? '-' cs
  let (month, cs) ← twoDigits? cs
  let cs ← afterChar? '-' cs
  let (day, cs) ← twoDigits? cs
  if 1 ≤ month ∧ month ≤ 12 ∧ 1 ≤ day ∧
      day ≤ daysInMonth (100 * century + yearInCentury) month then
    return cs
  else
    none

def afterFraction? (cs : List Char) : Option (List Char) :=
  match cs with
  | '.' :: rest =>
      match rest.span Char.isDigit with
      | ([], _) => none
      | (_, after) => some after
  | _ => some cs

/-- The text after a time of day at the front. -/
def afterTime? (cs : List Char) : Option (List Char) := do
  let (hour, cs) ← twoDigits? cs
  let cs ← afterChar? ':' cs
  let (minute, cs) ← twoDigits? cs
  let cs ← afterChar? ':' cs
  let (second, cs) ← twoDigits? cs
  let cs ← afterFraction? cs
  if hour ≤ 23 ∧ minute ≤ 59 ∧ second ≤ 60 then return cs else none

def isOffset (cs : List Char) : Bool :=
  match cs with
  | [] => true
  | ['Z'] => true
  | ['z'] => true
  | sign :: rest =>
      if sign = '+' ∨ sign = '-' then
        match twoDigits? rest with
        | some (hour, ':' :: minutes) =>
            match twoDigits? minutes with
            | some (minute, []) => decide (hour ≤ 23) && decide (minute ≤ 59)
            | _ => false
        | _ => false
      else
        false

def isTimeWithOffset (cs : List Char) : Bool :=
  match afterTime? cs with
  | some rest => isOffset rest
  | none => false

def isDate (token : List Char) : Bool :=
  match afterDate? token with
  | some rest => rest.isEmpty
  | none => false

/-- A date, a time of day, or both in one word. -/
def isDateOrTime (token : List Char) : Bool :=
  match afterDate? token with
  | some [] => true
  | some (mark :: rest) => (mark == 'T' || mark == 't') && isTimeWithOffset rest
  | none =>
      match afterTime? token with
      | some rest => rest.isEmpty
      | none => false

/-!
# Words

Everything but strings and brackets is one word, which ends at a blank or a
punctuation mark. Only a date may be followed by a blank and its time.
-/

def endsWord (c : Char) : Bool :=
  isSpace c || c == '\n' || c == '\r' || c == '#' || c == ',' || c == ']' || c == '}'

/-- A value that is there but not to be read. -/
def unreadValue : Json :=
  .unreadable .null

def word? (token : List Char) : Option Json :=
  if token = ['t', 'r', 'u', 'e'] then
    some (.bool true)
  else if token = ['f', 'a', 'l', 's', 'e'] then
    some (.bool false)
  else if isDateOrTime token || isFloat token then
    some unreadValue
  else
    match integer? token with
    | some n => if inInt64 n then some (.number (.ofInt n)) else none
    | none => none

def startsWithDigit : List Char → Bool
  | c :: _ => c.isDigit
  | [] => false

def readWord (cs : List Char) : Option (Json × List Char) :=
  let (token, after) := cs.span fun c => !endsWord c
  match isDate token, after with
  | true, ' ' :: rest =>
      if startsWithDigit rest then
        let (time, after) := rest.span fun c => !endsWord c
        if isTimeWithOffset time then some (unreadValue, after) else none
      else
        some (unreadValue, after)
  | _, _ => (word? token).map fun value => (value, after)

end Toml
end SlotQuery
