import SlotQuery.Json.Tree
import SlotQuery.Text.Digits

/-!
# Reading JSON

A text is read from front to back into a tree. Where it stops being JSON, the
tree gets a fault and the reading ends. Containers nested too deeply, and
strings with half of a surrogate pair, are kept apart: they may be passed over.
-/

namespace SlotQuery
namespace Json

/-!
# Strings

A character beyond the first plane may be written as two escapes, a high and a
low surrogate. One without the other leaves the string without a value.
-/

def isHexDigit (c : Char) : Bool :=
  c.isDigit || (decide ('a' ≤ c) && decide (c ≤ 'f')) || (decide ('A' ≤ c) && decide (c ≤ 'F'))

def hexValue (c : Char) : Nat :=
  if c.isDigit then
    c.toNat - '0'.toNat
  else if decide ('a' ≤ c) then
    c.toNat - 'a'.toNat + 10
  else
    c.toNat - 'A'.toNat + 10

def fourHexDigits? (a b c d : Char) : Option Nat :=
  if isHexDigit a && isHexDigit b && isHexDigit c && isHexDigit d then
    some (4096 * hexValue a + 256 * hexValue b + 16 * hexValue c + hexValue d)
  else
    none

def simpleEscape? (c : Char) : Option Char :=
  if c = '"' then
    some '"'
  else if c = '\\' then
    some '\\'
  else if c = '/' then
    some '/'
  else if c = 'b' then
    some '\x08'
  else if c = 'f' then
    some '\x0C'
  else if c = 'n' then
    some '\n'
  else if c = 'r' then
    some '\r'
  else if c = 't' then
    some '\t'
  else
    none

/-- What was read of a string so far, with the characters in reverse. -/
structure PartialString where
  reversed : List Char
  /-- The high surrogate that waits for its other half. -/
  pending : Option Nat
  /-- Whether every surrogate so far had its other half. -/
  whole : Bool

namespace PartialString

def empty : PartialString :=
  { reversed := [], pending := none, whole := true }

def push (read : PartialString) (c : Char) : PartialString :=
  { reversed := c :: read.reversed
    pending := none
    whole := read.whole && read.pending.isNone }

def pushUnit (read : PartialString) (unit : Nat) : PartialString :=
  if 0xDC00 ≤ unit ∧ unit ≤ 0xDFFF then
    match read.pending with
    | some high =>
        { reversed :=
            Char.ofNat (0x10000 + 1024 * (high - 0xD800) + (unit - 0xDC00)) :: read.reversed
          pending := none
          whole := read.whole }
    | none => { read with whole := false }
  else if 0xD800 ≤ unit ∧ unit ≤ 0xDBFF then
    { read with pending := some unit, whole := read.whole && read.pending.isNone }
  else
    read.push (Char.ofNat unit)

def finish (read : PartialString) : Option String :=
  if read.whole && read.pending.isNone then
    some (String.ofList read.reversed.reverse)
  else
    none

end PartialString

/-- The string after its opening quote; the value is missing when a surrogate stands alone. -/
def readString : List Char → PartialString → Option (Option String × List Char)
  | [], _ => none
  | '"' :: rest, read => some (read.finish, rest)
  | '\\' :: 'u' :: a :: b :: c :: d :: rest, read =>
      match fourHexDigits? a b c d with
      | some unit => readString rest (read.pushUnit unit)
      | none => none
  | '\\' :: c :: rest, read =>
      match simpleEscape? c with
      | some plain => readString rest (read.push plain)
      | none => none
  | c :: rest, read =>
      if c = '\\' || decide (c.toNat < 0x20) then none else readString rest (read.push c)

/-!
# Numbers

No leading zeros, and digits on both sides of a point.
-/

def readFraction (cs : List Char) : Option (List Nat × List Char) :=
  match cs with
  | '.' :: rest =>
      match rest.span Char.isDigit with
      | ([], _) => none
      | (digits, after) => some (digits.map Digits.value, after)
  | _ => some ([], cs)

def readExponentDigits (negative : Bool) (cs : List Char) : Option (Option Int × List Char) :=
  (Digits.readAll cs).map fun (n, after) =>
    (some (if negative then -(n : Int) else (n : Int)), after)

def readExponent (cs : List Char) : Option (Option Int × List Char) :=
  match cs with
  | c :: rest =>
      if c = 'e' ∨ c = 'E' then
        match rest with
        | '-' :: after => readExponentDigits true after
        | '+' :: after => readExponentDigits false after
        | _ => readExponentDigits false rest
      else
        some (none, cs)
  | [] => some (none, [])

def readWhole (cs : List Char) : Option (Nat × List Char) :=
  match cs.span Char.isDigit with
  | ([], _) => none
  | (first :: more, after) =>
      if first = '0' && !more.isEmpty then
        none
      else
        some (Digits.toNat (first :: more), after)

def readNumeral (negative : Bool) (cs : List Char) : Option (Numeral × List Char) := do
  let (whole, cs) ← readWhole cs
  let (fraction, cs) ← readFraction cs
  let (exponent, cs) ← readExponent cs
  return ({ negative, whole, fraction, exponent }, cs)

/-!
# Values

A reader returns a tree and the rest of the text, and no rest when the text
went wrong. Every call takes at least one character, so a text never needs more
fuel than its length.
-/

def isSpace (c : Char) : Bool :=
  c == ' ' || c == '\t' || c == '\n' || c == '\r'

def dropSpace (cs : List Char) : List Char :=
  cs.dropWhile isSpace

/-- The deepest level on which a container can be read. -/
def deepestLevel : Nat := 127

def atLevel (level : Nat) (tree : Json) : Json :=
  if deepestLevel < level then .unreadable tree else tree

def stringTree : Option String → Json
  | some s => .string s
  | none => .unreadable .null

mutual

def readValue : Nat → Nat → List Char → Json × Option (List Char)
  | 0, _, _ => (.fault, none)
  | fuel + 1, level, cs =>
      match dropSpace cs with
      | '{' :: rest =>
          let (entries, after) := readEntries fuel (level + 1) true rest
          (atLevel (level + 1) (.object entries), after)
      | '[' :: rest =>
          let (items, after) := readItems fuel (level + 1) true rest
          (atLevel (level + 1) (.array items), after)
      | '"' :: rest =>
          match readString rest .empty with
          | some (s, after) => (stringTree s, some after)
          | none => (.fault, none)
      | '-' :: rest =>
          match readNumeral true rest with
          | some (numeral, after) => (.number numeral, some after)
          | none => (.fault, none)
      | 'n' :: 'u' :: 'l' :: 'l' :: rest => (.null, some rest)
      | 't' :: 'r' :: 'u' :: 'e' :: rest => (.bool true, some rest)
      | 'f' :: 'a' :: 'l' :: 's' :: 'e' :: rest => (.bool false, some rest)
      | other =>
          match readNumeral false other with
          | some (numeral, after) => (.number numeral, some after)
          | none => (.fault, none)

/-- The items from here on; only in front of the first one may the array end without a comma. -/
def readItems : Nat → Nat → Bool → List Char → List Json × Option (List Char)
  | 0, _, _, _ => ([.fault], none)
  | fuel + 1, level, isFirst, cs =>
      match isFirst, dropSpace cs with
      | _, ']' :: rest => ([], some rest)
      | true, other => readItem fuel level other
      | false, ',' :: rest => readItem fuel level rest
      | false, _ => ([.fault], none)

def readItem : Nat → Nat → List Char → List Json × Option (List Char)
  | 0, _, _ => ([.fault], none)
  | fuel + 1, level, cs =>
      match readValue fuel level cs with
      | (item, some after) =>
          let (items, rest) := readItems fuel level false after
          (item :: items, rest)
      | (item, none) => ([item], none)

/-- Where a name cannot be read, a fault without a name is left. -/
def readEntries : Nat → Nat → Bool → List Char → List (Option String × Json) × Option (List Char)
  | 0, _, _, _ => ([(none, .fault)], none)
  | fuel + 1, level, isFirst, cs =>
      match isFirst, dropSpace cs with
      | _, '}' :: rest => ([], some rest)
      | true, other => readEntry fuel level other
      | false, ',' :: rest => readEntry fuel level rest
      | false, _ => ([(none, .fault)], none)

def readEntry : Nat → Nat → List Char → List (Option String × Json) × Option (List Char)
  | 0, _, _ => ([(none, .fault)], none)
  | fuel + 1, level, cs =>
      match dropSpace cs with
      | '"' :: rest =>
          match readString rest .empty with
          | some (name, after) =>
              match dropSpace after with
              | ':' :: value =>
                  match readValue fuel level value with
                  | (content, some after) =>
                      let (entries, rest) := readEntries fuel level false after
                      ((name, content) :: entries, rest)
                  | (content, none) => ([(name, content)], none)
              | _ => ([(name, .fault)], none)
          | none => ([(none, .fault)], none)
      | _ => ([(none, .fault)], none)

end

/-- A whole text: its tree, and whether nothing but blanks follows it. -/
structure Document where
  root : Json
  isComplete : Bool
deriving Inhabited

def Document.ofText (text : String) : Document :=
  let cs := text.toList
  match readValue (3 * cs.length + 3) 0 cs with
  | (root, some after) => { root := root, isComplete := (dropSpace after).isEmpty }
  | (root, none) => { root := root, isComplete := false }

end Json
end SlotQuery
