import SlotQuery.Json.Tree

/-!
# Printing JSON

Trees are printed without blanks. Quotes, backslashes and control characters
are escaped; all other characters stand for themselves.
-/

namespace SlotQuery
namespace Json

def escapedChar (c : Char) : List Char :=
  if c = '"' then
    ['\\', '"']
  else if c = '\\' then
    ['\\', '\\']
  else if c = '\n' then
    ['\\', 'n']
  else if c = '\t' then
    ['\\', 't']
  else if c = '\r' then
    ['\\', 'r']
  else if c = '\x08' then
    ['\\', 'b']
  else if c = '\x0C' then
    ['\\', 'f']
  else if c.toNat < 0x20 then
    ['\\', 'u', '0', '0', Nat.digitChar (c.toNat / 16), Nat.digitChar (c.toNat % 16)]
  else
    [c]

def stringText (s : String) : String :=
  "\"" ++ String.ofList (s.toList.flatMap escapedChar) ++ "\""

mutual

/-- Faults have no text of their own. -/
def text : Json → String
  | null => "null"
  | bool b => if b then "true" else "false"
  | number numeral => numeral.text
  | string s => stringText s
  | array items => "[" ++ itemsText items ++ "]"
  | object entries => "\x7b" ++ entriesText entries ++ "\x7d"
  | unreadable inside => text inside
  | fault => ""

def itemsText : List Json → String
  | [] => ""
  | [item] => text item
  | item :: next :: rest => text item ++ "," ++ itemsText (next :: rest)

def entriesText : List (Option String × Json) → String
  | [] => ""
  | [(name, content)] => stringText (name.getD "") ++ ":" ++ text content
  | (name, content) :: next :: rest =>
      stringText (name.getD "") ++ ":" ++ text content ++ "," ++ entriesText (next :: rest)

end

end Json
end SlotQuery
