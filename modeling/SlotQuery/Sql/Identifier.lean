import SlotQuery.Text.CharacterClass

/-!
# Identifiers

A name is written bare when it is a plain word: not empty, made of letters,
digits and underscores, not starting with a digit, and not reserved. Any other
name stands between quotes, in which the closing quote is written twice.
-/

namespace SlotQuery
namespace Identifier

/-!
# Reserved words

Case does not count. A reserved word is spelled in ASCII, so the only
characters that can take part in one are those whose lower case is ASCII: the
capital letters and the Kelvin sign.
-/

def reservedWords : List String :=
  ["order", "group", "user", "table", "select", "from", "where", "join", "left", "right",
   "inner", "outer", "on", "and", "or", "not", "null", "true", "false", "limit", "offset",
   "as", "in", "is", "like", "between", "having", "union", "all", "distinct", "case", "when",
   "then", "else", "end", "intersect", "except", "index", "key", "primary", "default", "check"]

def foldCase (c : Char) : Char :=
  if c = '\u212A' then 'k' else c.toLower

def isReserved (name : List Char) : Bool :=
  reservedWords.contains (String.ofList (name.map foldCase))

/-!
# Quoting

The two quotes are given by the dialect. Only the closing one is doubled.
-/

def isWordCharacter (c : Char) : Bool :=
  isAlphanumeric c || c == '_'

def startsWithNumeral : List Char → Bool
  | [] => false
  | c :: _ => isNumeric c

def needsQuotes (name : List Char) : Bool :=
  isReserved name || name.isEmpty || !name.all isWordCharacter || startsWithNumeral name

/-- Writes a character twice wherever it occurs. -/
def doubled (quote : Char) : List Char → List Char
  | [] => []
  | c :: rest => if c = quote then c :: c :: doubled quote rest else c :: doubled quote rest

def quotedChars (opening closing : Char) (name : List Char) : List Char :=
  if needsQuotes name then
    opening :: (doubled closing name ++ [closing])
  else
    name

def quoted (opening closing : Char) (name : String) : String :=
  String.ofList (quotedChars opening closing name.toList)

/-- Between double quotes, as the standard has it. -/
def standard (name : String) : String :=
  quoted '"' '"' name

end Identifier

/-!
# String literals

A text between single quotes, in which a single quote is written twice.
-/

def stringLiteral (value : String) : String :=
  String.ofList ('\x27' :: (Identifier.doubled '\x27' value.toList ++ ['\x27']))

end SlotQuery
