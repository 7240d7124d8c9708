import SlotQuery.Toml.Scalar
import SlotQuery.Toml.Table

/-!
# Reading TOML

A document is a sequence of lines: headers, keys with values, comments. A text
that is not TOML has no tree at all.
-/

namespace SlotQuery
namespace Toml

/-!
# Keys

A key is a word or a short string. Several of them with dots in between lead
into tables.
-/

def isKeyCharacter (c : Char) : Bool :=
  c.isAlphanum || c == '_' || c == '-'

def readSimpleKey (cs : List Char) : Option (String × List Char) :=
  match cs with
  | '"' :: rest => readBasic (rest.length + 1) rest []
  | '\x27' :: rest => readLiteral rest []
  | _ =>
      match cs.span isKeyCharacter with
      | ([], _) => none
      | (key, after) => some (String.ofList key, after)

def readKeys : Nat → List Char → Option (List String × List Char)
  | 0, _ => none
  | fuel + 1, cs =>
      match readSimpleKey (dropSpace cs) with
      | none => none
      | some (key, after) =>
          match dropSpace after with
          | '.' :: rest => (readKeys fuel rest).map fun (keys, after) => (key :: keys, after)
          | other => some ([key], other)

/-- The deepest nesting of keys and values. -/
def depthLimit : Nat := 79

/-- A dotted key: the way to it, and its last part. -/
def readKey (cs : List Char) : Option (List String × String × List Char) :=
  match readKeys (depthLimit + 1) cs with
  | none => none
  | some (keys, after) =>
      if keys.length ≤ depthLimit then
        keys.getLast?.map fun key => (keys.dropLast, key, after)
      else
        none

/-!
# Blanks between lines
-/

/-- The text after the rest of a comment, up to the line break. -/
def dropComment (cs : List Char) : List Char :=
  match cs with
  | '#' :: rest => rest.dropWhile isPlain
  | _ => cs

/-- Blanks, line breaks and comments, as they may stand in arrays. -/
def dropBlankLines : Nat → List Char → List Char
  | 0, cs => cs
  | fuel + 1, cs =>
      let cs := dropComment (dropSpace cs)
      match afterNewline? cs with
      | some rest => dropBlankLines fuel rest
      | none => cs

/-- The text after the end of a line. -/
def afterLine? (cs : List Char) : Option (List Char) :=
  match dropComment (dropSpace cs) with
  | [] => some []
  | cs => afterNewline? cs

/-!
# Values

Arrays may span lines and end in a comma; tables within a line may not.
-/

mutual

def readValue : Nat → Nat → List Char → Option (Json × List Char)
  | 0, _, _ => none
  | fuel + 1, depth, cs =>
      match cs with
      | '[' :: rest =>
          if depthLimit ≤ depth then
            none
          else
            (readItems fuel (depth + 1) rest).map fun (items, after) => (.array items, after)
      | '{' :: rest =>
          if depthLimit ≤ depth then
            none
          else
            match dropSpace rest with
            | '}' :: after => some (.object [], after)
            | _ =>
                (readInline fuel (depth + 1) rest []).map fun (entries, after) =>
                  (.object (entriesToJson entries), after)
      | c :: _ =>
          if c = '"' ∨ c = '\x27' then
            (readString cs).map fun (s, after) => (.string s, after)
          else
            readWord cs
      | [] => none

def readItems : Nat → Nat → List Char → Option (List Json × List Char)
  | 0, _, _ => none
  | fuel + 1, depth, cs =>
      match dropBlankLines cs.length cs with
      | ']' :: rest => some ([], rest)
      | start =>
          match readValue fuel depth start with
          | none => none
          | some (item, after) =>
              match dropBlankLines after.length after with
              | ']' :: rest => some ([item], rest)
              | ',' :: rest =>
                  (readItems fuel depth rest).map fun (items, after) => (item :: items, after)
              | _ => none

def readInline : Nat → Nat → List Char → Entries → Option (Entries × List Char)
  | 0, _, _, _ => none
  | fuel + 1, depth, cs, entries =>
      match readKey cs with
      | some (path, key, '=' :: after) =>
          match readValue fuel depth (dropSpace after) with
          | none => none
          | some (content, after) =>
              match addValue path key content .header entries with
              | none => none
              | some entries =>
                  match dropSpace after with
                  | '}' :: rest => some (entries, rest)
                  | ',' :: rest => readInline fuel depth rest entries
                  | _ => none
      | _ => none

end

/-!
# Lines
-/

/-- What has been read: the table of the document, and which of its tables is open. -/
structure Progress where
  entries : Entries
  opened : List String

def readKeyLine (cs : List Char) (progress : Progress) : Option (Progress × List Char) :=
  match readKey cs with
  | some (path, key, '=' :: after) => do
      let (content, after) ← readValue (3 * after.length + 3) 0 (dropSpace after)
      let entries ← addUnder progress.opened path key content progress.entries
      let rest ← afterLine? after
      return ({ progress with entries := entries }, rest)
  | _ => none

def readHeaderLine (cs : List Char) (progress : Progress) : Option (Progress × List Char) :=
  match readKey cs with
  | some (path, key, ']' :: after) => do
      let entries ← openTable path key progress.entries
      let rest ← afterLine? after
      return ({ entries := entries, opened := path ++ [key] }, rest)
  | _ => none

def readListedLine (cs : List Char) (progress : Progress) : Option (Progress × List Char) :=
  match readKey cs with
  | some (path, key, ']' :: ']' :: after) => do
      let entries ← openListed path key progress.entries
      let rest ← afterLine? after
      return ({ entries := entries, opened := path ++ [key] }, rest)
  | _ => none

def readLine (cs : List Char) (progress : Progress) : Option (Progress × List Char) :=
  match cs with
  | '[' :: '[' :: rest => readListedLine rest progress
  | '[' :: rest => readHeaderLine rest progress
  | _ => readKeyLine cs progress

def readLines : Nat → List Char → Progress → Option Progress
  | 0, _, _ => none
  | fuel + 1, cs, progress =>
      match dropSpace cs with
      | [] => some progress
      | '#' :: rest =>
          match afterLine? ('#' :: rest) with
          | some after => readLines fuel after progress
          | none => none
      | start =>
          match afterNewline? start with
          | some rest => readLines fuel rest progress
          | none =>
              match readLine start progress with
              | some (progress, rest) => readLines fuel rest progress
              | none => none

def dropByteOrderMark : List Char → List Char
  | '\uFEFF' :: rest => rest
  | cs => cs

/-- The tree of a document; its root is always an object. -/
def parse? (text : String) : Option Json :=
  let cs := dropByteOrderMark text.toList
  (readLines (cs.length + 1) cs { entries := [], opened := [] }).map fun progress =>
    .object (entriesToJson progress.entries)

end Toml
end SlotQuery
