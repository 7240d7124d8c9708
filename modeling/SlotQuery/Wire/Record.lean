import SlotQuery.Wire.Medium

/-!
# Records in documents

A record is read from an object by the names of its fields, or from an array by
their order. Entries are read in the order of the document, so the first fault
met is the one reported. Entries with unknown names are passed over; one whose
name has no value is refused.
-/

namespace SlotQuery

/-- Why a document does not stand for what was asked. -/
inductive DecodeError where
  | malformed
  /-- A path without steps. -/
  | emptyPath
deriving DecidableEq, Repr, Inhabited

abbrev Decoded (α : Type) := Except DecodeError α

/-- How the fields of a record are collected. -/
structure Record (α : Type) where
  /-- What has been read so far. -/
  State : Type
  start : State
  /-- Reads an entry, when its name is one of the record's. -/
  entry : String → Json → State → Option (Decoded State)
  /-- Takes items from the front, and returns those that are left. -/
  items : List Json → State → Decoded (State × List Json)
  finish : State → Decoded α

namespace Record

/-!
# Fields

A field is given at most once. One that is missing takes its default, if it has
one.
-/

def field (name : String) (decode : Json → Decoded α) (missing : Decoded α) : Record α :=
  { State := Option α
    start := none
    entry := fun key content state =>
      if key = name then
        some (match state with
          | some _ => .error .malformed
          | none => (decode content).map some)
      else
        none
    items := fun items state =>
      match items with
      | [] => .ok (state, [])
      | item :: rest => (decode item).map fun value => (some value, rest)
    finish := fun state =>
      match state with
      | some value => .ok value
      | none => missing }

def required (name : String) (decode : Json → Decoded α) : Record α :=
  field name decode (.error .malformed)

def optional (name : String) (decode : Json → Decoded α) (default : α) : Record α :=
  field name decode (.ok default)

/-- The fields of two records, one after the other. -/
def both (first : Record α) (second : Record β) : Record (α × β) :=
  { State := first.State × second.State
    start := (first.start, second.start)
    entry := fun key content (s, t) =>
      match first.entry key content s with
      | some read => some (read.map fun s => (s, t))
      | none => (second.entry key content t).map fun read => read.map fun t => (s, t)
    items := fun items (s, t) => do
      let (s, items) ← first.items items s
      let (t, items) ← second.items items t
      return ((s, t), items)
    finish := fun (s, t) => do
      let a ← first.finish s
      let b ← second.finish t
      return (a, b) }

def map (f : α → β) (record : Record α) : Record β :=
  { State := record.State
    start := record.start
    entry := record.entry
    items := record.items
    finish := fun state => (record.finish state).map f }

/-!
# Reading
-/

def readEntries (record : Record α) : List (Option String × Json) → record.State →
    Decoded record.State
  | [], state => .ok state
  | (none, _) :: _, _ => .error .malformed
  | (some key, content) :: rest, state =>
      match record.entry key content state with
      | some read => read >>= readEntries record rest
      | none =>
          if content.isWellFormed then readEntries record rest state else .error .malformed

def decode (medium : Medium) (record : Record α) : Json → Decoded α
  | .object entries => do
      let state ← record.readEntries entries record.start
      record.finish state
  | .array items => do
      let (state, left) ← record.items items record.start
      if left.isEmpty || medium.ignoresExtraItems then record.finish state else .error .malformed
  | _ => .error .malformed

/-- Decodes a record that is the content of an alternative. -/
def decodeAlternative (medium : Medium) (record : Record α) : Json → Decoded α
  | .array items =>
      if medium.listsAlternatives then record.decode medium (.array items) else .error .malformed
  | tree => record.decode medium tree

end Record

/-!
# Plain contents
-/

namespace Json

def toText : Json → Decoded String
  | string s => .ok s
  | _ => .error .malformed

def toBool : Json → Decoded Bool
  | bool b => .ok b
  | _ => .error .malformed

def toUnit : Json → Decoded Unit
  | null => .ok ()
  | _ => .error .malformed

/-- An integer that lies in a range with both ends included. -/
def toIntIn (low high : Int) : Json → Decoded Int
  | number numeral =>
      match numeral.toInt? with
      | some n => if low ≤ n ∧ n ≤ high then .ok n else .error .malformed
      | none => .error .malformed
  | _ => .error .malformed

def toInt64 (tree : Json) : Decoded Int64 :=
  (tree.toIntIn (-9223372036854775808) 9223372036854775807).map Int64.ofInt

def toUInt64 (tree : Json) : Decoded UInt64 :=
  (tree.toIntIn 0 18446744073709551615).map fun n => UInt64.ofNat n.toNat

def toUInt32 (tree : Json) : Decoded UInt32 :=
  (tree.toIntIn 0 4294967295).map fun n => UInt32.ofNat n.toNat

def eachItem (decode : Json → Decoded α) : List Json → Decoded (List α)
  | [] => .ok []
  | item :: rest => do
      let value ← decode item
      let values ← eachItem decode rest
      return value :: values

def toList (decode : Json → Decoded α) : Json → Decoded (List α)
  | array items => eachItem decode items
  | _ => .error .malformed

/-- Null stands for nothing. -/
def toOption (decode : Json → Decoded α) : Json → Decoded (Option α)
  | null => .ok none
  | tree => (decode tree).map some

/-- One of several names, alone or as the only key of an object with nothing in it. -/
def toName (choose : String → Option α) : Json → Decoded α
  | string s =>
      match choose s with
      | some value => .ok value
      | none => .error .malformed
  | object [(some key, null)] =>
      match choose key with
      | some value => .ok value
      | none => .error .malformed
  | _ => .error .malformed

end Json

end SlotQuery
