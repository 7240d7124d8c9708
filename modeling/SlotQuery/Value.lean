import SlotQuery.Name
import SlotQuery.Number.Style
import SlotQuery.Instant.Text

/-!
# Values

What a predicate compares a slot with. Scalars can be bound as parameters;
lists and composites are taken apart before anything is bound.
-/

namespace SlotQuery

inductive Value where
  | null
  | bool (b : Bool)
  | int (n : Int64)
  | float (x : Binary64)
  | string (s : String)
  | instant (t : Instant)
  | list (items : List Value)
  /-- One entry per property of the composite, in the order given. -/
  | composite (fields : List (QualifiedName × Value))
deriving Inhabited

/-- The database type of a bound parameter. -/
inductive SqlType where
  | boolean
  | bigInt
  | double
  | varchar
  | timestamp
deriving DecidableEq, Repr, Inhabited

namespace Value

/-!
# Shape

Only scalars have a database type. A list counts as found wherever it occurs,
also within the fields of a composite.
-/

def sqlType? : Value → Option SqlType
  | bool _ => some .boolean
  | int _ => some .bigInt
  | float _ => some .double
  | string _ => some .varchar
  | instant _ => some .timestamp
  | null | list _ | composite _ => none

mutual

def containsList : Value → Bool
  | list _ => true
  | composite fields => fieldsContainList fields
  | null | bool _ | int _ | float _ | string _ | instant _ => false

def fieldsContainList : List (QualifiedName × Value) → Bool
  | [] => false
  | (_, value) :: rest => containsList value || fieldsContainList rest

end

def isComposite : Value → Bool
  | composite _ => true
  | null | bool _ | int _ | float _ | string _ | instant _ | list _ => false

/-!
# Text for diagnostics

The text shows a value to a reader of a message. Quotes inside strings are left
as they are, so it is no SQL.
-/

mutual

def text : Value → String
  | null => "NULL"
  | bool b => if b then "true" else "false"
  | int n => toString n.toInt
  | float x => NumberStyle.plain.text x
  | string s => "'" ++ s ++ "'"
  | instant t => "'" ++ t.offsetText ++ "'"
  | list items => "[" ++ itemsText items ++ "]"
  | composite fields => "\x7b" ++ fieldsText fields ++ "\x7d"

def itemsText : List Value → String
  | [] => ""
  | [value] => text value
  | value :: next :: rest => text value ++ ", " ++ itemsText (next :: rest)

def fieldsText : List (QualifiedName × Value) → String
  | [] => ""
  | [(name, value)] => name.member ++ ": " ++ text value
  | (name, value) :: next :: rest =>
      name.member ++ ": " ++ text value ++ ", " ++ fieldsText (next :: rest)

end

end Value

end SlotQuery
