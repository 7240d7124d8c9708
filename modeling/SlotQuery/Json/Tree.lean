import SlotQuery.Number.Numeral

/-!
# JSON trees

The tree of a JSON text. Numbers keep their written form, and objects keep all
their entries in order. A text that goes wrong still has a tree: what stands
before the fault is there, and the fault is marked where it was met.

The name of an entry is missing when it is a string without a value, or when the
text goes wrong in front of it. Such an entry can at most be passed over.
-/

namespace SlotQuery

inductive Json where
  | null
  | bool (b : Bool)
  | number (numeral : Numeral)
  | string (s : String)
  | array (items : List Json)
  | object (entries : List (Option String × Json))
  /-- Well formed and so can be passed over, but not to be read. -/
  | unreadable (inside : Json)
  /-- The text goes wrong here. -/
  | fault
deriving Inhabited

namespace Json

/-- An object in which every entry has its name. -/
def ofEntries (entries : List (String × Json)) : Json :=
  .object (entries.map fun (name, content) => (some name, content))

mutual

/-- Whether the text of the tree has no fault, so that a reader may pass over it. -/
def isWellFormed : Json → Bool
  | array items => itemsWellFormed items
  | object entries => entriesWellFormed entries
  | unreadable inside => isWellFormed inside
  | fault => false
  | null | bool _ | number _ | string _ => true

def itemsWellFormed : List Json → Bool
  | [] => true
  | item :: rest => isWellFormed item && itemsWellFormed rest

def entriesWellFormed : List (Option String × Json) → Bool
  | [] => true
  | (_, content) :: rest => isWellFormed content && entriesWellFormed rest

end

end Json

end SlotQuery
