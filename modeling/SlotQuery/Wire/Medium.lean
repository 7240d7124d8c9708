import SlotQuery.Json.Tree

/-!
# Media

Records and choices are written alike in every medium, as objects or arrays of a
tree. Media differ in how much of a record written as an array counts, and in
when the entries of a choice are counted.
-/

namespace SlotQuery

structure Medium where
  /-- Whether an array may have more items than its record has fields. -/
  ignoresExtraItems : Bool
  /-- Whether the entries of a choice are counted before its content is decoded. -/
  countsFirst : Bool
  /-- Whether the fields of an alternative may be written as an array. -/
  listsAlternatives : Bool
deriving DecidableEq, Repr

namespace Medium

/-- JSON text is decoded from front to back while it is read. -/
def jsonText : Medium :=
  { ignoresExtraItems := false
    countsFirst := false
    listsAlternatives := true }

/-- A JSON tree is complete before anything of it is decoded. -/
def jsonTree : Medium :=
  { ignoresExtraItems := false
    countsFirst := true
    listsAlternatives := false }

/-- TOML text is read as a whole; of an array only the items that are asked for count. -/
def tomlText : Medium :=
  { ignoresExtraItems := true
    countsFirst := false
    listsAlternatives := true }

/-- Whether a choice is refused for the entries after its first before that one is decoded. -/
def refusesChoice (medium : Medium) (further : List (Option String × Json)) : Bool :=
  medium.countsFirst && !further.isEmpty

@[simp] theorem refusesChoice_nil (medium : Medium) : medium.refusesChoice [] = false := by
  simp [refusesChoice]

end Medium

end SlotQuery
