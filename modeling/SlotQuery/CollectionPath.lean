/-!
# Collection paths

Each element of a collection is a row of its own that carries its position: the
marker of the collection, then one index for each level of nesting, joined by
dots.
-/

namespace SlotQuery

structure CollectionPath where
  segments : List String
deriving DecidableEq, Repr, Inhabited

namespace CollectionPath

/-- The position of the collection itself. -/
def top (marker : String) : CollectionPath :=
  { segments := [marker] }

def text (path : CollectionPath) : String :=
  ".".intercalate path.segments

end CollectionPath

/-- All positions strictly below a given one. -/
structure CollectionPathPattern where
  above : CollectionPath
deriving DecidableEq, Repr, Inhabited

namespace CollectionPathPattern

def below (path : CollectionPath) : CollectionPathPattern :=
  { above := path }

/-- As a pattern over label trees: one or more further labels. -/
def labelPattern (pattern : CollectionPathPattern) : String :=
  pattern.above.text ++ ".*\x7b1,\x7d"

/-- As a pattern for LIKE. -/
def likePattern (pattern : CollectionPathPattern) : String :=
  pattern.above.text ++ ".%"

end CollectionPathPattern

end SlotQuery
