import SlotQuery.Sql.Query

/-!
# Selects under construction

A draft is a select together with what is needed to extend it: the number of
the next table occurrence, and which occurrence each join that was asked for
has led to. Numbers are given out once, in order.
-/

namespace SlotQuery

/-- What a join is found again by. -/
inductive JoinKey where
  /-- The table of a slot, reached from a row. -/
  | slot (source : Alias) (name : QualifiedName)
  /-- The entity that a row of an association refers to. -/
  | target (slot : Alias)
deriving DecidableEq, Repr, Inhabited

structure Draft where
  query : Select
  nextIndex : Nat
  /-- The latest entry for a key stands first. -/
  known : List (JoinKey × Alias)

namespace Draft

def ofTypes (projection : Projection) (layout : Layout) (typeIds : List Int64) : Draft :=
  { query := Select.ofTypes projection layout typeIds
    nextIndex := 1
    known := [] }

def takeAlias (draft : Draft) : Alias × Draft :=
  ({ index := draft.nextIndex }, { draft with nextIndex := draft.nextIndex + 1 })

def known? (draft : Draft) (key : JoinKey) : Option Alias :=
  draft.known.lookup key

def addJoin (draft : Draft) (key : JoinKey) (join : Join) : Draft :=
  { draft with
    query := { draft.query with joins := draft.query.joins ++ [join] }
    known := (key, join.target) :: draft.known }

def addCondition (draft : Draft) (condition : Condition) : Draft :=
  { draft with
    query := { draft.query with conditions := draft.query.conditions ++ [condition] } }

def addOrder (draft : Draft) (column : Column) (order : SortOrder) : Draft :=
  { draft with
    query := { draft.query with orderBy := draft.query.orderBy ++ [(column, order)] } }

def withHaving (draft : Draft) (having : Having) : Draft :=
  { draft with query := { draft.query with having := some having } }

end Draft

end SlotQuery
