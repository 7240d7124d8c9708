/-!
# Operators and keywords

The closed families of operators that a request or a query can name. Each
family carries its SQL spelling and nothing else of the database.
-/

namespace SlotQuery

/-!
# Comparison

Six operators between a stored value and a bound one. Negation exchanges each
operator with the one that holds on exactly the other non-null values.
-/

inductive ComparisonOp where
  | eq
  | ne
  | ge
  | gt
  | le
  | lt
deriving DecidableEq, Repr, Inhabited

namespace ComparisonOp

def symbol : ComparisonOp → String
  | eq => "="
  | ne => "<>"
  | ge => ">="
  | gt => ">"
  | le => "<="
  | lt => "<"

def negated : ComparisonOp → ComparisonOp
  | eq => ne
  | ne => eq
  | ge => lt
  | gt => le
  | le => gt
  | lt => ge

/-- Equality operators are the only ones defined on composite values. -/
def isEquality : ComparisonOp → Bool
  | eq | ne => true
  | ge | gt | le | lt => false

def name : ComparisonOp → String
  | eq => "eq"
  | ne => "ne"
  | ge => "ge"
  | gt => "gt"
  | le => "le"
  | lt => "lt"

theorem negated_negated (op : ComparisonOp) : op.negated.negated = op := by
  cases op <;> rfl

end ComparisonOp

/-!
# Ordering, joining and combining

Sort directions, the two kinds of join, and the three set operations on
queries.
-/

inductive SortOrder where
  | asc
  | desc
deriving DecidableEq, Repr, Inhabited

def SortOrder.keyword : SortOrder → String
  | asc => "ASC"
  | desc => "DESC"

inductive JoinKind where
  | inner
  | left
deriving DecidableEq, Repr, Inhabited

def JoinKind.keyword : JoinKind → String
  | inner => "JOIN"
  | left => "LEFT JOIN"

inductive SetOp where
  | union
  | intersect
  | except
deriving DecidableEq, Repr, Inhabited

def SetOp.keyword : SetOp → String
  | union => "UNION"
  | intersect => "INTERSECT"
  | except => "EXCEPT"

end SlotQuery
