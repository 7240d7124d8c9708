import SlotQuery.Operator
import SlotQuery.Path
import SlotQuery.Value

/-!
# Predicates

A predicate filters entities by what their slots hold. Leaves look at one path;
the combinators are conjunction, disjunction and negation.
-/

namespace SlotQuery

inductive Predicate where
  | and (children : List Predicate)
  | or (children : List Predicate)
  | not (operand : Predicate)
  | comparison (op : ComparisonOp) (path : Path) (value : Value)
  | isMatch (path : Path) (regex : String)
  | contains (path : Path) (value : Value)
  | containsAll (path : Path) (values : List Value)
  | propertyNull (path : Path)
  | propertyNotNull (path : Path)
  | associationNull (path : Path)
  | associationNotNull (path : Path)
  /-- The association at the path holds the entity with this identity. -/
  | manyAssociationContains (path : Path) (identity : String)
deriving Inhabited

namespace Predicate

/-- The word that messages use for the predicate. -/
def kind : Predicate → String
  | and _ => "and"
  | or _ => "or"
  | not _ => "not"
  | comparison _ _ _ => "comparison"
  | isMatch _ _ => "matches"
  | contains _ _ => "contains"
  | containsAll _ _ => "contains_all"
  | propertyNull _ => "property_null"
  | propertyNotNull _ => "property_not_null"
  | associationNull _ => "association_null"
  | associationNotNull _ => "association_not_null"
  | manyAssociationContains _ _ => "many_association_contains"

end Predicate

end SlotQuery
