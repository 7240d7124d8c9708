import SlotQuery.Compile.Membership
import SlotQuery.Request

/-!
# Predicates as filters

Each predicate becomes the set of keys of the entities it holds for. Negation
travels down to the leaves: it exchanges the two combinators, and each leaf
knows its own negative form.
-/

namespace SlotQuery

/-!
# Leaves

A leaf with one value per entity keeps entities without the slot when it is
negated, by outer joins and a test for null.
-/

/-- Null tests look at the slot, so an association is not followed to its entity. -/
def compileNullTest (ctx : Context) (path : Path) (leaf : LeafKind) (negated : Bool) :
    Except CompileError Filter := do
  let (reached, draft) ← ctx.allEntities.follow ctx path (leaf.joinKind negated) .slot
  let column := reached.valueColumn ctx
  let wantsNull := (leaf == .isNull) != negated
  let condition := if wantsNull then Condition.isNull column else Condition.isNotNull column
  return .select (draft.addCondition condition).query

def compileScalarComparison (ctx : Context) (op : ComparisonOp) (path : Path) (value : Value)
    (negated : Bool) : Except CompileError Filter := do
  let kind := LeafKind.comparison.joinKind negated
  let (reached, draft) ← ctx.allEntities.follow ctx path kind .entity
  let column := reached.valueColumn ctx
  let condition :=
    if negated then
      Condition.or [.compare column op.negated value, .isNull column]
    else
      Condition.compare column op value
  return .select (draft.addCondition condition).query

/-- A composite is compared through the slots nested in its own. -/
def compileCompositeComparison (ctx : Context) (op : ComparisonOp) (path : Path) (value : Value)
    (negated : Bool) : Except CompileError Filter := do
  ensure op.isEquality (.unsupported "comparison"
    ("'" ++ op.name ++ "' is not defined for value composites"))
  ensure (!path.leaf.isAssociation) (.unsupported "comparison"
    ("'" ++ path.text ++ "' is an association; compare it by identity"))
  ensure (!value.containsList) (.unsupported "comparison"
    "collections cannot be matched inside a value")
  let kind := LeafKind.comparison.joinKind false
  let (reached, draft) ← ctx.allEntities.follow ctx path kind .slot
  let (condition, draft) ← valueCondition ctx 0 reached.slot value draft
  let positive := Filter.select (draft.addCondition condition).query
  return complementIf ctx (negated != (op == .ne)) positive

def compileComparison (ctx : Context) (op : ComparisonOp) (path : Path) (value : Value)
    (negated : Bool) : Except CompileError Filter :=
  match value with
  | .null =>
      match op with
      | .eq => compileNullTest ctx path .isNull negated
      | .ne => compileNullTest ctx path .isNotNull negated
      | op =>
          .error (.unsupported "comparison"
            ("'" ++ op.name ++ "' against null on '" ++ path.text ++ "'"))
  | .list _ =>
      .error (.unsupported "comparison"
        ("collection value compared to '" ++ path.text ++ "'; use contains"))
  | .composite fields => compileCompositeComparison ctx op path (.composite fields) negated
  | scalar => compileScalarComparison ctx op path scalar negated

def compileMatch (ctx : Context) (path : Path) (regex : String) (negated : Bool) :
    Except CompileError Filter := do
  ensure ctx.dialect.supportsRegex (.unsupported "matches"
    ("the " ++ ctx.dialect.name ++ " dialect has no regular expression operator"))
  let kind := LeafKind.comparison.joinKind negated
  let (reached, draft) ← ctx.allEntities.follow ctx path kind .entity
  let column := reached.valueColumn ctx
  let condition :=
    if negated then
      Condition.or [.not (.regex column regex), .isNull column]
    else
      Condition.regex column regex
  return .select (draft.addCondition condition).query

def requireAssociation (kind : String) (path : Path) : Except CompileError Unit :=
  ensure path.leaf.isAssociation
    (.unsupported kind ("'" ++ path.text ++ "' is not an association"))

/-!
# Combinators

No operands at all leave either every entity or none. One operand stands for
itself. Operands of the same operator are merged, unless they are differences.
-/

def combine (ctx : Context) (op : SetOp) : List Filter → Filter
  | [] =>
      match op with
      | .union => .select (ctx.allEntities.addCondition .never).query
      | .intersect | .except => .select ctx.allEntities.query
  | [operand] => operand
  | operands => .merged op operands

mutual

def compilePredicate (ctx : Context) (negated : Bool) : Predicate → Except CompileError Filter
  | .and children => do
      let operands ← compileChildren ctx negated children
      return combine ctx (if negated then .union else .intersect) operands
  | .or children => do
      let operands ← compileChildren ctx negated children
      return combine ctx (if negated then .intersect else .union) operands
  | .not operand => compilePredicate ctx (!negated) operand
  | .comparison op path value => compileComparison ctx op path value negated
  | .isMatch path regex => compileMatch ctx path regex negated
  | .contains path value => compileContains ctx path value negated
  | .containsAll path values => compileContainsAll ctx path values negated
  | .propertyNull path => compileNullTest ctx path .isNull negated
  | .propertyNotNull path => compileNullTest ctx path .isNotNull negated
  | .associationNull path => do
      requireAssociation "association_null" path
      compileNullTest ctx path .isNull negated
  | .associationNotNull path => do
      requireAssociation "association_not_null" path
      compileNullTest ctx path .isNotNull negated
  | .manyAssociationContains path identity =>
      compileManyAssociationContains ctx path identity negated

def compileChildren (ctx : Context) (negated : Bool) :
    List Predicate → Except CompileError (List Filter)
  | [] => .ok []
  | child :: rest => do
      let operand ← compilePredicate ctx negated child
      let operands ← compileChildren ctx negated rest
      return operand :: operands

end

end SlotQuery
