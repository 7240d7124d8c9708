import SlotQuery.Sql.Fragment
import SlotQuery.Sql.Query

/-!
# Rendering queries

Conditions, selects and filters as fragments of SQL. Brackets are written where
the reading of AND and OR would otherwise change: around a conjunction within
another one, around a disjunction everywhere, and around a longer conjunction
within a disjunction. A set operation within another one is wrapped in a
select of its own.
-/

namespace SlotQuery

structure Spelling where
  dialect : Dialect
  layout : Layout

namespace Spelling

def identifier (spelling : Spelling) (name : String) : String :=
  spelling.dialect.quoteIdentifier name

def column (spelling : Spelling) (column : Column) : String :=
  column.qualifier.text ++ "." ++ spelling.identifier column.name

def bool (spelling : Spelling) (b : Bool) : String :=
  spelling.dialect.boolLiteral b

/-- The key of the entity that a select is about. -/
def entityKey (spelling : Spelling) : String :=
  spelling.column (Alias.root.column spelling.layout.entityKeyColumn)

def idList (ids : List Int64) : String :=
  ", ".intercalate (ids.map fun id => toString id.toInt)

end Spelling

/-!
# Parts without conditions

The projection, the two tables that every select reads, and what follows the
conditions.
-/

namespace Select

def projectionText (spelling : Spelling) : Projection → String
  | .entityKey => "SELECT " ++ spelling.entityKey
  | .entities extra =>
      let identity := Alias.root.column spelling.layout.entityIdentityColumn
      "SELECT DISTINCT " ++
        ", ".intercalate (spelling.entityKey :: (identity :: extra).map spelling.column)
  | .count => "SELECT COUNT(DISTINCT " ++ spelling.entityKey ++ ")"

def sourceText (spelling : Spelling) : String :=
  let layout := spelling.layout
  " FROM " ++ spelling.identifier layout.entityTable ++ " " ++ Alias.root.text ++
    " JOIN " ++ spelling.identifier layout.typeTable ++ " " ++ Qualifier.types.text ++
    " ON " ++ spelling.column { qualifier := .types, name := layout.entityKeyColumn } ++
    " = " ++ spelling.entityKey

def havingText (spelling : Spelling) : Option Having → String
  | some having =>
      " GROUP BY " ++ spelling.entityKey ++ " HAVING COUNT(DISTINCT " ++
        spelling.column having.column ++ ") >= " ++ toString having.min
  | none => ""

def orderText (spelling : Spelling) (orderBy : List (Column × SortOrder)) : String :=
  if orderBy.isEmpty then
    ""
  else
    " ORDER BY " ++
      ", ".intercalate (orderBy.map fun (column, order) =>
        spelling.column column ++ " " ++ order.keyword)

end Select

/-!
# Conditions and queries
-/

namespace Condition

/-- Conjunctions are bracketed among the items of a conjunction. -/
def isConjunction : Condition → Bool
  | and _ => true
  | _ => false

/-- Conjunctions of more than one item are bracketed among the items of a disjunction. -/
def isLongConjunction : Condition → Bool
  | and (_ :: _ :: _) => true
  | _ => false

end Condition

def bracketedIf (needed : Bool) (fragment : Fragment) : Fragment :=
  if needed then fragment.bracketed else fragment

mutual

def Condition.render (spelling : Spelling) : Condition → Fragment
  | .compare column op value =>
      [.text (spelling.column column ++ " " ++ op.symbol ++ " "), .bound value id]
  | .columnEq left right => [.text (spelling.column left ++ " = " ++ spelling.column right)]
  | .isNull column => [.text (spelling.column column ++ " IS NULL")]
  | .isNotNull column => [.text (spelling.column column ++ " IS NOT NULL")]
  | .regex column pattern =>
      [.bound (.string pattern) (spelling.dialect.regexMatch (spelling.column column))]
  | .pathBelow column pattern =>
      [.text (spelling.dialect.pathBelow (spelling.column column) pattern)]
  | .pathEquals column path =>
      [.text (spelling.dialect.pathEquals (spelling.column column) path)]
  | .inList column ids =>
      [.text (spelling.column column ++ " IN (" ++ Spelling.idList ids ++ ")")]
  | .inQuery column query =>
      .text (spelling.column column ++ " IN (") :: (Filter.render spelling query ++ [.text ")"])
  | .and [] => [.text (spelling.bool true)]
  | .and items => Fragment.joined " AND " (renderConjuncts spelling items)
  | .or [] => [.text (spelling.bool false)]
  | .or items => (Fragment.joined " OR " (renderDisjuncts spelling items)).bracketed
  | .not operand => .text "NOT (" :: (Condition.render spelling operand ++ [.text ")"])
  | .never => [.text (spelling.bool false)]

def renderConjuncts (spelling : Spelling) : List Condition → List Fragment
  | [] => []
  | item :: rest =>
      bracketedIf item.isConjunction (Condition.render spelling item) ::
        renderConjuncts spelling rest

def renderDisjuncts (spelling : Spelling) : List Condition → List Fragment
  | [] => []
  | item :: rest =>
      bracketedIf item.isLongConjunction (Condition.render spelling item) ::
        renderDisjuncts spelling rest

/-- The conditions of a join, which are not bracketed. -/
def renderPlain (spelling : Spelling) : List Condition → List Fragment
  | [] => []
  | item :: rest => Condition.render spelling item :: renderPlain spelling rest

def Filter.render (spelling : Spelling) : Filter → Fragment
  | .select query => Select.render spelling query
  | .compound op operands =>
      Fragment.joined (" " ++ spelling.dialect.setOperator op ++ " ")
        (renderOperands spelling operands)

def renderOperands (spelling : Spelling) : List Filter → List Fragment
  | [] => []
  | operand :: rest => renderOperand spelling operand :: renderOperands spelling rest

def renderOperand (spelling : Spelling) : Filter → Fragment
  | .select query => Select.render spelling query
  | .compound op operands =>
      let key := spelling.column
        { qualifier := .wrapped, name := spelling.layout.entityKeyColumn }
      .text ("SELECT " ++ key ++ " FROM (") ::
        (Fragment.joined (" " ++ spelling.dialect.setOperator op ++ " ")
            (renderOperands spelling operands) ++
          [.text (") AS " ++ Qualifier.wrapped.text)])

def Select.render (spelling : Spelling) : Select → Fragment
  | { projection, joins, conditions, having, orderBy, limit, offset } =>
      .text (Select.projectionText spelling projection ++ Select.sourceText spelling) ::
        (renderJoins spelling joins ++
          (if conditions.isEmpty then
            []
          else
            .text " WHERE " :: Fragment.joined " AND " (renderConjuncts spelling conditions)) ++
          [.text (Select.havingText spelling having ++ Select.orderText spelling orderBy ++
            spelling.dialect.limitOffset limit offset)])

def renderJoins (spelling : Spelling) : List Join → Fragment
  | [] => []
  | join :: rest => renderJoin spelling join ++ renderJoins spelling rest

def renderJoin (spelling : Spelling) : Join → Fragment
  | { source := _, target, table, kind, conditions } =>
      .text (" " ++ kind.keyword ++ " " ++ spelling.identifier table ++ " " ++ target.text ++
          " ON ") ::
        Fragment.joined " AND " (renderPlain spelling conditions)

end

end SlotQuery
