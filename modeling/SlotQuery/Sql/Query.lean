import SlotQuery.CollectionPath
import SlotQuery.Layout
import SlotQuery.Operator
import SlotQuery.Value

/-!
# Queries

Statements as plain data. A filter is a set of entity keys: the result of one
select, or of several filters put together by a set operation. A select reads
the entity table together with the type table and any number of further joins.
-/

namespace SlotQuery

/-!
# Columns

Table occurrences within one select are numbered, and zero is the entity table
itself. A column is qualified by a numbered occurrence or by a fixed word.
-/

structure Alias where
  index : Nat
deriving DecidableEq, Repr, Inhabited

namespace Alias

def root : Alias :=
  { index := 0 }

def text (self : Alias) : String :=
  "t" ++ toString self.index

end Alias

inductive Qualifier where
  | table (occurrence : Alias)
  | word (text : String)
deriving DecidableEq, Repr, Inhabited

namespace Qualifier

/-- The type table of every select. -/
def types : Qualifier :=
  word "ty"

/-- A set operation that is wrapped to stand within another one. -/
def wrapped : Qualifier :=
  word "sq"

def text : Qualifier → String
  | table occurrence => occurrence.text
  | word text => text

end Qualifier

structure Column where
  qualifier : Qualifier
  name : String
deriving DecidableEq, Repr, Inhabited

def Alias.column (self : Alias) (name : String) : Column :=
  { qualifier := .table self, name := name }

/-!
# Selects, filters and conditions

The three refer to each other, since a condition may ask for membership in a
filter.
-/

/-- What a select returns. -/
inductive Projection where
  /-- The entity key alone, as every filter does. -/
  | entityKey
  /-- Distinct keys and identities, followed by further columns. -/
  | entities (extra : List Column)
  /-- The number of distinct keys. -/
  | count
deriving DecidableEq, Repr, Inhabited

/-- Keeps the entities with at least `min` distinct values in the column. -/
structure Having where
  column : Column
  min : Nat
deriving DecidableEq, Repr, Inhabited

mutual

inductive Condition where
  | compare (column : Column) (op : ComparisonOp) (value : Value)
  | columnEq (left right : Column)
  | isNull (column : Column)
  | isNotNull (column : Column)
  | regex (column : Column) (pattern : String)
  | pathBelow (column : Column) (pattern : CollectionPathPattern)
  | pathEquals (column : Column) (path : CollectionPath)
  | inList (column : Column) (ids : List Int64)
  | inQuery (column : Column) (query : Filter)
  | and (items : List Condition)
  | or (items : List Condition)
  | not (operand : Condition)
  | never

inductive Filter where
  | select (query : Select)
  | compound (op : SetOp) (operands : List Filter)

structure Select where
  projection : Projection
  joins : List Join
  /-- All of them must hold. -/
  conditions : List Condition
  having : Option Having
  orderBy : List (Column × SortOrder)
  limit : Option UInt64
  offset : Option UInt64

structure Join where
  source : Alias
  target : Alias
  table : String
  kind : JoinKind
  conditions : List Condition

end

instance : Inhabited Condition :=
  ⟨.never⟩

/-- One condition stands for itself; any other number is bracketed. -/
def Condition.all : List Condition → Condition
  | [condition] => condition
  | conditions => .and conditions

def Condition.any : List Condition → Condition
  | [condition] => condition
  | conditions => .or conditions

/-- The entities of the given types, without further conditions. -/
def Select.ofTypes (projection : Projection) (layout : Layout) (typeIds : List Int64) : Select :=
  { projection := projection
    joins := []
    conditions := [.inList { qualifier := .types, name := layout.typeIdColumn } typeIds]
    having := none
    orderBy := []
    limit := none
    offset := none }

namespace Filter

/-- The operands of a compound that may be merged into one with the operator. -/
def operandsFor (op : SetOp) : Filter → List Filter
  | .compound inner operands =>
      if inner = op ∧ op ≠ .except then operands else [.compound inner operands]
  | .select query => [.select query]

/-- A compound whose operands of the same associative operator are merged into it. -/
def merged (op : SetOp) (operands : List Filter) : Filter :=
  .compound op (operands.flatMap (operandsFor op))

end Filter

end SlotQuery
