import SlotQuery.Compile.Filter
import SlotQuery.Sql.Rendering

/-!
# Statements

The outer statement of a request selects the entities whose keys the filter
holds, sorts them and cuts out a window, or counts them. It is then written out
in the dialect, with the bound values beside it.
-/

namespace SlotQuery

/-!
# Sorting

A sort key must have one value per entity, so no step of its path may be a
many-association or a collection.
-/

def multiValued (name : QualifiedName) : CompileError :=
  .unsupported "order_by" ("'" ++ name.text ++ "' is multi-valued and cannot be sorted on")

def checkSortableStep (ctx : Context) : PathStep → Except CompileError Unit
  | .manyAssociation name => .error (multiValued name)
  | .property name | .association name => do
      let info ← ctx.slotInfo name
      ensure (!info.isCollection) (multiValued name)

def checkSortable (ctx : Context) : List PathStep → Except CompileError Unit
  | [] => .ok ()
  | step :: rest => do
      checkSortableStep ctx step
      checkSortable ctx rest

/-- Adds the sort keys, and returns the columns that have to be selected for them. -/
def Draft.addSortKeys (ctx : Context) :
    List OrderBy → Draft → Except CompileError (List Column × Draft)
  | [], draft => .ok ([], draft)
  | { key, order } :: rest, draft =>
      match key with
      | .identity =>
          addSortKeys ctx rest
            (draft.addOrder (Alias.root.column ctx.layout.entityIdentityColumn) order)
      | .path path => do
          checkSortable ctx path.steps
          let (reached, draft) ← draft.follow ctx path .left .entity
          let column := reached.valueColumn ctx
          let (extra, draft) ← addSortKeys ctx rest (draft.addOrder column order)
          return (column :: extra, draft)

/-!
# The outer select
-/

def entityKeyColumn (ctx : Context) : Column :=
  Alias.root.column ctx.layout.entityKeyColumn

def outerDraft (ctx : Context) (projection : Projection) (filter : Option Filter) : Draft :=
  let draft := Draft.ofTypes projection ctx.layout ctx.typeIds
  match filter with
  | some filter => draft.addCondition (.inQuery (entityKeyColumn ctx) filter)
  | none => draft

/-- The key decides last, so that any sorted or cut result has one order. -/
def Request.needsTieBreak (request : Request) : Bool :=
  !request.orderBy.isEmpty || request.limit.isSome || request.offset.isSome

/-- A count ignores order and window. -/
def assemble (ctx : Context) (request : Request) (filter : Option Filter) :
    Except CompileError Select :=
  if request.countOnly then
    .ok (outerDraft ctx .count filter).query
  else do
    let (extra, draft) ←
      (outerDraft ctx (.entities []) filter).addSortKeys ctx request.orderBy
    let draft := if request.needsTieBreak then draft.addOrder (entityKeyColumn ctx) .asc else draft
    return { draft.query with
      projection := .entities extra
      limit := request.limit
      offset := request.offset }

/-!
# Compiling a request
-/

/-- All that a request is compiled against. -/
structure Compiler where
  schema : Schema
  dialect : Dialect
  layout : Layout
  options : Options

namespace Compiler

def contextFor (compiler : Compiler) (resultType : String) : Except CompileError Context :=
  let typeIds := compiler.schema.assignableTypeIds resultType
  if typeIds.isEmpty then
    .error (.unknownResultType resultType)
  else
    .ok
      { schema := compiler.schema
        dialect := compiler.dialect
        layout := compiler.layout
        options := compiler.options
        typeIds := typeIds }

def compileFilter (ctx : Context) : Option Predicate → Except CompileError (Option Filter)
  | some predicate => do
      let filter ← compilePredicate ctx false predicate
      return some filter
  | none => .ok none

/-- The statement of a request as data. -/
def select (compiler : Compiler) (request : Request) : Except CompileError Select := do
  let ctx ← compiler.contextFor request.resultType
  let filter ← compileFilter ctx request.predicate
  assemble ctx request filter

end Compiler

/-- A statement with the values of its parameters. -/
structure Statement where
  sql : String
  params : List Value
  paramTypes : List SqlType
deriving Inhabited

def Statement.ofSelect (spelling : Spelling) (query : Select) : Statement :=
  let (sql, bindings) := (query.render spelling).write spelling.dialect .empty
  { sql := sql, params := bindings.values, paramTypes := bindings.types }

namespace Compiler

def spelling (compiler : Compiler) : Spelling :=
  { dialect := compiler.dialect, layout := compiler.layout }

def compile (compiler : Compiler) (request : Request) : Except CompileError Statement := do
  let query ← compiler.select request
  return .ofSelect compiler.spelling query

end Compiler

/-!
# Running lists of parameters

A caller may collect the parameters of several statements in the same two
lists. A request without a statement leaves them as they were.
-/

structure ParameterLists where
  values : List Value
  types : List SqlType
deriving Inhabited

def ParameterLists.empty : ParameterLists :=
  { values := [], types := [] }

def ParameterLists.extend (lists : ParameterLists) (statement : Statement) : ParameterLists :=
  { values := lists.values ++ statement.params
    types := lists.types ++ statement.paramTypes }

def Compiler.compileInto (compiler : Compiler) (request : Request) (lists : ParameterLists) :
    Except CompileError String × ParameterLists :=
  match compiler.compile request with
  | .ok statement => (.ok statement.sql, lists.extend statement)
  | .error error => (.error error, lists)

end SlotQuery
