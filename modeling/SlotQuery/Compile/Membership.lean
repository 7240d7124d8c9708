import SlotQuery.Compile.Navigation

/-!
# Membership in collections

Each element of a collection is a row with its position. An element is looked
for among the positions below the marker by comparing its value; to look for
all of several elements, the matching rows of an entity are counted.
-/

namespace SlotQuery

/-!
# Conditions on values

A composite is compared field by field, each field through a join of its own.
The joins are outer ones, so that several alternatives can share them.
-/

mutual

def valueCondition (ctx : Context) (depth : Nat) (holder : Alias) (value : Value)
    (draft : Draft) : Except CompileError (Condition × Draft) :=
  if ctx.options.maxValueDepth < depth then
    .error (.nestingTooDeep ctx.options.maxValueDepth)
  else
    let column := holder.column ctx.layout.valueColumn
    match value with
    | .null => .ok (.isNull column, draft)
    | .composite fields => do
        let (conditions, draft) ← fieldConditions ctx depth holder fields draft
        return (Condition.all conditions, draft)
    | .list _ => .error (.unsupported "value" "collections cannot be matched inside a value")
    | scalar => .ok (.compare column .eq scalar, draft)

def fieldConditions (ctx : Context) (depth : Nat) (holder : Alias) :
    List (QualifiedName × Value) → Draft → Except CompileError (List Condition × Draft)
  | [], draft => .ok ([], draft)
  | (name, value) :: rest, draft => do
      let (nested, draft) ← draft.joinSlot ctx (.row holder) name .left
      let (condition, draft) ← valueCondition ctx (depth + 1) nested value draft
      let (conditions, draft) ← fieldConditions ctx depth holder rest draft
      return (condition :: conditions, draft)

end

/-!
# Elements

Null and anything with a list inside cannot be an element. The rows of a
collection are those of its slot; for a many-association each row leads on to
an entity, which is recognised by its identity.
-/

def checkElement (path : Path) (value : Value) : Except CompileError Unit :=
  match value with
  | .null => .error (.invalidContainment path "null is not a collection element")
  | value =>
      ensure (!value.containsList) (.invalidContainment path
        "nested collections cannot be used as containment values")

def checkElements (path : Path) : List Value → Except CompileError Unit
  | [] => .ok ()
  | value :: rest => do
      checkElement path value
      checkElements path rest

/-- Where the walk to the elements stops, when the leaf has elements at all. -/
def elementsEnd (ctx : Context) (leaf : PathStep) (withTargets : Bool) :
    Except CompileError PathEnd :=
  match leaf with
  | .property name => do
      let info ← ctx.slotInfo name
      ensure info.isCollection (.notACollection name)
      return .slot
  | .association name => .error (.notACollection name)
  | .manyAssociation _ => .ok (if withTargets then .entity else .slot)

def Draft.followToElements (ctx : Context) (path : Path) (withTargets : Bool) (draft : Draft) :
    Except CompileError (Reached × Draft) := do
  let pathEnd ← elementsEnd ctx path.leaf withTargets
  draft.follow ctx path (LeafKind.containment.joinKind false) pathEnd

def elementCondition (ctx : Context) (elements : Reached) (path : Path) (value : Value)
    (draft : Draft) : Except CompileError (Condition × Draft) :=
  match elements.target with
  | some _ =>
      match value with
      | .string s => .ok (.compare (elements.valueColumn ctx) .eq (.string s), draft)
      | _ =>
          .error (.invalidContainment path
            "many-association elements are matched by entity identity")
  | none => valueCondition ctx 0 elements.slot value draft

def elementConditions (ctx : Context) (elements : Reached) (path : Path) :
    List Value → Draft → Except CompileError (List Condition × Draft)
  | [], draft => .ok ([], draft)
  | value :: rest, draft => do
      let (condition, draft) ← elementCondition ctx elements path value draft
      let (conditions, draft) ← elementConditions ctx elements path rest draft
      return (condition :: conditions, draft)

/-!
# Filters

Negation is taken away from all entities of the requested types at once,
since an entity has many elements and one of them decides nothing.
-/

def complement (ctx : Context) (positive : Filter) : Filter :=
  .merged .except [.select ctx.allEntities.query, positive]

def complementIf (ctx : Context) (negated : Bool) (positive : Filter) : Filter :=
  if negated then complement ctx positive else positive

def positionColumn (ctx : Context) (elements : Reached) : Column :=
  elements.slot.column ctx.layout.collectionPathColumn

def topPath (ctx : Context) : CollectionPath :=
  .top ctx.layout.topLevelMarker

def belowTop (ctx : Context) (elements : Reached) : Condition :=
  .pathBelow (positionColumn ctx elements) (.below (topPath ctx))

def compileContains (ctx : Context) (path : Path) (value : Value) (negated : Bool) :
    Except CompileError Filter := do
  checkElement path value
  let (elements, draft) ← ctx.allEntities.followToElements ctx path true
  let draft := draft.addCondition (belowTop ctx elements)
  let (condition, draft) ← elementCondition ctx elements path value draft
  let draft := draft.addCondition condition
  return complementIf ctx negated (.select draft.query)

/-- The column whose distinct values count as elements. -/
def countedColumn (ctx : Context) (elements : Reached) (values : List Value) : Column :=
  if values.any Value.isComposite then
    positionColumn ctx elements
  else
    elements.valueColumn ctx

/-- Keeps the entities that have the collection at all, be it empty. -/
def compileExists (ctx : Context) (path : Path) : Except CompileError Filter := do
  let (elements, draft) ← ctx.allEntities.followToElements ctx path false
  let condition := Condition.pathEquals (positionColumn ctx elements) (topPath ctx)
  return .select (draft.addCondition condition).query

/-- Keeps the entities with as many distinct matching elements as there are values. -/
def compileEach (ctx : Context) (path : Path) (values : List Value) :
    Except CompileError Filter := do
  let (elements, draft) ← ctx.allEntities.followToElements ctx path true
  let draft := draft.addCondition (belowTop ctx elements)
  let (conditions, draft) ← elementConditions ctx elements path values draft
  let draft := draft.addCondition (Condition.any conditions)
  let having : Having :=
    { column := countedColumn ctx elements values, min := values.length }
  return .select (draft.withHaving having).query

/-- Without values only the collection itself has to exist. -/
def compileContainsAll (ctx : Context) (path : Path) (values : List Value) (negated : Bool) :
    Except CompileError Filter := do
  checkElements path values
  let positive ← if values.isEmpty then compileExists ctx path else compileEach ctx path values
  return complementIf ctx negated positive

def compileManyAssociationContains (ctx : Context) (path : Path) (identity : String)
    (negated : Bool) : Except CompileError Filter :=
  match path.leaf with
  | .manyAssociation _ => compileContains ctx path (.string identity) negated
  | leaf => .error (.notACollection leaf.name)

end SlotQuery
