import SlotQuery.Compile.Draft
import SlotQuery.Error
import SlotQuery.Schema
import SlotQuery.Sql.Dialect

/-!
# Navigation

A path becomes a chain of joins, walked from the entity outwards. A property
adds the table of its slot; an association adds the table of its slot and then
the entity it refers to. A join that the draft already has for the same row and
slot is used again.
-/

namespace SlotQuery

/-- What every step of one compilation may look at. -/
structure Context where
  schema : Schema
  dialect : Dialect
  layout : Layout
  options : Options
  /-- The concrete types that the request is about. -/
  typeIds : List Int64

namespace Context

def slotInfo (ctx : Context) (name : QualifiedName) : Except CompileError SlotInfo :=
  match ctx.schema.slot? name with
  | some info => .ok info
  | none => .error (.missingSlot name)

/-- A draft of the keys of all entities of the requested types. -/
def allEntities (ctx : Context) : Draft :=
  Draft.ofTypes .entityKey ctx.layout ctx.typeIds

end Context

/-!
# Single joins

The table of a slot is joined on the entity key. From within another slot the
row it belongs to is matched as well.
-/

/-- Where the next step starts from. -/
inductive Origin where
  | entity (occurrence : Alias)
  /-- The row of a property, whose slots are nested in it. -/
  | row (occurrence : Alias)
deriving DecidableEq, Repr, Inhabited

namespace Origin

def occurrence : Origin → Alias
  | entity occurrence => occurrence
  | row occurrence => occurrence

def isNested : Origin → Bool
  | entity _ => false
  | row _ => true

end Origin

def slotJoinConditions (layout : Layout) (origin : Origin) (target : Alias) : List Condition :=
  let source := origin.occurrence
  let sameEntity := Condition.columnEq (target.column layout.entityKeyColumn)
    (source.column layout.entityKeyColumn)
  let sameRow := Condition.columnEq (target.column layout.parentColumn)
    (source.column layout.rowIdColumn)
  if origin.isNested then [sameEntity, sameRow] else [sameEntity]

def Draft.joinSlot (ctx : Context) (origin : Origin) (name : QualifiedName) (kind : JoinKind)
    (draft : Draft) : Except CompileError (Alias × Draft) :=
  let key := JoinKey.slot origin.occurrence name
  match draft.known? key with
  | some found => .ok (found, draft)
  | none => do
      let info ← ctx.slotInfo name
      let (target, draft) := draft.takeAlias
      let join : Join :=
        { source := origin.occurrence
          target := target
          table := info.table
          kind := kind
          conditions := slotJoinConditions ctx.layout origin target }
      return (target, draft.addJoin key join)

/-- Joins the entity that the row of an association refers to. -/
def Draft.joinTarget (ctx : Context) (slot : Alias) (kind : JoinKind) (draft : Draft) :
    Alias × Draft :=
  let key := JoinKey.target slot
  match draft.known? key with
  | some found => (found, draft)
  | none =>
      let (target, draft) := draft.takeAlias
      let join : Join :=
        { source := slot
          target := target
          table := ctx.layout.entityTable
          kind := kind
          conditions := [.columnEq (target.column ctx.layout.entityKeyColumn)
            (slot.column ctx.layout.valueColumn)] }
      (target, draft.addJoin key join)

/-!
# Whole paths

The last step decides what is reached. When it is an association the walk stops
at its slot or goes on to the entity, as the caller wishes.
-/

inductive PathEnd where
  | slot
  | entity
deriving DecidableEq, Repr, Inhabited

/-- What a path has led to. -/
structure Reached where
  /-- The table of the last slot. -/
  slot : Alias
  /-- The entity that the last association refers to, when it was joined. -/
  target : Option Alias
deriving DecidableEq, Repr, Inhabited

/-- The column with the value: the identity of a joined entity, else the value of the slot. -/
def Reached.valueColumn (ctx : Context) (reached : Reached) : Column :=
  match reached.target with
  | some entity => entity.column ctx.layout.entityIdentityColumn
  | none => reached.slot.column ctx.layout.valueColumn

def Draft.followSteps (ctx : Context) (kind : JoinKind) (pathEnd : PathEnd) :
    List PathStep → Origin → Reached → Draft → Except CompileError (Reached × Draft)
  | [], _, reached, draft => .ok (reached, draft)
  | step :: rest, origin, _, draft => do
      let (slot, draft) ← draft.joinSlot ctx origin step.name kind
      if step.isAssociation then
        if rest.isEmpty && pathEnd == .slot then
          return ({ slot := slot, target := none }, draft)
        else
          let (entity, draft) := draft.joinTarget ctx slot kind
          followSteps ctx kind pathEnd rest (.entity entity)
            { slot := slot, target := some entity } draft
      else
        followSteps ctx kind pathEnd rest (.row slot) { slot := slot, target := none } draft

def Draft.follow (ctx : Context) (path : Path) (kind : JoinKind) (pathEnd : PathEnd)
    (draft : Draft) : Except CompileError (Reached × Draft) :=
  draft.followSteps ctx kind pathEnd path.steps (.entity Alias.root)
    { slot := Alias.root, target := none }

/-!
# Kinds of joins

A leaf that a missing value satisfies needs outer joins, so that entities
without the slot are kept.
-/

/-- What a leaf asks of the slot it reaches. -/
inductive LeafKind where
  | comparison
  | containment
  | isNull
  | isNotNull
deriving DecidableEq, Repr, Inhabited

def LeafKind.joinKind (leaf : LeafKind) (negated : Bool) : JoinKind :=
  match leaf with
  | comparison | containment | isNotNull => if negated then .left else .inner
  | isNull => if negated then .inner else .left

end SlotQuery
