import SlotQuery.Proofs.Outcomes
import SlotQuery.Proofs.Parameters
import SlotQuery.Proofs.Rebinding

/-!
# Outlines of requests

The outline of a request has a fixed value of the same type in place of each
scalar, regular expression and identity. Taking the outline first and compiling
then comes to the same as compiling first: joins, conditions and errors follow
the shape of a value, never its contents.
-/

namespace SlotQuery

/-!
# Outlines

Lists and composites keep their members and the names of their fields.
-/

namespace Value

mutual

def outline : Value → Value
  | null => null
  | bool _ => bool false
  | int _ => int 0
  | float _ => float default
  | string _ => string ""
  | instant _ => instant default
  | list items => list (outlineAll items)
  | composite fields => composite (outlineFields fields)

def outlineAll : List Value → List Value
  | [] => []
  | value :: rest => outline value :: outlineAll rest

def outlineFields : List (QualifiedName × Value) → List (QualifiedName × Value)
  | [] => []
  | (name, value) :: rest => (name, outline value) :: outlineFields rest

end

mutual

theorem containsList_outline (value : Value) : value.outline.containsList = value.containsList := by
  cases value with
  | composite fields => exact fieldsContainList_outline fields
  | null | bool b | int n | float x | string s | instant t | list items => rfl

theorem fieldsContainList_outline (fields : List (QualifiedName × Value)) :
    fieldsContainList (outlineFields fields) = fieldsContainList fields := by
  cases fields with
  | nil => rfl
  | cons field rest =>
      cases field with
      | mk name value =>
          rw [outlineFields, fieldsContainList, fieldsContainList, containsList_outline value,
            fieldsContainList_outline rest]

end

theorem isComposite_comp_outline : isComposite ∘ outline = isComposite := by
  funext value
  cases value <;> rfl

theorem boundType_comp_outline : boundType ∘ outline = boundType := by
  funext value
  cases value <;> rfl

end Value

namespace Predicate

mutual

def outline : Predicate → Predicate
  | and children => and (outlineAll children)
  | or children => or (outlineAll children)
  | not operand => not (outline operand)
  | comparison op path value => comparison op path value.outline
  | isMatch path _ => isMatch path ""
  | contains path value => contains path value.outline
  | containsAll path values => containsAll path (values.map Value.outline)
  | propertyNull path => propertyNull path
  | propertyNotNull path => propertyNotNull path
  | associationNull path => associationNull path
  | associationNotNull path => associationNotNull path
  | manyAssociationContains path _ => manyAssociationContains path ""

def outlineAll : List Predicate → List Predicate
  | [] => []
  | child :: rest => outline child :: outlineAll rest

end

end Predicate

def Request.outline (request : Request) : Request :=
  { request with predicate := request.predicate.map Predicate.outline }

def Rebinding.outline : Rebinding :=
  { value := Value.outline
    pattern := fun _ => ""
    value_string := fun _ => rfl }

/-!
# Drafts

A join has no values to replace, and which joins are known does not change.
-/

namespace Draft

def outline (draft : Draft) : Draft :=
  { draft with query := draft.query.rebind .outline }

theorem outline_addCondition (draft : Draft) (condition : Condition) :
    (draft.addCondition condition).outline =
      draft.outline.addCondition (condition.rebind .outline) := by
  simp only [outline, addCondition, Select.rebind_eq, List.map_append, List.map_singleton]

theorem outline_withJoin (draft : Draft) (key : JoinKey) {join : Join}
    (h : join.rebind .outline = join) :
    (draft.withJoin key join).outline = draft.outline.withJoin key join := by
  simp only [outline, withJoin, takeAlias, addJoin, Select.rebind_eq, List.map_append,
    List.map_singleton, h]

theorem outline_addOrder (draft : Draft) (column : Column) (order : SortOrder) :
    (draft.addOrder column order).outline = draft.outline.addOrder column order := by
  simp only [outline, addOrder, Select.rebind_eq]

theorem outline_withHaving (draft : Draft) (having : Having) :
    (draft.withHaving having).outline = draft.outline.withHaving having := by
  simp only [outline, withHaving, Select.rebind_eq]

section

variable {ctx : Context}

theorem joinSlot_outline (origin : Origin) (name : QualifiedName) (kind : JoinKind)
    (draft : Draft) :
    draft.outline.joinSlot ctx origin name kind =
      (draft.joinSlot ctx origin name kind).map (Prod.map id outline) := by
  have hknown : draft.outline.known? (.slot origin.occurrence name) =
      draft.known? (.slot origin.occurrence name) := rfl
  simp only [joinSlot, hknown]
  cases draft.known? (.slot origin.occurrence name) with
  | some found => rfl
  | none =>
      apply bind_eq_map_bind_of_eq
      intro info
      have hjoin : (slotJoin ctx origin draft.next info kind).rebind .outline =
          slotJoin ctx origin draft.next info kind := by
        cases origin <;> rfl
      exact congrArg (fun joined => Except.ok (draft.next, joined))
        (outline_withJoin draft (.slot origin.occurrence name) hjoin).symm

theorem joinTarget_outline (slot : Alias) (kind : JoinKind) (draft : Draft) :
    draft.outline.joinTarget ctx slot kind =
      Prod.map id outline (draft.joinTarget ctx slot kind) := by
  cases hknown : draft.known? (.target slot) with
  | some found =>
      have hknown' : draft.outline.known? (.target slot) = some found := hknown
      simp only [joinTarget, hknown, hknown']
      rfl
  | none =>
      have hknown' : draft.outline.known? (.target slot) = none := hknown
      rw [joinTarget_eq hknown, joinTarget_eq hknown']
      exact congrArg (Prod.mk draft.next) (outline_withJoin draft (.target slot) rfl).symm

theorem followSteps_outline (kind : JoinKind) (pathEnd : PathEnd) (steps : List PathStep)
    (origin : Origin) (reached : Reached) (draft : Draft) :
    draft.outline.followSteps ctx kind pathEnd steps origin reached =
      (draft.followSteps ctx kind pathEnd steps origin reached).map (Prod.map id outline) := by
  induction steps generalizing origin reached draft with
  | nil => rfl
  | cons step rest ih =>
      simp only [followSteps]
      apply bind_eq_map_bind (joinSlot_outline origin step.name kind draft)
      intro joined
      cases joined with
      | mk slot middle =>
          simp only [Prod.map, id, joinTarget_outline]
          split
          · split
            · rfl
            · exact ih _ _ _
          · exact ih _ _ _

theorem follow_outline (path : Path) (kind : JoinKind) (pathEnd : PathEnd) (draft : Draft) :
    draft.outline.follow ctx path kind pathEnd =
      (draft.follow ctx path kind pathEnd).map (Prod.map id outline) :=
  followSteps_outline kind pathEnd path.steps _ _ draft

theorem followToElements_outline (path : Path) (withTargets : Bool) (draft : Draft) :
    draft.outline.followToElements ctx path withTargets =
      (draft.followToElements ctx path withTargets).map (Prod.map id outline) :=
  bind_eq_map_bind_of_eq fun pathEnd => follow_outline path _ pathEnd draft

end

end Draft

/-!
# Leaves

Whether a value is accepted, and which joins its fields need, follows its shape.
-/

section

variable {ctx : Context}

mutual

theorem valueCondition_outline (depth : Nat) (holder : Alias) (value : Value) (draft : Draft) :
    valueCondition ctx depth holder value.outline draft.outline =
      (valueCondition ctx depth holder value draft).map
        (Prod.map (Condition.rebind .outline) Draft.outline) := by
  rw [valueCondition, valueCondition]
  split
  · rfl
  · cases value with
    | composite fields =>
        apply bind_eq_map_bind (fieldConditions_outline depth holder fields draft)
        intro found
        exact congrArg (fun condition => Except.ok (condition, found.snd.outline))
          (Condition.rebind_all .outline found.fst).symm
    | null | bool b | int n | float x | string s | instant t | list items => rfl

theorem fieldConditions_outline (depth : Nat) (holder : Alias)
    (fields : List (QualifiedName × Value)) (draft : Draft) :
    fieldConditions ctx depth holder (Value.outlineFields fields) draft.outline =
      (fieldConditions ctx depth holder fields draft).map
        (Prod.map (List.map (Condition.rebind .outline)) Draft.outline) := by
  cases fields with
  | nil => rfl
  | cons field rest =>
      cases field with
      | mk name value =>
          rw [Value.outlineFields, fieldConditions, fieldConditions]
          apply bind_eq_map_bind (Draft.joinSlot_outline (.row holder) name .left draft)
          intro joined
          apply bind_eq_map_bind (valueCondition_outline (depth + 1) joined.fst value joined.snd)
          intro found
          apply bind_eq_map_bind (fieldConditions_outline depth holder rest found.snd)
          intro others
          rfl

end

theorem checkElement_outline (path : Path) (value : Value) :
    checkElement path value.outline = checkElement path value := by
  cases value with
  | composite fields =>
      have hlist := Value.containsList_outline (.composite fields)
      simp only [Value.outline] at hlist
      simp only [Value.outline, checkElement, hlist]
  | null | bool b | int n | float x | string s | instant t | list items => rfl

theorem checkElements_outline (path : Path) (values : List Value) :
    checkElements path (values.map Value.outline) = checkElements path values := by
  induction values with
  | nil => rfl
  | cons value rest ih =>
      rw [List.map_cons, checkElements, checkElements, checkElement_outline, ih]

theorem elementCondition_outline (elements : Reached) (path : Path) (value : Value)
    (draft : Draft) :
    elementCondition ctx elements path value.outline draft.outline =
      (elementCondition ctx elements path value draft).map
        (Prod.map (Condition.rebind .outline) Draft.outline) := by
  cases htarget : elements.target with
  | none =>
      simp only [elementCondition, htarget]
      exact valueCondition_outline 0 elements.slot value draft
  | some entity =>
      simp only [elementCondition, htarget]
      cases value <;> rfl

theorem elementConditions_outline (elements : Reached) (path : Path) (values : List Value)
    (draft : Draft) :
    elementConditions ctx elements path (values.map Value.outline) draft.outline =
      (elementConditions ctx elements path values draft).map
        (Prod.map (List.map (Condition.rebind .outline)) Draft.outline) := by
  induction values generalizing draft with
  | nil => rfl
  | cons value rest ih =>
      rw [List.map_cons, elementConditions, elementConditions]
      apply bind_eq_map_bind (elementCondition_outline elements path value draft)
      intro found
      apply bind_eq_map_bind (ih found.snd)
      intro others
      rfl

theorem countedColumn_outline (elements : Reached) (values : List Value) :
    countedColumn ctx elements (values.map Value.outline) =
      countedColumn ctx elements values := by
  simp only [countedColumn, List.any_map, Value.isComposite_comp_outline]

theorem complementIf_outline (negated : Bool) (positive : Filter) :
    complementIf ctx negated (positive.rebind .outline) =
      (complementIf ctx negated positive).rebind .outline := by
  cases negated with
  | false => rfl
  | true => exact Filter.merged_rebind .outline .except [.select ctx.allEntities.query, positive]

/-- A draft of all entities has no values, so the outline of a walk is the same walk. -/
theorem Context.follow_outline (path : Path) (kind : JoinKind) (pathEnd : PathEnd) :
    ctx.allEntities.follow ctx path kind pathEnd =
      (ctx.allEntities.follow ctx path kind pathEnd).map (Prod.map id Draft.outline) :=
  Draft.follow_outline path kind pathEnd ctx.allEntities

theorem Context.followToElements_outline (path : Path) (withTargets : Bool) :
    ctx.allEntities.followToElements ctx path withTargets =
      (ctx.allEntities.followToElements ctx path withTargets).map (Prod.map id Draft.outline) :=
  Draft.followToElements_outline path withTargets ctx.allEntities

theorem Draft.filter_outline (draft : Draft) (condition : Condition) :
    Filter.select (draft.outline.addCondition (condition.rebind .outline)).query =
      (Filter.select (draft.addCondition condition).query).rebind .outline :=
  congrArg (fun draft => Filter.select (Draft.query draft))
    (Draft.outline_addCondition draft condition).symm

variable (path : Path) (negated : Bool)

theorem compileNullTest_outline (leaf : LeafKind) :
    compileNullTest ctx path leaf negated =
      (compileNullTest ctx path leaf negated).map (Filter.rebind .outline) := by
  apply bind_eq_map_bind (Context.follow_outline path (leaf.joinKind negated) .slot)
  intro found
  cases found with
  | mk reached draft =>
      simp only [Prod.map, id]
      split
      · exact congrArg Except.ok (Draft.filter_outline draft (.isNull _))
      · exact congrArg Except.ok (Draft.filter_outline draft (.isNotNull _))

theorem compileScalarComparison_outline (op : ComparisonOp) (value : Value) :
    compileScalarComparison ctx op path value.outline negated =
      (compileScalarComparison ctx op path value negated).map (Filter.rebind .outline) := by
  apply bind_eq_map_bind
    (Context.follow_outline path (LeafKind.comparison.joinKind negated) .entity)
  intro found
  cases negated with
  | false =>
      exact congrArg Except.ok (Draft.filter_outline found.snd
        (.compare (found.fst.valueColumn ctx) op value))
  | true =>
      exact congrArg Except.ok (Draft.filter_outline found.snd
        (.or [.compare (found.fst.valueColumn ctx) op.negated value,
          .isNull (found.fst.valueColumn ctx)]))

theorem compileMatch_outline (regex : String) :
    compileMatch ctx path "" negated =
      (compileMatch ctx path regex negated).map (Filter.rebind .outline) := by
  apply bind_eq_map_bind_of_eq
  intro _
  apply bind_eq_map_bind
    (Context.follow_outline path (LeafKind.comparison.joinKind negated) .entity)
  intro found
  cases negated with
  | false =>
      exact congrArg Except.ok (Draft.filter_outline found.snd
        (.regex (found.fst.valueColumn ctx) regex))
  | true =>
      exact congrArg Except.ok (Draft.filter_outline found.snd
        (.or [.not (.regex (found.fst.valueColumn ctx) regex),
          .isNull (found.fst.valueColumn ctx)]))

theorem compileCompositeComparison_outline (op : ComparisonOp) (value : Value) :
    compileCompositeComparison ctx op path value.outline negated =
      (compileCompositeComparison ctx op path value negated).map (Filter.rebind .outline) := by
  rw [compileCompositeComparison, compileCompositeComparison, Value.containsList_outline]
  apply bind_eq_map_bind_of_eq
  intro _
  apply bind_eq_map_bind_of_eq
  intro _
  apply bind_eq_map_bind_of_eq
  intro _
  apply bind_eq_map_bind (Context.follow_outline path (LeafKind.comparison.joinKind false) .slot)
  intro found
  apply bind_eq_map_bind (valueCondition_outline 0 found.fst.slot value found.snd)
  intro tested
  refine congrArg Except.ok ((congrArg _ ?_).trans (complementIf_outline _ _))
  exact Draft.filter_outline tested.snd tested.fst

theorem compileComparison_outline (op : ComparisonOp) (value : Value) :
    compileComparison ctx op path value.outline negated =
      (compileComparison ctx op path value negated).map (Filter.rebind .outline) := by
  cases value with
  | null =>
      cases op with
      | eq => exact compileNullTest_outline path negated .isNull
      | ne => exact compileNullTest_outline path negated .isNotNull
      | ge | gt | le | lt => rfl
  | list items => rfl
  | composite fields =>
      exact compileCompositeComparison_outline path negated op (.composite fields)
  | bool b => exact compileScalarComparison_outline path negated op (.bool b)
  | int n => exact compileScalarComparison_outline path negated op (.int n)
  | float x => exact compileScalarComparison_outline path negated op (.float x)
  | string s => exact compileScalarComparison_outline path negated op (.string s)
  | instant t => exact compileScalarComparison_outline path negated op (.instant t)

theorem compileContains_outline (value : Value) :
    compileContains ctx path value.outline negated =
      (compileContains ctx path value negated).map (Filter.rebind .outline) := by
  rw [compileContains, compileContains, checkElement_outline]
  apply bind_eq_map_bind_of_eq
  intro _
  apply bind_eq_map_bind (Context.followToElements_outline path true)
  intro found
  have hbelow := Draft.outline_addCondition found.snd (belowTop ctx found.fst)
  apply bind_eq_map_bind ((congrArg _ hbelow.symm).trans
    (elementCondition_outline found.fst path value
      (found.snd.addCondition (belowTop ctx found.fst))))
  intro tested
  refine congrArg Except.ok ((congrArg _ ?_).trans (complementIf_outline _ _))
  exact Draft.filter_outline tested.snd tested.fst

theorem compileExists_outline :
    compileExists ctx path = (compileExists ctx path).map (Filter.rebind .outline) := by
  apply bind_eq_map_bind (Context.followToElements_outline path false)
  intro found
  exact congrArg Except.ok (Draft.filter_outline found.snd
    (.pathEquals (positionColumn ctx found.fst) (topPath ctx)))

theorem compileEach_outline (values : List Value) :
    compileEach ctx path (values.map Value.outline) =
      (compileEach ctx path values).map (Filter.rebind .outline) := by
  simp only [compileEach, countedColumn_outline, List.length_map]
  apply bind_eq_map_bind (Context.followToElements_outline path true)
  intro found
  have hbelow := Draft.outline_addCondition found.snd (belowTop ctx found.fst)
  apply bind_eq_map_bind ((congrArg _ hbelow.symm).trans
    (elementConditions_outline found.fst path values
      (found.snd.addCondition (belowTop ctx found.fst))))
  intro tested
  have hany : tested.snd.outline.addCondition
        (Condition.any (tested.fst.map (Condition.rebind .outline))) =
      (tested.snd.addCondition (Condition.any tested.fst)).outline := by
    rw [Draft.outline_addCondition, Condition.rebind_any]
  let having : Having := { column := countedColumn ctx found.fst values, min := values.length }
  exact congrArg (fun draft : Draft => Except.ok (Filter.select draft.query))
    ((congrArg (Draft.withHaving · having) hany).trans (Draft.outline_withHaving _ having).symm)

theorem compileContainsAll_outline (values : List Value) :
    compileContainsAll ctx path (values.map Value.outline) negated =
      (compileContainsAll ctx path values negated).map (Filter.rebind .outline) := by
  rw [compileContainsAll, compileContainsAll, checkElements_outline]
  apply bind_eq_map_bind_of_eq
  intro _
  have hcomplement : ∀ positive : Filter,
      (.ok (complementIf ctx negated (positive.rebind .outline)) : Except CompileError Filter) =
        (Except.ok (complementIf ctx negated positive)).map (Filter.rebind .outline) :=
    fun positive => congrArg Except.ok (complementIf_outline negated positive)
  cases values with
  | nil => exact bind_eq_map_bind (compileExists_outline path) hcomplement
  | cons first rest =>
      exact bind_eq_map_bind (compileEach_outline path (first :: rest)) hcomplement

end

/-!
# Predicates

By induction on the predicate. Operands are merged by how they were put together.
-/

section

variable {ctx : Context}

theorem combine_outline (op : SetOp) (operands : List Filter) :
    combine ctx op (operands.map (Filter.rebind .outline)) =
      (combine ctx op operands).rebind .outline := by
  cases operands with
  | nil => cases op <;> rfl
  | cons first rest =>
      cases rest with
      | nil => rfl
      | cons next later => exact Filter.merged_rebind .outline op (first :: next :: later)

mutual

theorem compilePredicate_outline (negated : Bool) (predicate : Predicate) :
    compilePredicate ctx negated predicate.outline =
      (compilePredicate ctx negated predicate).map (Filter.rebind .outline) := by
  cases predicate with
  | and children =>
      rw [Predicate.outline, compilePredicate, compilePredicate]
      apply bind_eq_map_bind (compileChildren_outline negated children)
      intro operands
      exact congrArg Except.ok (combine_outline _ operands)
  | or children =>
      rw [Predicate.outline, compilePredicate, compilePredicate]
      apply bind_eq_map_bind (compileChildren_outline negated children)
      intro operands
      exact congrArg Except.ok (combine_outline _ operands)
  | not operand => exact compilePredicate_outline (!negated) operand
  | comparison op path value => exact compileComparison_outline path negated op value
  | isMatch path regex => exact compileMatch_outline path negated regex
  | contains path value => exact compileContains_outline path negated value
  | containsAll path values => exact compileContainsAll_outline path negated values
  | propertyNull path => exact compileNullTest_outline path negated .isNull
  | propertyNotNull path => exact compileNullTest_outline path negated .isNotNull
  | associationNull path =>
      exact bind_eq_map_bind_of_eq fun _ => compileNullTest_outline path negated .isNull
  | associationNotNull path =>
      exact bind_eq_map_bind_of_eq fun _ => compileNullTest_outline path negated .isNotNull
  | manyAssociationContains path identity =>
      simp only [Predicate.outline, compilePredicate, compileManyAssociationContains]
      split
      · exact compileContains_outline path negated (.string identity)
      · rfl

theorem compileChildren_outline (negated : Bool) (children : List Predicate) :
    compileChildren ctx negated (Predicate.outlineAll children) =
      (compileChildren ctx negated children).map (List.map (Filter.rebind .outline)) := by
  cases children with
  | nil => rfl
  | cons child rest =>
      rw [Predicate.outlineAll, compileChildren, compileChildren]
      apply bind_eq_map_bind (compilePredicate_outline negated child)
      intro operand
      apply bind_eq_map_bind (compileChildren_outline negated rest)
      intro operands
      rfl

end

end

/-!
# Statements

What surrounds the filter does not look at values at all.
-/

section

variable {ctx : Context}

theorem Draft.addSortKeys_outline (orders : List OrderBy) (draft : Draft) :
    draft.outline.addSortKeys ctx orders =
      (draft.addSortKeys ctx orders).map (Prod.map id Draft.outline) := by
  induction orders generalizing draft with
  | nil => rfl
  | cons order rest ih =>
      cases order with
      | mk key order =>
          cases key with
          | identity =>
              simp only [addSortKeys]
              rw [← outline_addOrder]
              exact ih _
          | path path =>
              simp only [addSortKeys]
              apply bind_eq_map_bind_of_eq
              intro _
              apply bind_eq_map_bind (follow_outline path .left .entity draft)
              intro found
              have horder := outline_addOrder found.snd (found.fst.valueColumn ctx) order
              apply bind_eq_map_bind ((congrArg _ horder.symm).trans (ih _))
              intro keys
              rfl

theorem outerDraft_outline (projection : Projection) (filter : Option Filter) :
    outerDraft ctx projection (filter.map (Filter.rebind .outline)) =
      (outerDraft ctx projection filter).outline := by
  cases filter with
  | none => rfl
  | some filter =>
      show Draft.addCondition _ _ = (Draft.addCondition _ (.inQuery _ filter)).outline
      rw [Draft.outline_addCondition]
      rfl

theorem assemble_outline (request : Request) (filter : Option Filter) :
    assemble ctx request.outline (filter.map (Filter.rebind .outline)) =
      (assemble ctx request filter).map (Select.rebind .outline) := by
  have hcount : request.outline.countOnly = request.countOnly := rfl
  have hties : request.outline.needsTieBreak = request.needsTieBreak := rfl
  simp only [assemble, outerDraft_outline, hcount, hties]
  split
  · rfl
  · apply bind_eq_map_bind (Draft.addSortKeys_outline request.orderBy _)
    intro keys
    apply congrArg Except.ok
    cases request.needsTieBreak with
    | false =>
        simp only [Bool.false_eq_true, if_false, Prod.map, id, Draft.outline, Request.outline,
          Select.rebind_eq]
    | true =>
        simp only [if_true, Prod.map, id, Draft.addOrder, Draft.outline, Request.outline,
          Select.rebind_eq]

end

def Statement.outline (statement : Statement) : Statement :=
  { statement with params := statement.params.map Value.outline }

theorem Statement.ofSelect_outline (spelling : Spelling) (query : Select) :
    ofSelect spelling (query.rebind .outline) = (ofSelect spelling query).outline := by
  have hsql : (ofSelect spelling (query.rebind .outline)).sql = (ofSelect spelling query).sql := by
    show (((query.rebind .outline).render spelling).write spelling.dialect .empty).fst = _
    rw [Select.render_rebind]
    exact Fragment.sql_rebind spelling.dialect _ rfl
  have hvalues : (query.rebind .outline).boundValues = query.boundValues.map Value.outline := by
    rw [← (Select.render_binds spelling _).values_eq, Select.render_rebind,
      Fragment.values_rebind, (Select.render_binds spelling query).values_eq]
    rfl
  rcases ofSelect_params spelling query with ⟨hparams, htypes⟩
  rcases ofSelect_params spelling (query.rebind .outline) with ⟨hparams', htypes'⟩
  rw [hvalues, ← hparams] at hparams'
  rw [hvalues, List.map_map, Value.boundType_comp_outline, ← htypes] at htypes'
  exact (Statement.mk.injEq _ _ _ _ _ _).mpr ⟨hsql, hparams', htypes'⟩

namespace Compiler

variable (compiler : Compiler) (request : Request)

theorem select_outline :
    compiler.select request.outline = (compiler.select request).map (Select.rebind .outline) := by
  apply bind_eq_map_bind_of_eq
  intro ctx
  have hfilter : compileFilter ctx (request.predicate.map Predicate.outline) =
      (compileFilter ctx request.predicate).map (Option.map (Filter.rebind .outline)) := by
    cases request.predicate with
    | none => rfl
    | some predicate =>
        exact bind_eq_map_bind (compilePredicate_outline false predicate) fun _ => rfl
  exact bind_eq_map_bind hfilter (assemble_outline request)

/-- The outline of a request gives the statement of the request with other parameters. -/
theorem compile_outline :
    compiler.compile request.outline = (compiler.compile request).map Statement.outline := by
  apply bind_eq_map_bind (select_outline compiler request)
  intro query
  exact congrArg Except.ok (Statement.ofSelect_outline compiler.spelling query)

end Compiler

/-- Requests that differ in what is bound only have the same text and types, or the same error. -/
theorem compile_eq_of_outline_eq (compiler : Compiler) {first second : Request}
    (h : first.outline = second.outline) :
    (∃ statement other : Statement,
        compiler.compile first = .ok statement ∧ compiler.compile second = .ok other ∧
          statement.sql = other.sql ∧ statement.paramTypes = other.paramTypes) ∨
      ∃ error : CompileError,
        compiler.compile first = .error error ∧ compiler.compile second = .error error := by
  have houtline := (compiler.compile_outline first).symm.trans
    ((congrArg compiler.compile h).trans (compiler.compile_outline second))
  cases hfirst : compiler.compile first with
  | error error =>
      cases hsecond : compiler.compile second with
      | error other =>
          rw [hfirst, hsecond] at houtline
          cases houtline
          exact Or.inr ⟨error, rfl, rfl⟩
      | ok other =>
          rw [hfirst, hsecond] at houtline
          cases houtline
  | ok statement =>
      cases hsecond : compiler.compile second with
      | error error =>
          rw [hfirst, hsecond] at houtline
          cases houtline
      | ok other =>
          rw [hfirst, hsecond] at houtline
          have hsame : statement.outline = other.outline := Except.ok.inj houtline
          have hsql := congrArg Statement.sql hsame
          have htypes := congrArg Statement.paramTypes hsame
          exact Or.inl ⟨statement, other, rfl, rfl, hsql, htypes⟩

theorem partlyTagged_share_text :
    (People.partlyTagged "Paris" "red").outline =
        (People.partlyTagged "' OR 'a' = 'a" "--").outline ∧
      ∃ statement other : Statement,
        People.compiler.compile (People.partlyTagged "Paris" "red") = .ok statement ∧
          People.compiler.compile (People.partlyTagged "' OR 'a' = 'a" "--") = .ok other ∧
          statement.sql = other.sql ∧ statement.paramTypes = other.paramTypes := by
  have houtline : (People.partlyTagged "Paris" "red").outline =
      (People.partlyTagged "' OR 'a' = 'a" "--").outline := rfl
  refine ⟨houtline, ?_⟩
  rcases compile_eq_of_outline_eq People.compiler houtline with hsame | ⟨error, herror, _⟩
  · exact hsame
  · rcases People.exists_select_partlyTagged "Paris" "red" with ⟨query, hquery⟩
    rw [Compiler.compile, hquery] at herror
    cases herror

end SlotQuery
