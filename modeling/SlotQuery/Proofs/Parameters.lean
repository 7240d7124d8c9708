import SlotQuery.Proofs.BoundValues
import SlotQuery.Proofs.Joins
import SlotQuery.Proofs.Tables

/-!
# The parameters of a statement

The parameters of a statement are the scalars of its predicate, read from left
to right. Joins bind nothing, so it does not matter which of them are shared;
negation and the merging of operands keep the order, and what the outer select
adds around the filter binds nothing either.
-/

namespace SlotQuery

/-!
# Scalars of a predicate

Null is not bound, and neither is a test for null. A composite has the scalars
of its fields.
-/

namespace Value

mutual

def scalars : Value → List Value
  | null => []
  | bool b => [bool b]
  | int n => [int n]
  | float x => [float x]
  | string s => [string s]
  | instant t => [instant t]
  | list items => allScalars items
  | composite fields => fieldScalars fields

def allScalars : List Value → List Value
  | [] => []
  | value :: rest => scalars value ++ allScalars rest

def fieldScalars : List (QualifiedName × Value) → List Value
  | [] => []
  | (_, value) :: rest => scalars value ++ fieldScalars rest

end

mutual

theorem exists_sqlType_of_mem_scalars {scalar : Value} (value : Value)
    (h : scalar ∈ value.scalars) : ∃ type, scalar.sqlType? = some type := by
  cases value with
  | null => cases h
  | bool b | int n | float x | string s | instant t =>
      rw [List.mem_singleton.mp h]
      exact ⟨_, rfl⟩
  | list items => exact exists_sqlType_of_mem_allScalars items h
  | composite fields => exact exists_sqlType_of_mem_fieldScalars fields h

theorem exists_sqlType_of_mem_allScalars {scalar : Value} (values : List Value)
    (h : scalar ∈ allScalars values) : ∃ type, scalar.sqlType? = some type := by
  cases values with
  | nil => cases h
  | cons value rest =>
      rcases List.mem_append.mp h with hfirst | hrest
      · exact exists_sqlType_of_mem_scalars value hfirst
      · exact exists_sqlType_of_mem_allScalars rest hrest

theorem exists_sqlType_of_mem_fieldScalars {scalar : Value}
    (fields : List (QualifiedName × Value)) (h : scalar ∈ fieldScalars fields) :
    ∃ type, scalar.sqlType? = some type := by
  cases fields with
  | nil => cases h
  | cons field rest =>
      cases field with
      | mk name value =>
          rcases List.mem_append.mp h with hfirst | hrest
          · exact exists_sqlType_of_mem_scalars value hfirst
          · exact exists_sqlType_of_mem_fieldScalars rest hrest

end

end Value

namespace Predicate

mutual

def scalars : Predicate → List Value
  | and children | or children => childrenScalars children
  | not operand => scalars operand
  | comparison _ _ value | contains _ value => value.scalars
  | containsAll _ values => Value.allScalars values
  | isMatch _ regex => [.string regex]
  | manyAssociationContains _ identity => [.string identity]
  | propertyNull _ | propertyNotNull _ | associationNull _ | associationNotNull _ => []

def childrenScalars : List Predicate → List Value
  | [] => []
  | child :: rest => scalars child ++ childrenScalars rest

end

mutual

theorem exists_sqlType_of_mem_scalars {scalar : Value} (predicate : Predicate)
    (h : scalar ∈ predicate.scalars) : ∃ type, scalar.sqlType? = some type := by
  cases predicate with
  | and children => exact exists_sqlType_of_mem_childrenScalars children h
  | or children => exact exists_sqlType_of_mem_childrenScalars children h
  | not operand => exact exists_sqlType_of_mem_scalars operand h
  | comparison op path value => exact Value.exists_sqlType_of_mem_scalars value h
  | contains path value => exact Value.exists_sqlType_of_mem_scalars value h
  | containsAll path values => exact Value.exists_sqlType_of_mem_allScalars values h
  | isMatch path text | manyAssociationContains path text =>
      rw [List.mem_singleton.mp h]
      exact ⟨_, rfl⟩
  | propertyNull path | propertyNotNull path | associationNull path | associationNotNull path =>
      cases h

theorem exists_sqlType_of_mem_childrenScalars {scalar : Value} (children : List Predicate)
    (h : scalar ∈ childrenScalars children) : ∃ type, scalar.sqlType? = some type := by
  cases children with
  | nil => cases h
  | cons child rest =>
      rcases List.mem_append.mp h with hfirst | hrest
      · exact exists_sqlType_of_mem_scalars child hfirst
      · exact exists_sqlType_of_mem_childrenScalars rest hrest

end

end Predicate

/-!
# Values of queries

Lists of conditions, joins and operands bind what their members bind, in order.
-/

theorem Condition.boundValues_all (items : List Condition) :
    (Condition.all items).boundValues = items.flatMap boundValues := by
  unfold Condition.all
  split
  · exact (List.append_nil _).symm
  · exact allBoundValues_eq items

theorem Condition.boundValues_any (items : List Condition) :
    (Condition.any items).boundValues = items.flatMap boundValues := by
  unfold Condition.any
  split
  · exact (List.append_nil _).symm
  · exact allBoundValues_eq items

theorem Filter.flatMap_operandsFor (op : SetOp) (filter : Filter) :
    (operandsFor op filter).flatMap boundValues = filter.boundValues := by
  cases filter with
  | select query => exact List.append_nil _
  | compound inner operands =>
      simp only [operandsFor]
      split
      · exact (allBoundValues_eq operands).symm
      · exact List.append_nil _

theorem Filter.boundValues_merged (op : SetOp) (operands : List Filter) :
    (merged op operands).boundValues = operands.flatMap boundValues := by
  show allBoundValues (operands.flatMap (operandsFor op)) = _
  simp only [allBoundValues_eq, List.flatMap_assoc, flatMap_operandsFor]

/-!
# Values of drafts

A join binds nothing. A condition binds its values after those of the draft,
also where more joins are added later.
-/

namespace Draft

def boundValues (draft : Draft) : List Value :=
  draft.query.boundValues

theorem boundValues_addCondition (draft : Draft) (condition : Condition) :
    (draft.addCondition condition).boundValues = draft.boundValues ++ condition.boundValues := by
  simp only [boundValues, Select.boundValues_eq, addCondition, List.flatMap_append,
    List.flatMap_singleton, List.append_assoc]

theorem boundValues_withJoin (draft : Draft) (key : JoinKey) {join : Join}
    (h : join.boundValues = []) : (draft.withJoin key join).boundValues = draft.boundValues := by
  simp only [boundValues, Select.boundValues_eq, withJoin, addJoin, takeAlias,
    List.flatMap_append, List.flatMap_singleton, h, List.append_nil]

theorem boundValues_addOrder (draft : Draft) (column : Column) (order : SortOrder) :
    (draft.addOrder column order).boundValues = draft.boundValues := by
  simp only [boundValues, Select.boundValues_eq, addOrder]

section

variable {ctx : Context}

theorem boundValues_joinSlot {origin : Origin} {name : QualifiedName} {kind : JoinKind}
    {draft draft' : Draft} {slot : Alias}
    (h : draft.joinSlot ctx origin name kind = .ok (slot, draft')) :
    draft'.boundValues = draft.boundValues := by
  rcases joinSlot_cases h with ⟨_, hdraft⟩ | ⟨_, info, _, _, hdraft⟩
  · rw [hdraft]
  · rw [hdraft]
    apply boundValues_withJoin
    cases origin <;> rfl

theorem boundValues_joinTarget (slot : Alias) (kind : JoinKind) (draft : Draft) :
    (draft.joinTarget ctx slot kind).snd.boundValues = draft.boundValues := by
  cases hknown : draft.known? (.target slot) with
  | some found => simp only [joinTarget, hknown]
  | none =>
      rw [joinTarget_eq hknown]
      exact boundValues_withJoin draft _ rfl

theorem boundValues_followSteps {kind : JoinKind} {pathEnd : PathEnd} {steps : List PathStep}
    {origin : Origin} {reached reached' : Reached} {draft draft' : Draft}
    (h : draft.followSteps ctx kind pathEnd steps origin reached = .ok (reached', draft')) :
    draft'.boundValues = draft.boundValues := by
  induction steps generalizing origin reached draft with
  | nil =>
      cases h
      rfl
  | cons step rest ih =>
      simp only [followSteps, bind_eq_ok] at h
      rcases h with ⟨⟨slot, middle⟩, hslot, hrest⟩
      rw [← boundValues_joinSlot hslot]
      split at hrest
      · split at hrest
        · cases hrest
          rfl
        · rw [ih hrest, boundValues_joinTarget]
      · exact ih hrest

theorem boundValues_follow {path : Path} {kind : JoinKind} {pathEnd : PathEnd}
    {reached : Reached} {draft : Draft}
    (h : ctx.allEntities.follow ctx path kind pathEnd = .ok (reached, draft)) :
    draft.boundValues = [] :=
  boundValues_followSteps h

theorem boundValues_followToElements {path : Path} {withTargets : Bool} {elements : Reached}
    {draft : Draft}
    (h : ctx.allEntities.followToElements ctx path withTargets = .ok (elements, draft)) :
    draft.boundValues = [] := by
  simp only [followToElements, bind_eq_ok] at h
  rcases h with ⟨pathEnd, _, hfollow⟩
  exact boundValues_follow hfollow

end

end Draft

/-!
# Values of leaves
-/

section

variable {ctx : Context}

mutual

theorem valueCondition_boundValues {depth : Nat} {holder : Alias} {draft draft' : Draft}
    {condition : Condition} (value : Value)
    (h : valueCondition ctx depth holder value draft = .ok (condition, draft')) :
    condition.boundValues = value.scalars ∧ draft'.boundValues = draft.boundValues := by
  rw [valueCondition] at h
  split at h
  · cases h
  · cases value with
    | composite fields =>
        simp only [bind_eq_ok, pure_eq_ok, Prod.mk.injEq] at h
        rcases h with ⟨⟨conditions, middle⟩, hfields, hcondition, hdraft⟩
        rw [← hcondition, ← hdraft, Condition.boundValues_all]
        exact fieldConditions_boundValues fields hfields
    | list items => cases h
    | null | bool b | int n | float x | string s | instant t =>
        cases h
        exact ⟨rfl, rfl⟩

theorem fieldConditions_boundValues {depth : Nat} {holder : Alias} {draft draft' : Draft}
    {conditions : List Condition} (fields : List (QualifiedName × Value))
    (h : fieldConditions ctx depth holder fields draft = .ok (conditions, draft')) :
    conditions.flatMap Condition.boundValues = Value.fieldScalars fields ∧
      draft'.boundValues = draft.boundValues := by
  cases fields with
  | nil =>
      cases h
      exact ⟨rfl, rfl⟩
  | cons field rest =>
      cases field with
      | mk name value =>
          simp only [fieldConditions, bind_eq_ok, pure_eq_ok, Prod.mk.injEq] at h
          rcases h with ⟨⟨nested, joined⟩, hjoin, ⟨condition, middle⟩, hvalue,
            ⟨conditions', final⟩, hrest, hconditions, hdraft⟩
          rcases valueCondition_boundValues value hvalue with ⟨hcondition, hmiddle⟩
          rcases fieldConditions_boundValues rest hrest with ⟨hconditions', hfinal⟩
          rw [← hconditions, ← hdraft, List.flatMap_cons, Value.fieldScalars, hcondition,
            hconditions', hfinal, hmiddle, Draft.boundValues_joinSlot hjoin]
          exact ⟨rfl, rfl⟩

end

theorem elementCondition_boundValues {elements : Reached} {path : Path} {value : Value}
    {draft draft' : Draft} {condition : Condition}
    (h : elementCondition ctx elements path value draft = .ok (condition, draft')) :
    condition.boundValues = value.scalars ∧ draft'.boundValues = draft.boundValues := by
  cases htarget : elements.target with
  | none =>
      simp only [elementCondition, htarget] at h
      exact valueCondition_boundValues value h
  | some entity =>
      simp only [elementCondition, htarget] at h
      cases value with
      | string s =>
          cases h
          exact ⟨rfl, rfl⟩
      | null | bool b | int n | float x | instant t | list items | composite fields => cases h

theorem elementConditions_boundValues {elements : Reached} {path : Path} {values : List Value}
    {draft draft' : Draft} {conditions : List Condition}
    (h : elementConditions ctx elements path values draft = .ok (conditions, draft')) :
    conditions.flatMap Condition.boundValues = Value.allScalars values ∧
      draft'.boundValues = draft.boundValues := by
  induction values generalizing draft conditions with
  | nil =>
      cases h
      exact ⟨rfl, rfl⟩
  | cons value rest ih =>
      simp only [elementConditions, bind_eq_ok, pure_eq_ok, Prod.mk.injEq] at h
      rcases h with ⟨⟨condition, middle⟩, hvalue, ⟨conditions', final⟩, hrest, hconditions,
        hdraft⟩
      subst hdraft
      rcases elementCondition_boundValues hvalue with ⟨hcondition, hmiddle⟩
      rcases ih hrest with ⟨hconditions', hfinal⟩
      rw [← hconditions, List.flatMap_cons, Value.allScalars, hcondition, hconditions',
        hfinal, hmiddle]
      exact ⟨rfl, rfl⟩

theorem complementIf_boundValues (negated : Bool) (positive : Filter) :
    (complementIf ctx negated positive).boundValues = positive.boundValues := by
  cases negated with
  | false => rfl
  | true =>
      have hmerged := Filter.boundValues_merged .except [.select ctx.allEntities.query, positive]
      exact hmerged.trans (List.append_nil _)

/-- A select whose draft has no values yet binds what its condition binds. -/
theorem Draft.filter_boundValues {draft : Draft} (h : draft.boundValues = [])
    (condition : Condition) :
    (Filter.select (draft.addCondition condition).query).boundValues = condition.boundValues := by
  show (draft.addCondition condition).boundValues = _
  rw [boundValues_addCondition, h, List.nil_append]

variable {path : Path} {negated : Bool} {filter : Filter}

theorem compileNullTest_boundValues {leaf : LeafKind}
    (h : compileNullTest ctx path leaf negated = .ok filter) : filter.boundValues = [] := by
  simp only [compileNullTest, bind_eq_ok, pure_eq_ok] at h
  rcases h with ⟨⟨reached, draft⟩, hfollow, hfilter⟩
  subst hfilter
  rw [Draft.filter_boundValues (Draft.boundValues_follow hfollow)]
  split <;> rfl

theorem compileScalarComparison_boundValues {op : ComparisonOp} {value : Value}
    (h : compileScalarComparison ctx op path value negated = .ok filter) :
    filter.boundValues = [value] := by
  simp only [compileScalarComparison, bind_eq_ok, pure_eq_ok] at h
  rcases h with ⟨⟨reached, draft⟩, hfollow, hfilter⟩
  subst hfilter
  rw [Draft.filter_boundValues (Draft.boundValues_follow hfollow)]
  cases negated <;> rfl

theorem compileMatch_boundValues {regex : String}
    (h : compileMatch ctx path regex negated = .ok filter) :
    filter.boundValues = [.string regex] := by
  simp only [compileMatch, bind_eq_ok, pure_eq_ok] at h
  rcases h with ⟨_, _, ⟨reached, draft⟩, hfollow, hfilter⟩
  subst hfilter
  rw [Draft.filter_boundValues (Draft.boundValues_follow hfollow)]
  cases negated <;> rfl

theorem compileCompositeComparison_boundValues {op : ComparisonOp} {value : Value}
    (h : compileCompositeComparison ctx op path value negated = .ok filter) :
    filter.boundValues = value.scalars := by
  simp only [compileCompositeComparison, bind_eq_ok, pure_eq_ok] at h
  rcases h with ⟨_, _, _, _, _, _, ⟨reached, draft⟩, hfollow, ⟨condition, draft'⟩, hvalue,
    hfilter⟩
  rcases valueCondition_boundValues value hvalue with ⟨hcondition, hdraft'⟩
  subst hfilter
  rw [complementIf_boundValues,
    Draft.filter_boundValues (hdraft'.trans (Draft.boundValues_follow hfollow)), hcondition]

theorem compileComparison_boundValues {op : ComparisonOp} {value : Value}
    (h : compileComparison ctx op path value negated = .ok filter) :
    filter.boundValues = value.scalars := by
  cases value with
  | null =>
      cases op with
      | eq => exact compileNullTest_boundValues h
      | ne => exact compileNullTest_boundValues h
      | ge | gt | le | lt => cases h
  | list items => cases h
  | composite fields => exact compileCompositeComparison_boundValues h
  | bool b => exact compileScalarComparison_boundValues h
  | int n => exact compileScalarComparison_boundValues h
  | float x => exact compileScalarComparison_boundValues h
  | string s => exact compileScalarComparison_boundValues h
  | instant t => exact compileScalarComparison_boundValues h

theorem compileContains_boundValues {value : Value}
    (h : compileContains ctx path value negated = .ok filter) :
    filter.boundValues = value.scalars := by
  simp only [compileContains, bind_eq_ok, pure_eq_ok] at h
  rcases h with ⟨_, _, ⟨elements, draft⟩, hfollow, ⟨condition, draft'⟩, hcondition, hfilter⟩
  rcases elementCondition_boundValues hcondition with ⟨hvalues, hdraft'⟩
  subst hfilter
  rw [Draft.boundValues_addCondition, Draft.boundValues_followToElements hfollow] at hdraft'
  rw [complementIf_boundValues, Draft.filter_boundValues hdraft', hvalues]

theorem compileExists_boundValues (h : compileExists ctx path = .ok filter) :
    filter.boundValues = [] := by
  simp only [compileExists, bind_eq_ok, pure_eq_ok] at h
  rcases h with ⟨⟨elements, draft⟩, hfollow, hfilter⟩
  subst hfilter
  exact Draft.filter_boundValues (Draft.boundValues_followToElements hfollow) _

theorem compileEach_boundValues {values : List Value}
    (h : compileEach ctx path values = .ok filter) :
    filter.boundValues = Value.allScalars values := by
  simp only [compileEach, bind_eq_ok, pure_eq_ok] at h
  rcases h with ⟨⟨elements, draft⟩, hfollow, ⟨conditions, draft'⟩, hconditions, hfilter⟩
  rcases elementConditions_boundValues hconditions with ⟨hvalues, hdraft'⟩
  subst hfilter
  rw [Draft.boundValues_addCondition, Draft.boundValues_followToElements hfollow] at hdraft'
  have hselect := Draft.filter_boundValues hdraft' (Condition.any conditions)
  rw [Condition.boundValues_any, hvalues] at hselect
  exact hselect

theorem compileContainsAll_boundValues {values : List Value}
    (h : compileContainsAll ctx path values negated = .ok filter) :
    filter.boundValues = Value.allScalars values := by
  cases values with
  | nil =>
      simp only [compileContainsAll, List.isEmpty_nil, if_true, bind_eq_ok, pure_eq_ok] at h
      rcases h with ⟨_, _, positive, hpositive, hfilter⟩
      rw [← hfilter, complementIf_boundValues]
      exact compileExists_boundValues hpositive
  | cons first rest =>
      simp only [compileContainsAll, List.isEmpty_cons, Bool.false_eq_true, if_false,
        bind_eq_ok, pure_eq_ok] at h
      rcases h with ⟨_, _, positive, hpositive, hfilter⟩
      rw [← hfilter, complementIf_boundValues]
      exact compileEach_boundValues hpositive

end

/-!
# Values of predicates and requests

By induction on the predicate. The operands of a combinator stay in their order
when they are merged.
-/

section

variable {ctx : Context}

theorem combine_boundValues (op : SetOp) (operands : List Filter) :
    (combine ctx op operands).boundValues = operands.flatMap Filter.boundValues := by
  cases operands with
  | nil => cases op <;> rfl
  | cons operand rest =>
      cases rest with
      | nil => exact (List.append_nil _).symm
      | cons next later => exact Filter.boundValues_merged op _

mutual

theorem compilePredicate_boundValues {negated : Bool} {filter : Filter} (predicate : Predicate)
    (h : compilePredicate ctx negated predicate = .ok filter) :
    filter.boundValues = predicate.scalars := by
  cases predicate with
  | and children =>
      simp only [compilePredicate, bind_eq_ok, pure_eq_ok] at h
      rcases h with ⟨operands, hoperands, hfilter⟩
      rw [← hfilter, combine_boundValues]
      exact compileChildren_boundValues children hoperands
  | or children =>
      simp only [compilePredicate, bind_eq_ok, pure_eq_ok] at h
      rcases h with ⟨operands, hoperands, hfilter⟩
      rw [← hfilter, combine_boundValues]
      exact compileChildren_boundValues children hoperands
  | not operand => exact compilePredicate_boundValues operand h
  | comparison op path value => exact compileComparison_boundValues h
  | isMatch path regex => exact compileMatch_boundValues h
  | contains path value => exact compileContains_boundValues h
  | containsAll path values => exact compileContainsAll_boundValues h
  | propertyNull path => exact compileNullTest_boundValues h
  | propertyNotNull path => exact compileNullTest_boundValues h
  | associationNull path =>
      simp only [compilePredicate, bind_eq_ok] at h
      rcases h with ⟨_, _, hnull⟩
      exact compileNullTest_boundValues hnull
  | associationNotNull path =>
      simp only [compilePredicate, bind_eq_ok] at h
      rcases h with ⟨_, _, hnull⟩
      exact compileNullTest_boundValues hnull
  | manyAssociationContains path identity =>
      simp only [compilePredicate, compileManyAssociationContains] at h
      split at h
      · exact compileContains_boundValues h
      · cases h

theorem compileChildren_boundValues {negated : Bool} {operands : List Filter}
    (children : List Predicate) (h : compileChildren ctx negated children = .ok operands) :
    operands.flatMap Filter.boundValues = Predicate.childrenScalars children := by
  cases children with
  | nil =>
      cases h
      rfl
  | cons child rest =>
      simp only [compileChildren, bind_eq_ok, pure_eq_ok] at h
      rcases h with ⟨operand, hoperand, others, hothers, hoperands⟩
      rw [← hoperands, List.flatMap_cons, Predicate.childrenScalars,
        compilePredicate_boundValues child hoperand, compileChildren_boundValues rest hothers]

end

end

/-!
# Statements

The outer select binds what its filter binds. Sort keys add joins and columns,
and the window is written into the text.
-/

def Request.scalars (request : Request) : List Value :=
  request.predicate.elim [] Predicate.scalars

section

variable {ctx : Context}

/-- What the first of the sort keys adds to the draft. -/
theorem Draft.addSortKeys_cons_cases {first : OrderBy} {rest : List OrderBy}
    {draft draft' : Draft} {extra : List Column}
    (h : draft.addSortKeys ctx (first :: rest) = .ok (extra, draft')) :
    (∃ order, first = { key := .identity, order := order } ∧
      (draft.addOrder (Alias.root.column ctx.layout.entityIdentityColumn) order).addSortKeys ctx
        rest = .ok (extra, draft')) ∨
    ∃ path order reached middle later, first = { key := .path path, order := order } ∧
      draft.follow ctx path .left .entity = .ok (reached, middle) ∧
      (middle.addOrder (reached.valueColumn ctx) order).addSortKeys ctx rest =
        .ok (later, draft') ∧
      extra = reached.valueColumn ctx :: later := by
  cases first with
  | mk key order =>
      cases key with
      | identity => exact Or.inl ⟨order, rfl, h⟩
      | path path =>
          simp only [addSortKeys, bind_eq_ok, pure_eq_ok, Prod.mk.injEq] at h
          rcases h with ⟨_, _, ⟨reached, middle⟩, hfollow, ⟨later, final⟩, hrest, hextra, hdraft⟩
          subst hdraft
          exact Or.inr ⟨path, order, reached, middle, later, rfl, hfollow, hrest, hextra.symm⟩

theorem Draft.boundValues_addSortKeys {orders : List OrderBy} {draft draft' : Draft}
    {extra : List Column} (h : draft.addSortKeys ctx orders = .ok (extra, draft')) :
    draft'.boundValues = draft.boundValues := by
  induction orders generalizing draft extra with
  | nil =>
      cases h
      rfl
  | cons first rest ih =>
      rcases addSortKeys_cons_cases h with ⟨order, _, hrest⟩ |
        ⟨path, order, reached, middle, later, _, hfollow, hrest, _⟩
      · rw [ih hrest, boundValues_addOrder]
      · rw [ih hrest, boundValues_addOrder]
        exact boundValues_followSteps hfollow

theorem outerDraft_boundValues (projection : Projection) (filter : Option Filter) :
    (outerDraft ctx projection filter).boundValues = filter.elim [] Filter.boundValues := by
  cases filter with
  | none => rfl
  | some filter =>
      show (Draft.addCondition _ (.inQuery _ filter)).boundValues = _
      rw [Draft.boundValues_addCondition]
      rfl

theorem assemble_boundValues {request : Request} {filter : Option Filter} {query : Select}
    (h : assemble ctx request filter = .ok query) :
    query.boundValues = filter.elim [] Filter.boundValues := by
  simp only [assemble] at h
  split at h
  · cases h
    exact outerDraft_boundValues .count filter
  · simp only [bind_eq_ok, pure_eq_ok] at h
    rcases h with ⟨⟨extra, draft⟩, hkeys, hquery⟩
    rw [← @outerDraft_boundValues ctx (.entities []) filter,
      ← Draft.boundValues_addSortKeys hkeys, ← hquery]
    split <;> simp only [Select.boundValues_eq, Draft.boundValues, Draft.addOrder]

theorem compileFilter_boundValues {predicate : Option Predicate} {filter : Option Filter}
    (h : Compiler.compileFilter ctx predicate = .ok filter) :
    filter.elim [] Filter.boundValues = predicate.elim [] Predicate.scalars := by
  cases predicate with
  | none =>
      cases h
      rfl
  | some predicate =>
      simp only [Compiler.compileFilter, bind_eq_ok, pure_eq_ok] at h
      rcases h with ⟨found, hfound, hfilter⟩
      rw [← hfilter]
      exact compilePredicate_boundValues predicate hfound

end

theorem Compiler.select_boundValues {compiler : Compiler} {request : Request} {query : Select}
    (h : compiler.select request = .ok query) : query.boundValues = request.scalars := by
  simp only [select, bind_eq_ok] at h
  rcases h with ⟨ctx, _, filter, hfilter, hassemble⟩
  rw [assemble_boundValues hassemble, compileFilter_boundValues hfilter]
  rfl

theorem Request.exists_sqlType_of_mem_scalars {scalar : Value} (request : Request)
    (h : scalar ∈ request.scalars) : ∃ type, scalar.sqlType? = some type := by
  unfold scalars at h
  cases hpredicate : request.predicate with
  | none =>
      rw [hpredicate] at h
      cases h
  | some predicate =>
      rw [hpredicate] at h
      exact predicate.exists_sqlType_of_mem_scalars h

theorem Statement.ofSelect_params (spelling : Spelling) (query : Select) :
    (ofSelect spelling query).params = query.boundValues ∧
      (ofSelect spelling query).paramTypes = query.boundValues.map Value.boundType := by
  have hbindings := (query.render spelling).bindings_write spelling.dialect .empty
  rw [(Select.render_binds spelling query).values_eq] at hbindings
  exact ⟨congrArg Bindings.values hbindings, congrArg Bindings.types hbindings⟩

/-- Whatever surrounds the predicate, the parameters are its scalars from left to right, and each
is announced with its own type. -/
theorem compile_params {compiler : Compiler} {request : Request} {statement : Statement}
    (h : compiler.compile request = .ok statement) :
    statement.params = request.scalars ∧
      statement.params.map Value.sqlType? = statement.paramTypes.map some := by
  simp only [Compiler.compile, bind_eq_ok, pure_eq_ok] at h
  rcases h with ⟨query, hquery, hstatement⟩
  rcases Statement.ofSelect_params compiler.spelling query with ⟨hparams, htypes⟩
  rw [← hstatement, hparams, htypes, Compiler.select_boundValues hquery, List.map_map]
  refine ⟨rfl, List.map_congr_left ?_⟩
  intro scalar hscalar
  rcases request.exists_sqlType_of_mem_scalars hscalar with ⟨type, htype⟩
  simp [Value.boundType, htype]

def People.compiler : Compiler :=
  { schema := schema, dialect := .sqlite, layout := .standard, options := {} }

theorem People.contextFor_person : compiler.contextFor "Person" = .ok context := by
  cbv

/-- The first ten people, by name, with an address in the place, a name, and not both tags. -/
def People.partlyTagged (place tag : String) : Request :=
  let elsewhere := Predicate.comparison .ne (.property addresses)
    (.composite [(city, .string place), (name, .int 7)])
  let unnamed := Predicate.comparison .eq (.property name) .null
  let tagged := Predicate.containsAll (.property tags) [.string tag, .bool true]
  { Request.ofType "Person" with
    predicate := some (.not (.or [elsewhere, unnamed, tagged]))
    orderBy := [.ascending (.property name)]
    limit := some 10 }

theorem People.exists_select_partlyTagged (place tag : String) :
    ∃ query, compiler.select (partlyTagged place tag) = .ok query := by
  unfold Compiler.select
  rw [show (partlyTagged place tag).resultType = "Person" from rfl, contextFor_person]
  exact ⟨_, rfl⟩

theorem params_of_partlyTagged :
    ∃ statement : Statement,
      People.compiler.compile (People.partlyTagged "Paris" "red") = .ok statement ∧
        statement.params = [.string "Paris", .int 7, .string "red", .bool true] ∧
        statement.paramTypes = [.varchar, .bigInt, .varchar, .boolean] := by
  rcases People.exists_select_partlyTagged "Paris" "red" with ⟨query, hquery⟩
  have hcompile : People.compiler.compile (People.partlyTagged "Paris" "red") =
      .ok (.ofSelect People.compiler.spelling query) := by
    rw [Compiler.compile, hquery]
    rfl
  rcases compile_params hcompile with ⟨hparams, htypes⟩
  refine ⟨_, hcompile, hparams, ?_⟩
  rw [hparams] at htypes
  have hmap : [SqlType.varchar, .bigInt, .varchar, .boolean].map some =
      (Statement.ofSelect People.compiler.spelling query).paramTypes.map some := htypes
  exact ((List.map_inj_right fun _ _ => Option.some.inj).mp hmap).symm

end SlotQuery
