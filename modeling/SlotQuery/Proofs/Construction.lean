import SlotQuery.Proofs.Scoping

/-!
# How filters are built

Whatever the predicate, its filter is made of selects over the universe with
closed joins, taken away from the universe for a negation, and put together by
unions and intersections. What holds of all compiled filters follows from that.
-/

namespace SlotQuery

variable {ctx : Context} {draft draft' : Draft}

/-!
# Conditions on values

Joins for the fields of a composite come between its conditions, so each
condition has to stay fine while more tables are joined.
-/

mutual

theorem valueCondition_extends {depth : Nat} {holder : Alias} {draft draft' : Draft}
    {condition : Condition} (value : Value) (h : draft.IsClosed)
    (hholder : holder.index < draft.nextIndex)
    (hcompile : valueCondition ctx depth holder value draft = .ok (condition, draft')) :
    draft.Extends draft' ∧ draft'.Admits condition := by
  have hsees := Draft.Sees.column hholder ctx.layout.valueColumn
  rw [valueCondition] at hcompile
  split at hcompile
  · cases hcompile
  · cases value with
    | composite fields =>
        simp only [bind_eq_ok, pure_eq_ok, Prod.mk.injEq] at hcompile
        rcases hcompile with ⟨⟨conditions, middle⟩, hfields, hcondition, hdraft⟩
        rcases fieldConditions_extends fields h hholder hfields with ⟨hextends, hadmits⟩
        rw [← hcondition, ← hdraft]
        exact ⟨hextends, (Draft.Admits.bracketed hadmits).left⟩
    | list items => cases hcompile
    | null | bool b | int n | float x | string s | instant t =>
        cases hcompile
        exact ⟨Draft.Extends.refl h, Draft.Admits.single rfl rfl hsees⟩

theorem fieldConditions_extends {depth : Nat} {holder : Alias} {draft draft' : Draft}
    {conditions : List Condition} (fields : List (QualifiedName × Value)) (h : draft.IsClosed)
    (hholder : holder.index < draft.nextIndex)
    (hcompile : fieldConditions ctx depth holder fields draft = .ok (conditions, draft')) :
    draft.Extends draft' ∧ ∀ condition ∈ conditions, draft'.Admits condition := by
  cases fields with
  | nil =>
      cases hcompile
      exact ⟨Draft.Extends.refl h, by simp⟩
  | cons field rest =>
      cases field with
      | mk name value =>
          simp only [fieldConditions, bind_eq_ok, pure_eq_ok, Prod.mk.injEq] at hcompile
          rcases hcompile with ⟨⟨nested, joined⟩, hjoin, ⟨condition, middle⟩, hvalue,
            ⟨conditions', final⟩, hrest, hconditions, hdraft⟩
          have horigin : (Origin.row holder).occurrence.index < draft.nextIndex := hholder
          rcases Draft.joinSlot_extends h horigin hjoin with ⟨hjoined, hnested⟩
          rcases valueCondition_extends value hjoined.closed hnested hvalue with
            ⟨hmiddle, hadmits⟩
          have hheld := Nat.lt_of_lt_of_le hholder (hjoined.trans hmiddle).le
          rcases fieldConditions_extends rest hmiddle.closed hheld hrest with
            ⟨hfinal, hadmits'⟩
          rw [← hconditions, ← hdraft]
          refine ⟨hjoined.trans (hmiddle.trans hfinal), ?_⟩
          intro other hother
          cases hother with
          | head => exact hadmits.mono hfinal.le
          | tail _ hlater => exact hadmits' other hlater

end

theorem elementCondition_extends {elements : Reached} {path : Path} {value : Value}
    {condition : Condition} (h : draft.IsClosed) (helements : draft.Holds elements)
    (hcompile : elementCondition ctx elements path value draft = .ok (condition, draft')) :
    draft.Extends draft' ∧ draft'.Admits condition := by
  cases htarget : elements.target with
  | none =>
      simp only [elementCondition, htarget] at hcompile
      exact valueCondition_extends value h helements.slot hcompile
  | some entity =>
      simp only [elementCondition, htarget] at hcompile
      cases value with
      | string s =>
          cases hcompile
          exact ⟨Draft.Extends.refl h, Draft.Admits.single rfl rfl helements.sees_valueColumn⟩
      | null | bool b | int n | float x | instant t | list items | composite fields =>
          cases hcompile

theorem elementConditions_extends {elements : Reached} {path : Path} {values : List Value}
    {conditions : List Condition} (h : draft.IsClosed) (helements : draft.Holds elements)
    (hcompile : elementConditions ctx elements path values draft = .ok (conditions, draft')) :
    draft.Extends draft' ∧ ∀ condition ∈ conditions, draft'.Admits condition := by
  induction values generalizing draft conditions with
  | nil =>
      cases hcompile
      exact ⟨Draft.Extends.refl h, by simp⟩
  | cons value rest ih =>
      simp only [elementConditions, bind_eq_ok, pure_eq_ok, Prod.mk.injEq] at hcompile
      rcases hcompile with ⟨⟨condition, middle⟩, hvalue, ⟨conditions', final⟩, hrest,
        hconditions, hdraft⟩
      subst hconditions hdraft
      rcases elementCondition_extends h helements hvalue with ⟨hmiddle, hadmits⟩
      rcases ih hmiddle.closed (helements.mono hmiddle.le) hrest with ⟨hfinal, hadmits'⟩
      refine ⟨hmiddle.trans hfinal, ?_⟩
      intro other hother
      cases hother with
      | head => exact hadmits.mono hfinal.le
      | tail _ hlater => exact hadmits' other hlater

/-!
# Operands

A single select of a filter is the select of all entities with further joins,
further conditions, and perhaps a count.
-/

/-- A closed draft of entities of the requested types. -/
structure Draft.IsOperand (draft : Draft) (ctx : Context) : Prop where
  closed : draft.IsClosed
  form : ∃ joins conditions having, draft.query = ctx.selectWith joins conditions having

namespace Draft.IsOperand

theorem allEntities (ctx : Context) : ctx.allEntities.IsOperand ctx where
  closed := IsClosed.ofTypes .entityKey ctx.layout ctx.typeIds rfl
  form := ⟨[], [], none, rfl⟩

theorem extended (h : draft.IsOperand ctx) (hextends : draft.Extends draft') :
    draft'.IsOperand ctx where
  closed := hextends.closed
  form := by
    rcases h.form with ⟨joins, conditions, having, hquery⟩
    rcases hextends.grows with ⟨joins', hgrows⟩
    refine ⟨joins ++ joins', conditions, having, ?_⟩
    rw [hgrows.query, hquery]
    rfl

theorem addCondition (h : draft.IsOperand ctx) {condition : Condition}
    (hadmits : draft.Admits condition) : (draft.addCondition condition).IsOperand ctx where
  closed := h.closed.addCondition hadmits
  form := by
    rcases h.form with ⟨joins, conditions, having, hquery⟩
    refine ⟨joins, conditions ++ [condition], having, ?_⟩
    simp only [Draft.addCondition, hquery]
    rfl

theorem withHaving (h : draft.IsOperand ctx) {having : Having}
    (hsees : draft.Sees having.column.qualifier) :
    (draft.withHaving having).IsOperand ctx where
  closed := h.closed.withHaving hsees
  form := by
    rcases h.form with ⟨joins, conditions, _, hquery⟩
    refine ⟨joins, conditions, some having, ?_⟩
    simp only [Draft.withHaving, hquery]
    rfl

end Draft.IsOperand

/-!
# Filters
-/

/-- The ways in which filters are made. -/
inductive Context.Builds (ctx : Context) : Filter → Prop where
  | select {draft : Draft} (h : draft.IsOperand ctx) : Builds ctx (.select draft.query)
  | complement {draft : Draft} (h : draft.IsOperand ctx) :
      Builds ctx (complement ctx (.select draft.query))
  | combine {op : SetOp} {operands : List Filter} (hop : op ≠ .except)
      (h : ∀ operand ∈ operands, Builds ctx operand) : Builds ctx (combine ctx op operands)

theorem Context.Builds.complementIf (h : draft.IsOperand ctx) (negated : Bool) :
    ctx.Builds (complementIf ctx negated (.select draft.query)) := by
  cases negated with
  | false => exact .select h
  | true => exact .complement h

section

variable {path : Path} {negated : Bool} {filter : Filter}

/-- A walk over all entities ends in an operand that holds what was reached. -/
theorem Context.follow_isOperand {kind : JoinKind} {pathEnd : PathEnd} {reached : Reached}
    (h : ctx.allEntities.follow ctx path kind pathEnd = .ok (reached, draft)) :
    draft.IsOperand ctx ∧ draft.Holds reached := by
  have hall := Draft.IsOperand.allEntities ctx
  rcases Draft.follow_extends hall.closed h with ⟨hextends, hholds⟩
  exact ⟨hall.extended hextends, hholds⟩

theorem Context.followToElements_isOperand {withTargets : Bool} {elements : Reached}
    (h : ctx.allEntities.followToElements ctx path withTargets = .ok (elements, draft)) :
    draft.IsOperand ctx ∧ draft.Holds elements := by
  have hall := Draft.IsOperand.allEntities ctx
  rcases Draft.followToElements_extends hall.closed h with ⟨hextends, hholds⟩
  exact ⟨hall.extended hextends, hholds⟩

theorem compileNullTest_builds {leaf : LeafKind}
    (h : compileNullTest ctx path leaf negated = .ok filter) : ctx.Builds filter := by
  simp only [compileNullTest, bind_eq_ok, pure_eq_ok] at h
  rcases h with ⟨⟨reached, draft⟩, hfollow, hfilter⟩
  subst hfilter
  rcases Context.follow_isOperand hfollow with ⟨hoperand, hholds⟩
  apply Context.Builds.select (hoperand.addCondition _)
  split
  · exact Draft.Admits.single rfl rfl hholds.sees_valueColumn
  · exact Draft.Admits.single rfl rfl hholds.sees_valueColumn

/-- A test of a value, with missing values let through or not. -/
theorem Draft.Admits.orMissing {column : Column} {test : Condition} (htest : draft.Admits test)
    (hsees : draft.Sees column.qualifier) : draft.Admits (.or [test, .isNull column]) := by
  apply Draft.Admits.any
  intro item hitem
  rcases List.mem_cons.mp hitem with hfirst | hsecond
  · rw [hfirst]
    exact htest
  · rw [List.mem_singleton.mp hsecond]
    exact Draft.Admits.single rfl rfl hsees

theorem compileScalarComparison_builds {op : ComparisonOp} {value : Value}
    (h : compileScalarComparison ctx op path value negated = .ok filter) : ctx.Builds filter := by
  simp only [compileScalarComparison, bind_eq_ok, pure_eq_ok] at h
  rcases h with ⟨⟨reached, draft⟩, hfollow, hfilter⟩
  subst hfilter
  rcases Context.follow_isOperand hfollow with ⟨hoperand, hholds⟩
  apply Context.Builds.select (hoperand.addCondition _)
  cases negated with
  | false => exact Draft.Admits.single rfl rfl hholds.sees_valueColumn
  | true =>
      exact (Draft.Admits.single rfl rfl hholds.sees_valueColumn).orMissing
        hholds.sees_valueColumn

theorem compileMatch_builds {regex : String}
    (h : compileMatch ctx path regex negated = .ok filter) : ctx.Builds filter := by
  simp only [compileMatch, bind_eq_ok, pure_eq_ok] at h
  rcases h with ⟨_, _, ⟨reached, draft⟩, hfollow, hfilter⟩
  subst hfilter
  rcases Context.follow_isOperand hfollow with ⟨hoperand, hholds⟩
  apply Context.Builds.select (hoperand.addCondition _)
  cases negated with
  | false => exact Draft.Admits.single rfl rfl hholds.sees_valueColumn
  | true =>
      exact (Draft.Admits.single rfl rfl hholds.sees_valueColumn).orMissing
        hholds.sees_valueColumn

theorem compileCompositeComparison_builds {op : ComparisonOp} {value : Value}
    (h : compileCompositeComparison ctx op path value negated = .ok filter) :
    ctx.Builds filter := by
  simp only [compileCompositeComparison, bind_eq_ok, pure_eq_ok] at h
  rcases h with ⟨_, _, _, _, _, _, ⟨reached, draft⟩, hfollow, ⟨condition, draft'⟩, hvalue,
    hfilter⟩
  subst hfilter
  rcases Context.follow_isOperand hfollow with ⟨hoperand, hholds⟩
  rcases valueCondition_extends value hoperand.closed hholds.slot hvalue with
    ⟨hextends, hadmits⟩
  exact Context.Builds.complementIf ((hoperand.extended hextends).addCondition hadmits) _

theorem compileComparison_builds {op : ComparisonOp} {value : Value}
    (h : compileComparison ctx op path value negated = .ok filter) : ctx.Builds filter := by
  cases value with
  | null =>
      cases op with
      | eq | ne => exact compileNullTest_builds h
      | ge | gt | le | lt => cases h
  | list items => cases h
  | composite fields => exact compileCompositeComparison_builds h
  | bool b | int n | float x | string s | instant t => exact compileScalarComparison_builds h

theorem belowTop_admits (ctx : Context) {elements : Reached} (h : draft.Holds elements) :
    draft.Admits (belowTop ctx elements) :=
  Draft.Admits.single rfl rfl (Draft.Sees.column h.slot _)

theorem compileContains_builds {value : Value}
    (h : compileContains ctx path value negated = .ok filter) : ctx.Builds filter := by
  simp only [compileContains, bind_eq_ok, pure_eq_ok] at h
  rcases h with ⟨_, _, ⟨elements, draft⟩, hfollow, ⟨condition, draft'⟩, hcondition, hfilter⟩
  subst hfilter
  rcases Context.followToElements_isOperand hfollow with ⟨hoperand, hholds⟩
  have hbelow := hoperand.addCondition (belowTop_admits ctx hholds)
  rcases elementCondition_extends hbelow.closed (hholds.mono (Nat.le_refl _)) hcondition with
    ⟨hextends, hadmits⟩
  exact Context.Builds.complementIf ((hbelow.extended hextends).addCondition hadmits) _

theorem compileExists_isOperand (h : compileExists ctx path = .ok filter) :
    ∃ draft : Draft, draft.IsOperand ctx ∧ filter = .select draft.query := by
  simp only [compileExists, bind_eq_ok, pure_eq_ok] at h
  rcases h with ⟨⟨elements, draft⟩, hfollow, hfilter⟩
  rcases Context.followToElements_isOperand hfollow with ⟨hoperand, hholds⟩
  refine ⟨_, hoperand.addCondition ?_, hfilter.symm⟩
  exact Draft.Admits.single rfl rfl (Draft.Sees.column hholds.slot _)

theorem compileEach_isOperand {values : List Value}
    (h : compileEach ctx path values = .ok filter) :
    ∃ draft : Draft, draft.IsOperand ctx ∧ filter = .select draft.query := by
  simp only [compileEach, bind_eq_ok, pure_eq_ok] at h
  rcases h with ⟨⟨elements, draft⟩, hfollow, ⟨conditions, draft'⟩, hconditions, hfilter⟩
  rcases Context.followToElements_isOperand hfollow with ⟨hoperand, hholds⟩
  have hbelow := hoperand.addCondition (belowTop_admits ctx hholds)
  rcases elementConditions_extends hbelow.closed (hholds.mono (Nat.le_refl _)) hconditions with
    ⟨hextends, hadmits⟩
  have hany := (hbelow.extended hextends).addCondition (Draft.Admits.bracketed hadmits).right
  refine ⟨_, hany.withHaving ?_, hfilter.symm⟩
  have hholds' : draft'.Holds elements := hholds.mono hextends.le
  show draft'.Sees (countedColumn ctx elements values).qualifier
  unfold countedColumn
  split
  · exact Draft.Sees.column hholds'.slot _
  · exact hholds'.sees_valueColumn

theorem compileContainsAll_builds {values : List Value}
    (h : compileContainsAll ctx path values negated = .ok filter) : ctx.Builds filter := by
  cases values with
  | nil =>
      simp only [compileContainsAll, List.isEmpty_nil, if_true, bind_eq_ok, pure_eq_ok] at h
      rcases h with ⟨_, _, positive, hpositive, hfilter⟩
      rcases compileExists_isOperand hpositive with ⟨draft, hoperand, hselect⟩
      rw [← hfilter, hselect]
      exact Context.Builds.complementIf hoperand negated
  | cons first rest =>
      simp only [compileContainsAll, List.isEmpty_cons, Bool.false_eq_true, if_false,
        bind_eq_ok, pure_eq_ok] at h
      rcases h with ⟨_, _, positive, hpositive, hfilter⟩
      rcases compileEach_isOperand hpositive with ⟨draft, hoperand, hselect⟩
      rw [← hfilter, hselect]
      exact Context.Builds.complementIf hoperand negated

end

mutual

theorem compilePredicate_builds {negated : Bool} {filter : Filter} (predicate : Predicate)
    (h : compilePredicate ctx negated predicate = .ok filter) : ctx.Builds filter := by
  cases predicate with
  | and children =>
      simp only [compilePredicate, bind_eq_ok, pure_eq_ok] at h
      rcases h with ⟨operands, hoperands, hfilter⟩
      rw [← hfilter]
      refine .combine ?_ (compileChildren_builds children hoperands)
      cases negated <;> simp
  | or children =>
      simp only [compilePredicate, bind_eq_ok, pure_eq_ok] at h
      rcases h with ⟨operands, hoperands, hfilter⟩
      rw [← hfilter]
      refine .combine ?_ (compileChildren_builds children hoperands)
      cases negated <;> simp
  | not operand => exact compilePredicate_builds operand h
  | comparison op path value => exact compileComparison_builds h
  | isMatch path regex => exact compileMatch_builds h
  | contains path value => exact compileContains_builds h
  | containsAll path values => exact compileContainsAll_builds h
  | propertyNull path | propertyNotNull path => exact compileNullTest_builds h
  | associationNull path | associationNotNull path =>
      simp only [compilePredicate, bind_eq_ok] at h
      rcases h with ⟨_, _, hnull⟩
      exact compileNullTest_builds hnull
  | manyAssociationContains path identity =>
      simp only [compilePredicate, compileManyAssociationContains] at h
      split at h
      · exact compileContains_builds h
      · cases h

theorem compileChildren_builds {negated : Bool} {operands : List Filter}
    (children : List Predicate) (h : compileChildren ctx negated children = .ok operands) :
    ∀ operand ∈ operands, ctx.Builds operand := by
  cases children with
  | nil =>
      cases h
      simp
  | cons child rest =>
      simp only [compileChildren, bind_eq_ok, pure_eq_ok] at h
      rcases h with ⟨operand, hoperand, others, hothers, hoperands⟩
      subst hoperands
      intro other hother
      cases hother with
      | head => exact compilePredicate_builds child hoperand
      | tail _ hlater => exact compileChildren_builds rest hothers other hlater

end

end SlotQuery
