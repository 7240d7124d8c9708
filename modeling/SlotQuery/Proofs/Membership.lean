import SlotQuery.Proofs.Elements

/-!
# Leaves that look at whole rows

A composite is compared with the row that a path leads to, and a value is looked
for among the elements of a collection. Their negations take what was found away
from the universe.
-/

namespace SlotQuery

variable {engine : Engine} {db : Database engine} {ctx : Context}

/-!
# Complements

What is taken away from all entities of the universe is left by the rest.
-/

theorem Context.selects_allEntities (outer : Scope engine) (key : engine.Cell) :
    (Filter.select ctx.allEntities.query).selects db ctx.layout outer key =
      db.inUniverse ctx key := by
  have hquery : ctx.allEntities.query = ctx.selectWith [] [] none := rfl
  rw [hquery, Bool.eq_iff_iff, Context.selects_selectWith_iff (by simp [Join.SpareRoot]),
    ← Context.exists_startsAt_iff outer]
  simp [Join.extendAll, Condition.allTruth, Truth.isYes]

theorem Filter.selects_difference (outer : Scope engine) (key : engine.Cell)
    (first second : Filter) :
    (Filter.merged .except [first, second]).selects db ctx.layout outer key =
      (first.selects db ctx.layout outer key && !second.selects db ctx.layout outer key) := by
  have hoperands : ∀ filter : Filter, filter.operandsFor .except = [filter] := by
    intro filter
    cases filter <;> simp [operandsFor]
  simp [merged, hoperands, selects, firstSelects, anySelects]

theorem complement_selects (outer : Scope engine) (key : engine.Cell) (positive : Filter) :
    (complement ctx positive).selects db ctx.layout outer key =
      (db.inUniverse ctx key && !positive.selects db ctx.layout outer key) := by
  rw [complement, Filter.selects_difference, Context.selects_allEntities]

theorem complementIf_selects_iff {positive : Filter} {outer : Scope engine} {key : engine.Cell}
    {holds : Prop}
    (h : positive.selects db ctx.layout outer key = true ↔ db.inUniverse ctx key = true ∧ holds)
    (negated : Bool) :
    (complementIf ctx negated positive).selects db ctx.layout outer key = true ↔
      db.inUniverse ctx key = true ∧ (holds ↔ negated = false) := by
  cases negated with
  | false =>
      rw [complementIf, if_neg Bool.false_ne_true, h]
      simp
  | true =>
      rw [complementIf, if_pos rfl, complement_selects, Bool.and_eq_true, Bool.not_eq_true',
        Bool.eq_false_iff, ne_eq, h]
      constructor
      · intro h
        exact ⟨h.left, fun hholds => absurd ⟨h.left, hholds⟩ h.right, fun h => by cases h⟩
      · intro h
        refine ⟨h.left, ?_⟩
        intro hboth
        exact Bool.noConfusion (h.right.mp hboth.right)

/-!
# Comparisons with composites
-/

/-- A composite is equal to what the path leads to when some row there matches it; one that is
unequal is selected by taking those away. -/
theorem compileCompositeComparison_selects {op : ComparisonOp} {path : Path} {value : Value}
    {negated : Bool} {filter : Filter} (outer : Scope engine) (key : engine.Cell)
    (h : compileCompositeComparison ctx op path value negated = .ok filter) :
    filter.selects db ctx.layout outer key = true ↔
      db.inUniverse ctx key = true ∧
        ((∃ arrival ∈ db.reach ctx .inner .slot path key, arrival.slot.Matches db ctx value) ↔
          (negated != (op == .ne)) = false) := by
  simp only [compileCompositeComparison, bind_eq_ok, pure_eq_ok] at h
  rcases h with ⟨_, _, _, _, _, _, ⟨reached, draft⟩, hfollow, ⟨condition, draft'⟩, hvalue,
    hfilter⟩
  subst hfilter
  apply complementIf_selects_iff
  have htarget : reached.target = none :=
    (Draft.target_eq_none_iff hfollow path.steps_ne_nil).mpr (Or.inr rfl)
  have hinner : ctx.allEntities.follow ctx path .inner .slot = .ok (reached, draft) := hfollow
  rcases Context.follow_spec db hinner with ⟨joins, hgrows, hlatest, hmap⟩
  rcases hlatest htarget with ⟨hnext, hsettled⟩
  have hstart := Descent.start db ctx hnext hsettled
  rcases (Descent.valueCondition_tests value hvalue hstart (Nat.le_refl _)
    hstart.root_lt).exists_iff with ⟨joins', hgrows', hiff⟩
  have hspec : ∀ middle : Scope engine,
      (∀ scope ∈ Join.extendAll db ctx.layout middle joins',
        reached.arrival scope = reached.arrival middle) ∧
      ((∃ scope ∈ Join.extendAll db ctx.layout middle joins',
          (Condition.truth db ctx.layout scope condition).isYes = true) ↔
        (reached.arrival middle).slot.Matches db ctx value) := by
    intro middle
    refine ⟨?_, hiff middle⟩
    intro scope hscope
    simp only [Reached.arrival, htarget, hgrows'.frame hscope hstart.root_lt, Option.map_none]
  have hselect : (draft'.addCondition condition).query =
      ctx.selectWith (joins ++ joins') [condition] none := by
    simp only [Draft.addCondition, hgrows'.query, hgrows.query]
    rfl
  have hjoins := (hgrows.spareRoot (Nat.le_refl _)).append (hgrows'.spareRoot hgrows.le)
  rw [hselect]
  apply Context.selects_of_scopes hjoins
  intro source hsource
  have hscope := Join.exists_scope_iff joins source
    (fun scope => Condition.truth db ctx.layout scope condition)
    (fun arrival => arrival.slot.Matches db ctx value) hspec fun _ => True
  rw [hmap outer key source hsource] at hscope
  simpa only [Condition.allTruth, Truth.and_yes, and_true] using hscope

/-!
# Filters over elements
-/

section

variable {path : Path} {value : Value} {values : List Value} {negated : Bool} {filter : Filter}
  (outer : Scope engine) (key : engine.Cell)

/-- An entity contains a value when one of its elements matches it. -/
theorem compileContains_selects (h : compileContains ctx path value negated = .ok filter) :
    filter.selects db ctx.layout outer key = true ↔
      db.inUniverse ctx key = true ∧
        ((∃ element ∈ db.elements ctx path key, element.Matches db ctx value) ↔
          negated = false) := by
  simp only [compileContains, bind_eq_ok, pure_eq_ok] at h
  rcases h with ⟨_, _, ⟨elements, draft⟩, hfollow, ⟨condition, draft'⟩, hcondition, hfilter⟩
  subst hfilter
  apply complementIf_selects_iff
  rcases elements_spec db hfollow (elementConditions_singleton hcondition) with
    ⟨joins, hjoins, hquery, hspec⟩
  have hselect : (draft'.addCondition condition).query =
      ctx.selectWith joins [belowTop ctx elements, condition] none := by
    simp only [Draft.addCondition, hquery]
    rfl
  have htruth : ∀ scope : Scope engine,
      (Condition.allTruth db ctx.layout scope [belowTop ctx elements, condition]).isYes = true ↔
        (elements.arrival scope).isElement ctx = true ∧
          (Condition.anyTruth db ctx.layout scope [condition]).isYes = true ∧ True := by
    intro scope
    simp [Condition.allTruth, Condition.anyTruth, truth_belowTop]
  rw [hselect]
  apply Context.selects_of_scopes hjoins
  intro source hsource
  have hscopes := hspec outer key source hsource fun _ => True
  simp only [List.mem_singleton, exists_eq_left, and_true] at hscopes
  simp only [htruth, and_true]
  exact hscopes

/-- Elements are counted over all values together, so one value may account for several. -/
theorem compileEach_selects (hvalues : values ≠ [])
    (h : compileEach ctx path values = .ok filter) :
    filter.selects db ctx.layout outer key = true ↔
      db.inUniverse ctx key = true ∧
        engine.HasDistinct values.length fun cell =>
          ∃ element ∈ db.elements ctx path key,
            (∃ value ∈ values, element.Matches db ctx value) ∧
            element.counted ctx values = some cell := by
  simp only [compileEach, bind_eq_ok, pure_eq_ok] at h
  rcases h with ⟨⟨elements, draft⟩, hfollow, ⟨conditions, draft'⟩, hconditions, hfilter⟩
  subst hfilter
  rcases elements_spec db hfollow hconditions with ⟨joins, hjoins, hquery, hspec⟩
  have hselect : ((draft'.addCondition (.any conditions)).withHaving
      { column := countedColumn ctx elements values, min := values.length }).query =
      ctx.selectWith joins [belowTop ctx elements, .any conditions]
        (some { column := countedColumn ctx elements values, min := values.length }) := by
    simp only [Draft.withHaving, Draft.addCondition, hquery]
    rfl
  have hmin : 0 < values.length := List.length_pos_iff.mpr hvalues
  have hcounted : ∀ scope : Scope engine, scope.read (countedColumn ctx elements values) =
      (elements.arrival scope).counted ctx values := by
    intro scope
    unfold countedColumn Arrival.counted
    split
    · rfl
    · exact Reached.read_valueColumn scope elements
  rw [hselect, Context.selects_having_iff hjoins hmin]
  simp only [Condition.allTruth, Condition.truth_any, Truth.and_yes, Truth.isYes_and,
    Bool.and_eq_true, truth_belowTop, hcounted, and_assoc]
  constructor
  · intro h
    rcases h.exists hmin with ⟨_, source, hsource, _⟩
    refine ⟨(Context.exists_startsAt_iff outer).mp ⟨source, hsource⟩, h.mono ?_⟩
    intro cell hcell
    rcases hcell with ⟨source', hsource', hscope⟩
    exact (hspec outer key source' hsource' fun element =>
      element.counted ctx values = some cell).mp hscope
  · intro h
    rcases (Context.exists_startsAt_iff outer).mpr h.left with ⟨source, hsource⟩
    apply h.right.mono
    intro cell hcell
    exact ⟨source, hsource, (hspec outer key source hsource fun element =>
      element.counted ctx values = some cell).mpr hcell⟩

theorem compileContainsAll_selects (hvalues : values ≠ [])
    (h : compileContainsAll ctx path values negated = .ok filter) :
    filter.selects db ctx.layout outer key = true ↔
      db.inUniverse ctx key = true ∧
        ((engine.HasDistinct values.length fun cell =>
          ∃ element ∈ db.elements ctx path key,
            (∃ value ∈ values, element.Matches db ctx value) ∧
            element.counted ctx values = some cell) ↔ negated = false) := by
  simp only [compileContainsAll, List.isEmpty_eq_false_iff.mpr hvalues, Bool.false_eq_true,
    if_false, bind_eq_ok, pure_eq_ok] at h
  rcases h with ⟨_, _, positive, hpositive, hfilter⟩
  subst hfilter
  exact complementIf_selects_iff (compileEach_selects outer key hvalues hpositive) negated

end

end SlotQuery
