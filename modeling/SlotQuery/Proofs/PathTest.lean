import SlotQuery.Proofs.Selection

/-!
# Tests at the end of a path

Comparisons with a scalar or with null, regular expressions and null checks all
test one value at the end of one path. Their negations test the opposite, row by
row, over outer joins wherever a missing value passes.
-/

namespace SlotQuery

variable {engine : Engine} {db : Database engine} {ctx : Context}

/-- Where a value is looked for, and which values pass; a missing value may pass too. -/
structure PathTest (engine : Engine) where
  path : Path
  pathEnd : PathEnd
  passes : Option engine.Cell → Bool

namespace Predicate

/-- The test of a scalar: the value is there and compares as wanted. -/
def scalarTest (engine : Engine) (op : ComparisonOp) (path : Path) (value : Value) :
    PathTest engine :=
  { path := path, pathEnd := .entity, passes := fun cell => cell.any (engine.test op value) }

def nullTest (engine : Engine) (path : Path) (leaf : LeafKind) : PathTest engine :=
  { path := path
    pathEnd := .slot
    passes := fun cell => if leaf == .isNull then cell.isNone else cell.isSome }

def matchTest (engine : Engine) (path : Path) (regex : String) : PathTest engine :=
  { path := path, pathEnd := .entity, passes := fun cell => cell.any (engine.isMatch regex) }

/-- The test that a predicate makes, when it is one test at the end of one path. -/
def pathTest? (engine : Engine) : Predicate → Option (PathTest engine)
  | .comparison op path value =>
      match value with
      | .null =>
          match op with
          | .eq => some (nullTest engine path .isNull)
          | .ne => some (nullTest engine path .isNotNull)
          | .ge | .gt | .le | .lt => none
      | .list _ | .composite _ => none
      | scalar => some (scalarTest engine op path scalar)
  | .isMatch path regex => some (matchTest engine path regex)
  | .propertyNull path | .associationNull path => some (nullTest engine path .isNull)
  | .propertyNotNull path | .associationNotNull path => some (nullTest engine path .isNotNull)
  | .and _ | .or _ | .not _ | .contains _ _ | .containsAll _ _ | .manyAssociationContains _ _ =>
      none

end Predicate

/-- Some way along the path, found or not, ends at a value for which the test answers `answer`. -/
def PathTest.Answers (test : PathTest engine) (db : Database engine) (ctx : Context)
    (key : engine.Cell) (answer : Bool) : Prop :=
  ∃ arrival ∈ db.reach ctx .left test.pathEnd test.path key,
    test.passes (arrival.value ctx.layout) = answer

/-!
# The filters of tests

An outer walk finds every answer. An inner walk finds an answer that a missing
value does not give.
-/

section

variable {path : Path} {negated : Bool} {filter : Filter} (outer : Scope engine)
  (key : engine.Cell)

theorem PathTest.selects_iff {test : PathTest engine} {kind : JoinKind} {reached : Reached}
    {draft : Draft} {condition : Condition} {answer : Bool}
    (hfollow : ctx.allEntities.follow ctx test.path kind test.pathEnd = .ok (reached, draft))
    (hkind : kind = .left ∨ test.passes none = !answer)
    (hcondition : ∀ scope : Scope engine,
      (Condition.truth db ctx.layout scope condition).isYes =
        (test.passes (scope.read (reached.valueColumn ctx)) == answer)) :
    (Filter.select (draft.addCondition condition).query).selects db ctx.layout outer key =
        true ↔
      db.inUniverse ctx key = true ∧ test.Answers db ctx key answer := by
  rw [Context.selects_leaf_iff hfollow (fun cell => test.passes cell == answer) hcondition outer
    key]
  have hleft : (∃ arrival ∈ db.reach ctx kind test.pathEnd test.path key,
      (test.passes (arrival.value ctx.layout) == answer) = true) ↔
      ∃ arrival ∈ db.reach ctx .left test.pathEnd test.path key,
        (test.passes (arrival.value ctx.layout) == answer) = true := by
    cases kind with
    | left => exact Iff.rfl
    | inner =>
        apply Database.exists_inner_iff_left fun cell => test.passes cell == answer
        rcases hkind with hleft | hnone
        · cases hleft
        · rw [hnone]
          cases answer <;> rfl
  rw [hleft]
  simp only [PathTest.Answers, beq_iff_eq]

theorem compileNullTest_selects {leaf : LeafKind}
    (h : compileNullTest ctx path leaf negated = .ok filter) :
    filter.selects db ctx.layout outer key = true ↔
      db.inUniverse ctx key = true ∧
        (Predicate.nullTest engine path leaf).Answers db ctx key (!negated) := by
  simp only [compileNullTest, bind_eq_ok, pure_eq_ok] at h
  rcases h with ⟨⟨reached, draft⟩, hfollow, hfilter⟩
  subst hfilter
  apply PathTest.selects_iff outer key hfollow
  · cases leaf <;> cases negated <;> simp [LeafKind.joinKind, Predicate.nullTest]
  · intro scope
    cases hcell : scope.read (reached.valueColumn ctx) <;> cases leaf <;> cases negated <;>
      simp [Condition.truth, Predicate.nullTest, hcell]

theorem compileScalarComparison_selects {op : ComparisonOp} {value : Value}
    (h : compileScalarComparison ctx op path value negated = .ok filter) :
    filter.selects db ctx.layout outer key = true ↔
      db.inUniverse ctx key = true ∧
        (Predicate.scalarTest engine op path value).Answers db ctx key (!negated) := by
  simp only [compileScalarComparison, bind_eq_ok, pure_eq_ok] at h
  rcases h with ⟨⟨reached, draft⟩, hfollow, hfilter⟩
  subst hfilter
  apply PathTest.selects_iff outer key hfollow
  · cases negated <;> simp [LeafKind.joinKind, Predicate.scalarTest]
  · intro scope
    cases negated with
    | false =>
        simp [Condition.truth, Truth.isYes_ofTest, Predicate.scalarTest]
    | true =>
        simp [Condition.truth, Condition.anyTruth, Truth.isYes_ofTest, Engine.test_negated,
          Predicate.scalarTest]
        cases scope.read (reached.valueColumn ctx) <;> simp

theorem compileMatch_selects {regex : String}
    (h : compileMatch ctx path regex negated = .ok filter) :
    filter.selects db ctx.layout outer key = true ↔
      db.inUniverse ctx key = true ∧
        (Predicate.matchTest engine path regex).Answers db ctx key (!negated) := by
  simp only [compileMatch, bind_eq_ok, pure_eq_ok] at h
  rcases h with ⟨_, _, ⟨reached, draft⟩, hfollow, hfilter⟩
  subst hfilter
  apply PathTest.selects_iff outer key hfollow
  · cases negated <;> simp [LeafKind.joinKind, Predicate.matchTest]
  · intro scope
    cases negated with
    | false =>
        simp [Condition.truth, Truth.isYes_ofTest, Predicate.matchTest]
    | true =>
        simp [Condition.truth, Condition.anyTruth, Truth.isYes_not_ofTest, Predicate.matchTest]
        cases scope.read (reached.valueColumn ctx) <;> simp

end

/-- Every test compiles to a filter of the entities for which some way gives its answer. -/
theorem compilePredicate_selects_of_pathTest {predicate : Predicate} {test : PathTest engine}
    {negated : Bool} {filter : Filter} (htest : predicate.pathTest? engine = some test)
    (h : compilePredicate ctx negated predicate = .ok filter) (outer : Scope engine)
    (key : engine.Cell) :
    filter.selects db ctx.layout outer key = true ↔
      db.inUniverse ctx key = true ∧ test.Answers db ctx key (!negated) := by
  cases predicate with
  | comparison op path value =>
      simp only [compilePredicate] at h
      cases value with
      | null =>
          cases op with
          | eq => cases htest; exact compileNullTest_selects outer key h
          | ne => cases htest; exact compileNullTest_selects outer key h
          | ge | gt | le | lt => cases htest
      | list items => cases htest
      | composite fields => cases htest
      | bool b => cases htest; exact compileScalarComparison_selects outer key h
      | int n => cases htest; exact compileScalarComparison_selects outer key h
      | float x => cases htest; exact compileScalarComparison_selects outer key h
      | string s => cases htest; exact compileScalarComparison_selects outer key h
      | instant t => cases htest; exact compileScalarComparison_selects outer key h
  | isMatch path regex => cases htest; exact compileMatch_selects outer key h
  | propertyNull path => cases htest; exact compileNullTest_selects outer key h
  | propertyNotNull path => cases htest; exact compileNullTest_selects outer key h
  | associationNull path =>
      simp only [compilePredicate, bind_eq_ok] at h
      rcases h with ⟨_, _, hnull⟩
      cases htest
      exact compileNullTest_selects outer key hnull
  | associationNotNull path =>
      simp only [compilePredicate, bind_eq_ok] at h
      rcases h with ⟨_, _, hnull⟩
      cases htest
      exact compileNullTest_selects outer key hnull
  | and children => cases htest
  | or children => cases htest
  | not operand => cases htest
  | contains path value => cases htest
  | containsAll path values => cases htest
  | manyAssociationContains path identity => cases htest

end SlotQuery
