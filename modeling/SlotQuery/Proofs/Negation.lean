import SlotQuery.Proofs.Acceptance
import SlotQuery.Proofs.PathTest
import SlotQuery.Proofs.Tables

/-!
# Negated predicates

A predicate compiles negated exactly when it compiles as it stands. Tests at the
end of a path are negated row by row, so together with its negation a test
leaves out no entity, but an entity with several rows may satisfy both.
-/

namespace SlotQuery

variable {engine : Engine} {ctx : Context} {path : Path} {filter : Filter} {negated : Bool}

theorem compilePredicate_again {negated : Bool} {filter : Filter} (predicate : Predicate)
    (h : compilePredicate ctx negated predicate = .ok filter) (negated' : Bool) :
    ∃ other, compilePredicate ctx negated' predicate = .ok other :=
  (exists_compilePredicate_iff negated' predicate).mpr
    ((exists_compilePredicate_iff negated predicate).mp ⟨filter, h⟩)

/-!
# Tests and their negations

An outer walk always ends somewhere, so each entity of the universe has one of
the two answers. It has both when the path leads to values that differ in it.
-/

theorem PathTest.answers_true_or_false (test : PathTest engine) (db : Database engine)
    (ctx : Context) (key : engine.Cell) :
    test.Answers db ctx key true ∨ test.Answers db ctx key false := by
  rcases List.exists_mem_of_ne_nil _ (Database.arrivals_left_ne_nil test.path.steps
    (.entity (some key)) { slot := Row.missing, target := none }) with ⟨arrival, harrival⟩
  cases hpasses : test.passes (arrival.value ctx.layout) with
  | true => exact Or.inl ⟨arrival, harrival, hpasses⟩
  | false => exact Or.inr ⟨arrival, harrival, hpasses⟩

/-- A test and its negation select the universe between them, and both select the entities whose
path leads to values with either answer. -/
theorem test_and_negation_select {predicate : Predicate} {test : PathTest engine}
    {positive : Filter} (htest : predicate.pathTest? engine = some test)
    (h : compilePredicate ctx false predicate = .ok positive) :
    ∃ negative, compilePredicate ctx false (.not predicate) = .ok negative ∧
      ∀ (db : Database engine) (outer : Scope engine) (key : engine.Cell),
        (positive.selects db ctx.layout outer key = true ∨
            negative.selects db ctx.layout outer key = true ↔
          db.inUniverse ctx key = true) ∧
        (positive.selects db ctx.layout outer key = true ∧
            negative.selects db ctx.layout outer key = true ↔
          db.inUniverse ctx key = true ∧ test.Answers db ctx key true ∧
            test.Answers db ctx key false) := by
  rcases compilePredicate_again predicate h true with ⟨negative, hnegative⟩
  refine ⟨negative, hnegative, ?_⟩
  intro db outer key
  rw [compilePredicate_selects_of_pathTest htest h,
    compilePredicate_selects_of_pathTest htest hnegative]
  have hanswer := test.answers_true_or_false db ctx key
  simp only [Bool.not_false, Bool.not_true]
  constructor
  · rw [← and_or_left]
    exact and_iff_left hanswer
  · exact and_and_left.symm

theorem red_and_not_red_select_alice :
    ∃ positive negative : Filter,
      compilePredicate People.context false
        (.comparison .eq (.property People.tags) (.string "red")) = .ok positive ∧
      compilePredicate People.context false
        (.not (.comparison .eq (.property People.tags) (.string "red"))) = .ok negative ∧
      positive.selects People.database .standard .nothing People.alice = true ∧
      negative.selects People.database .standard .nothing People.alice = true :=
  ⟨_, _, rfl, rfl, by decide, by decide⟩

theorem alice_has_red_and_other_tags :
    (Predicate.scalarTest Datum.engine .eq (.property People.tags) (.string "red")).Answers
        People.database People.context People.alice true ∧
      (Predicate.scalarTest Datum.engine .eq (.property People.tags) (.string "red")).Answers
        People.database People.context People.alice false := by
  have hcompile : ∃ positive negative : Filter,
      compilePredicate People.context false
        (.comparison .eq (.property People.tags) (.string "red")) = .ok positive ∧
      compilePredicate People.context false
        (.not (.comparison .eq (.property People.tags) (.string "red"))) = .ok negative ∧
      positive.selects People.database .standard .nothing People.alice = true ∧
      negative.selects People.database .standard .nothing People.alice = true :=
    ⟨_, _, rfl, rfl, by decide, by decide⟩
  rcases hcompile with ⟨positive, negative, hpositive, hnegative, halice, halice'⟩
  rcases @test_and_negation_select Datum.engine _ _ _ _ rfl hpositive with
    ⟨negative', hnegative', hselects⟩
  rw [hnegative] at hnegative'
  cases hnegative'
  exact ((hselects People.database .nothing People.alice).right.mp ⟨halice, halice'⟩).right

end SlotQuery
