import SlotQuery.Proofs.Negation
import SlotQuery.Proofs.Reading

/-!
# The meaning of filters

A compiled predicate selects the entities of the universe for which the
predicate reads true, and its negation the others. Only what looks for all of
several elements at once is left out.
-/

namespace SlotQuery

variable {engine : Engine} {db : Database engine} {ctx : Context}

/-!
# Set operations

Operands of the same operation are merged into one list. A union selects what
one of its operands selects, an intersection what all of them select, and no
operands stand for nothing or for the whole universe.
-/

section

variable (outer : Scope engine) (key : engine.Cell)

theorem Filter.anySelects_eq (operands : List Filter) :
    anySelects db ctx.layout outer key operands =
      operands.any (selects db ctx.layout outer key) := by
  induction operands with
  | nil => rfl
  | cons operand rest ih => rw [anySelects, List.any_cons, ih]

theorem Filter.allSelect_eq (operands : List Filter) :
    allSelect db ctx.layout outer key operands =
      operands.all (selects db ctx.layout outer key) := by
  induction operands with
  | nil => rfl
  | cons operand rest ih => rw [allSelect, List.all_cons, ih]

theorem Filter.selects_union (operands : List Filter) :
    (merged .union operands).selects db ctx.layout outer key =
      operands.any (selects db ctx.layout outer key) := by
  have hoperands : ∀ operand : Filter, (operand.operandsFor .union).any
      (selects db ctx.layout outer key) = operand.selects db ctx.layout outer key := by
    intro operand
    cases operand with
    | select query => simp [operandsFor]
    | compound inner operands =>
        cases inner <;> simp [operandsFor, selects, anySelects_eq]
  simp only [merged, selects, anySelects_eq, List.any_flatMap, hoperands]

theorem Filter.selects_intersection (operands : List Filter) :
    (merged .intersect operands).selects db ctx.layout outer key =
      operands.all (selects db ctx.layout outer key) := by
  have hoperands : ∀ operand : Filter, (operand.operandsFor .intersect).all
      (selects db ctx.layout outer key) = operand.selects db ctx.layout outer key := by
    intro operand
    cases operand with
    | select query => simp [operandsFor]
    | compound inner operands =>
        cases inner <;> simp [operandsFor, selects, allSelect_eq]
  simp only [merged, selects, allSelect_eq, List.all_flatMap, hoperands]

theorem combine_union_selects (operands : List Filter) :
    (combine ctx .union operands).selects db ctx.layout outer key =
      operands.any (Filter.selects db ctx.layout outer key) := by
  match operands with
  | [] =>
      have hquery : (ctx.allEntities.addCondition .never).query =
          ctx.selectWith [] [.never] none := rfl
      rw [combine, hquery, List.any_nil, Bool.eq_false_iff, ne_eq,
        Context.selects_selectWith_iff (by simp [Join.SpareRoot])]
      simp [Condition.allTruth, Condition.truth, Truth.isYes]
  | [operand] => simp [combine]
  | first :: second :: rest => exact Filter.selects_union outer key _

theorem combine_intersect_selects {operands : List Filter}
    (h : ∀ operand ∈ operands, operand.selects db ctx.layout outer key = true →
      db.inUniverse ctx key = true) :
    (combine ctx .intersect operands).selects db ctx.layout outer key =
      (db.inUniverse ctx key && operands.all (Filter.selects db ctx.layout outer key)) := by
  have hcombined : (combine ctx .intersect operands).selects db ctx.layout outer key =
      if operands.isEmpty then db.inUniverse ctx key
      else operands.all (Filter.selects db ctx.layout outer key) := by
    match operands with
    | [] => exact Context.selects_allEntities outer key
    | [operand] => simp [combine]
    | first :: second :: rest => exact Filter.selects_intersection outer key _
  cases operands with
  | nil => simpa using hcombined
  | cons first rest =>
      rw [hcombined, List.isEmpty_cons, if_neg Bool.false_ne_true]
      cases hall : (first :: rest).all (Filter.selects db ctx.layout outer key) with
      | false => simp
      | true =>
          have hfirst := List.all_eq_true.mp hall first List.mem_cons_self
          rw [h first List.mem_cons_self hfirst]
          rfl

end

/-!
# Leaves
-/

namespace Predicate

variable {predicate : Predicate} {test : PathTest engine} {key : engine.Cell}

theorem holds_of_pathTest (htest : predicate.pathTest? engine = some test) :
    predicate.holds db ctx key = test.passes (db.valueAt ctx test.pathEnd test.path key) := by
  cases predicate with
  | comparison op path value =>
      cases value with
      | null =>
          cases op with
          | eq | ne =>
              cases htest
              cases hvalue : db.valueAt ctx .slot path key <;>
                simp [holds, comparisonHolds, nullTest, hvalue]
          | ge | gt | le | lt => cases htest
      | list items | composite fields => cases htest
      | bool b | int n | float x | string s | instant t => cases htest; rfl
  | isMatch path regex => cases htest; rfl
  | propertyNull path | propertyNotNull path | associationNull path | associationNotNull path =>
      cases htest
      simp [holds, nullTest]
  | and children | or children | not operand | contains path value | containsAll path values
  | manyAssociationContains path identity => cases htest

theorem SingleValued.along (h : predicate.SingleValued db ctx key)
    (htest : predicate.pathTest? engine = some test) :
    db.SingleAlong ctx test.path.steps (.entity (some key)) := by
  cases predicate with
  | comparison op path value =>
      cases value with
      | null =>
          cases op with
          | eq | ne => cases htest; exact h.left
          | ge | gt | le | lt => cases htest
      | list items | composite fields => cases htest
      | bool b | int n | float x | string s | instant t => cases htest; exact h.left
  | isMatch path regex => cases htest; exact h
  | propertyNull path | propertyNotNull path | associationNull path | associationNotNull path =>
      cases htest
      exact h
  | and children | or children | not operand | contains path value | containsAll path values
  | manyAssociationContains path identity => cases htest

end Predicate

section

variable {path : Path} {negated : Bool} {filter : Filter} {key : engine.Cell}

theorem test_meaning {predicate : Predicate} {test : PathTest engine}
    (htest : predicate.pathTest? engine = some test) (hkeys : db.HasUniqueKeys ctx.layout)
    (hsingle : predicate.SingleValued db ctx key)
    (h : compilePredicate ctx negated predicate = .ok filter) (outer : Scope engine) :
    filter.selects db ctx.layout outer key =
      (db.inUniverse ctx key && (predicate.holds db ctx key != negated)) := by
  rw [Bool.eq_iff_iff, compilePredicate_selects_of_pathTest htest h,
    PathTest.answers_iff hkeys (hsingle.along htest), Predicate.holds_of_pathTest htest,
    Bool.and_eq_true]
  cases test.passes (db.valueAt ctx test.pathEnd test.path key) <;> cases negated <;> simp

theorem contains_meaning {value : Value}
    (hsingle : ∀ element ∈ db.elements ctx path key, element.slot.SingleIn db ctx value)
    (h : compileContains ctx path value negated = .ok filter) (outer : Scope engine) :
    filter.selects db ctx.layout outer key =
      (db.inUniverse ctx key && (db.holdsElement ctx path key value != negated)) := by
  have hfound : (∃ element ∈ db.elements ctx path key, element.Matches db ctx value) ↔
      db.holdsElement ctx path key value = true := by
    simp only [Database.holdsElement, List.any_eq_true]
    constructor
    · intro h
      rcases h with ⟨element, helement, hmatches⟩
      exact ⟨element, helement, (Arrival.matches_iff_equals (hsingle element helement)).mp hmatches⟩
    · intro h
      rcases h with ⟨element, helement, hequals⟩
      exact ⟨element, helement, (Arrival.matches_iff_equals (hsingle element helement)).mpr hequals⟩
  rw [Bool.eq_iff_iff, compileContains_selects outer key h, hfound, Bool.and_eq_true]
  cases db.holdsElement ctx path key value <;> cases negated <;> simp

theorem composite_meaning {op : ComparisonOp} {fields : List (QualifiedName × Value)}
    (hkeys : db.HasUniqueKeys ctx.layout)
    (hsingle : (Predicate.comparison op path (.composite fields)).SingleValued db ctx key)
    (h : compileCompositeComparison ctx op path (.composite fields) negated = .ok filter)
    (outer : Scope engine) :
    filter.selects db ctx.layout outer key =
      (db.inUniverse ctx key &&
        ((Predicate.comparison op path (.composite fields)).holds db ctx key != negated)) := by
  have hop : op = .eq ∨ op = .ne := by
    simp only [compileCompositeComparison, bind_eq_ok, ensure_eq_ok] at h
    rcases h with ⟨_, hequality, _⟩
    cases op <;> first | exact Or.inl rfl | exact Or.inr rfl | cases hequality
  have hfound : (∃ arrival ∈ db.reach ctx .inner .slot path key,
        arrival.slot.Matches db ctx (.composite fields)) ↔
      (db.arrivalAt ctx .slot path key).any (fun arrival =>
        arrival.slot.equals db ctx (.composite fields)) = true := by
    rw [hsingle.left.exists_reach_iff hkeys, Option.any_eq_true]
    apply exists_congr
    intro arrival
    apply and_congr_right
    intro harrival
    exact Row.matches_iff_equals (hsingle.right arrival (List.mem_of_head? harrival))
  rw [Bool.eq_iff_iff, compileCompositeComparison_selects outer key h, hfound, Bool.and_eq_true,
    Predicate.holds, Predicate.comparisonHolds]
  rcases hop with heq | hne
  · subst heq
    cases (db.arrivalAt ctx .slot path key).any _ <;> cases negated <;> simp
  · subst hne
    cases (db.arrivalAt ctx .slot path key).any _ <;> cases negated <;> simp

end

/-!
# Whole predicates

By recursion on the predicate. A negated conjunction is a union of negations, so
the children are told apart by the polarity that all of them were compiled with.
-/

namespace Predicate

variable {key : engine.Cell}

/-- What the polarity makes of a child, for an entity that may be outside the universe. -/
def readsAs (db : Database engine) (ctx : Context) (key : engine.Cell) (negated : Bool)
    (child : Predicate) : Bool :=
  db.inUniverse ctx key && (child.holds db ctx key != negated)

theorem any_readsAs (negated : Bool) (children : List Predicate) :
    children.any (readsAs db ctx key negated) =
      (db.inUniverse ctx key &&
        if negated then !allHold db ctx key children else anyHolds db ctx key children) := by
  induction children with
  | nil => cases negated <;> simp [allHold, anyHolds]
  | cons child rest ih =>
      rw [List.any_cons, ih, readsAs, allHold, anyHolds]
      cases db.inUniverse ctx key <;> cases negated <;> simp [Bool.not_and]

theorem all_readsAs (negated : Bool) (children : List Predicate) :
    (db.inUniverse ctx key && children.all (readsAs db ctx key negated)) =
      (db.inUniverse ctx key &&
        if negated then !anyHolds db ctx key children else allHold db ctx key children) := by
  induction children with
  | nil => cases negated <;> simp [allHold, anyHolds]
  | cons child rest ih =>
      rw [List.all_cons, readsAs, allHold, anyHolds]
      cases huniverse : db.inUniverse ctx key
      · rfl
      · rw [huniverse, Bool.true_and, Bool.true_and] at ih
        cases negated <;> simp [ih, Bool.not_or]

end Predicate

section

variable {operands : List Filter} {children : List Predicate} {key : engine.Cell} {negated : Bool}
  {outer : Scope engine}

theorem combine_union_reads
    (h : operands.map (Filter.selects db ctx.layout outer key) =
      children.map (Predicate.readsAs db ctx key negated)) :
    (combine ctx .union operands).selects db ctx.layout outer key =
      (db.inUniverse ctx key && if negated then !Predicate.allHold db ctx key children
        else Predicate.anyHolds db ctx key children) := by
  have hany := congrArg (fun answers : List Bool => answers.any id) h
  simp only [List.any_map, Function.id_comp] at hany
  rw [combine_union_selects, hany, Predicate.any_readsAs]

theorem combine_intersect_reads
    (h : operands.map (Filter.selects db ctx.layout outer key) =
      children.map (Predicate.readsAs db ctx key negated)) :
    (combine ctx .intersect operands).selects db ctx.layout outer key =
      (db.inUniverse ctx key && if negated then !Predicate.anyHolds db ctx key children
        else Predicate.allHold db ctx key children) := by
  have hall := congrArg (fun answers : List Bool => answers.all id) h
  simp only [List.all_map, Function.id_comp] at hall
  have hwithin : ∀ operand ∈ operands, operand.selects db ctx.layout outer key = true →
      db.inUniverse ctx key = true := by
    intro operand hoperand hselects
    have hmem : true ∈ children.map (Predicate.readsAs db ctx key negated) := by
      rw [← h, ← hselects]
      exact List.mem_map_of_mem hoperand
    rcases List.mem_map.mp hmem with ⟨child, _, hreads⟩
    rw [Predicate.readsAs, Bool.and_eq_true] at hreads
    exact hreads.left
  rw [combine_intersect_selects outer key hwithin, hall, Predicate.all_readsAs]

end

mutual

theorem compilePredicate_reads {negated : Bool} {filter : Filter} {key : engine.Cell}
    (predicate : Predicate) (havoids : predicate.avoidsContainsAll = true)
    (hkeys : db.HasUniqueKeys ctx.layout) (hsingle : predicate.SingleValued db ctx key)
    (h : compilePredicate ctx negated predicate = .ok filter) (outer : Scope engine) :
    filter.selects db ctx.layout outer key = predicate.readsAs db ctx key negated := by
  cases htest : predicate.pathTest? engine with
  | some test => exact test_meaning htest hkeys hsingle h outer
  | none =>
      cases predicate with
      | and children =>
          simp only [compilePredicate, bind_eq_ok, pure_eq_ok] at h
          rcases h with ⟨operands, hoperands, hfilter⟩
          have hchildren := compileChildren_reads children havoids hkeys hsingle hoperands outer
          rw [← hfilter, Predicate.readsAs, Predicate.holds]
          cases negated with
          | false => simpa using combine_intersect_reads hchildren
          | true => simpa using combine_union_reads hchildren
      | or children =>
          simp only [compilePredicate, bind_eq_ok, pure_eq_ok] at h
          rcases h with ⟨operands, hoperands, hfilter⟩
          have hchildren := compileChildren_reads children havoids hkeys hsingle hoperands outer
          rw [← hfilter, Predicate.readsAs, Predicate.holds]
          cases negated with
          | false => simpa using combine_union_reads hchildren
          | true => simpa using combine_intersect_reads hchildren
      | not operand =>
          have hoperand := compilePredicate_reads operand havoids hkeys hsingle h outer
          rw [hoperand, Predicate.readsAs, Predicate.readsAs, Predicate.holds]
          cases operand.holds db ctx key <;> cases negated <;> rfl
      | comparison op path value =>
          cases value with
          | null =>
              cases op with
              | eq | ne => cases htest
              | ge | gt | le | lt => cases h
          | list items => cases h
          | composite fields => exact composite_meaning hkeys hsingle h outer
          | bool b | int n | float x | string s | instant t => cases htest
      | contains path value => exact contains_meaning hsingle h outer
      | containsAll path values => cases havoids
      | manyAssociationContains path identity =>
          simp only [compilePredicate, compileManyAssociationContains] at h
          split at h
          · refine contains_meaning ?_ h outer
            intro element _
            trivial
          · cases h
      | isMatch path regex | propertyNull path | propertyNotNull path | associationNull path
      | associationNotNull path => cases htest

theorem compileChildren_reads {negated : Bool} {operands : List Filter} {key : engine.Cell}
    (children : List Predicate)
    (havoids : Predicate.childrenAvoidContainsAll children = true)
    (hkeys : db.HasUniqueKeys ctx.layout)
    (hsingle : Predicate.ChildrenSingleValued db ctx key children)
    (h : compileChildren ctx negated children = .ok operands) (outer : Scope engine) :
    operands.map (Filter.selects db ctx.layout outer key) =
      children.map (Predicate.readsAs db ctx key negated) := by
  cases children with
  | nil =>
      cases h
      rfl
  | cons child rest =>
      simp only [compileChildren, bind_eq_ok, pure_eq_ok] at h
      rcases h with ⟨operand, hoperand, others, hothers, hoperands⟩
      rw [Predicate.childrenAvoidContainsAll, Bool.and_eq_true] at havoids
      rcases hsingle with ⟨hchild, hrest⟩
      rw [← hoperands, List.map_cons, List.map_cons,
        compilePredicate_reads child havoids.left hkeys hchild hoperand outer,
        compileChildren_reads rest havoids.right hkeys hrest hothers outer]

end

/-- What compiles as it stands compiles negated, and the two filters part the universe into the
entities for which the predicate holds and those for which it does not. -/
theorem compilePredicate_meaning {predicate : Predicate} {positive : Filter}
    (havoids : predicate.avoidsContainsAll = true)
    (h : compilePredicate ctx false predicate = .ok positive) :
    ∃ negative, compilePredicate ctx true predicate = .ok negative ∧
      ∀ db : Database engine, db.HasUniqueKeys ctx.layout →
        ∀ (outer : Scope engine) (key : engine.Cell), predicate.SingleValued db ctx key →
          positive.selects db ctx.layout outer key =
              (db.inUniverse ctx key && predicate.holds db ctx key) ∧
            negative.selects db ctx.layout outer key =
              (db.inUniverse ctx key && !predicate.holds db ctx key) := by
  rcases compilePredicate_again predicate h true with ⟨negative, hnegative⟩
  refine ⟨negative, hnegative, ?_⟩
  intro db hkeys outer key hsingle
  rw [compilePredicate_reads predicate havoids hkeys hsingle h outer,
    compilePredicate_reads predicate havoids hkeys hsingle hnegative outer,
    Predicate.readsAs, Predicate.readsAs, Bool.bne_false, Bool.bne_true]
  exact ⟨rfl, rfl⟩

theorem named_parisians_are_alice :
    ∃ positive negative : Filter,
      compilePredicate People.context false
        (.and [.not (.propertyNull (.property People.name)),
          .contains (.property People.addresses) (People.livesIn "Paris")]) = .ok positive ∧
      compilePredicate People.context true
        (.and [.not (.propertyNull (.property People.name)),
          .contains (.property People.addresses) (People.livesIn "Paris")]) = .ok negative ∧
      positive.selects People.database .standard .nothing People.alice = true ∧
      negative.selects People.database .standard .nothing People.bob = true := by
  have hcompile : ∃ positive, compilePredicate People.context false
      (.and [.not (.propertyNull (.property People.name)),
        .contains (.property People.addresses) (People.livesIn "Paris")]) = .ok positive :=
    ⟨_, rfl⟩
  have hkeys : People.database.HasUniqueKeys People.context.layout := by
    unfold Database.HasUniqueKeys
    decide
  have hname : ∀ key : Datum, key = People.alice ∨ key = People.bob →
      People.database.SingleAlong People.context [.property People.name] (.entity (some key)) := by
    intro key hkey
    refine ⟨?_, fun _ _ => trivial⟩
    rcases hkey with halice | hbob
    · rw [halice]
      decide
    · rw [hbob]
      decide
  have hcity : ∀ key : Datum, key = People.alice ∨ key = People.bob →
      ∀ element ∈ People.database.elements People.context (.property People.addresses) key,
        element.slot.SingleIn People.database People.context (People.livesIn "Paris") := by
    intro key hkey element helement
    refine ⟨?_, trivial, trivial⟩
    revert element
    rcases hkey with halice | hbob
    · rw [halice]
      decide
    · rw [hbob]
      decide
  rcases hcompile with ⟨positive, hpositive⟩
  rcases @compilePredicate_meaning Datum.engine _ _ _ (by decide) hpositive with
    ⟨negative, hnegative, hmeaning⟩
  refine ⟨positive, negative, hpositive, hnegative, ?_, ?_⟩
  · have halice := (hmeaning People.database hkeys .nothing People.alice
      ⟨hname _ (Or.inl rfl), hcity _ (Or.inl rfl), trivial⟩).left
    exact halice.trans (by decide)
  · have hbob := (hmeaning People.database hkeys .nothing People.bob
      ⟨hname _ (Or.inr rfl), hcity _ (Or.inr rfl), trivial⟩).right
    exact hbob.trans (by decide)

end SlotQuery
