import SlotQuery.Proofs.Composite

/-!
# Elements of collections

A row of a collection is an element when its position lies below the one of the
collection itself. One value is looked for among the elements by a plain
condition, several values by counting different cells over all elements that
one of them matches.
-/

namespace SlotQuery

variable {engine : Engine} {db : Database engine} {ctx : Context}

/-!
# Elements

The elements of a many-association are entities and are known by their
identities. The others are rows, which a value matches as a whole.
-/

/-- Where a walk to elements stops: at the entities of a many-association, else at rows. -/
def PathStep.elementsEnd : PathStep → PathEnd
  | .manyAssociation _ => .entity
  | .property _ | .association _ => .slot

namespace Arrival

def isElement (ctx : Context) (arrival : Arrival engine) : Bool :=
  (arrival.slot ctx.layout.collectionPathColumn).any fun cell =>
    (CollectionPathPattern.below (topPath ctx)).covers (engine.position cell)

def Matches (arrival : Arrival engine) (db : Database engine) (ctx : Context) (value : Value) :
    Prop :=
  match arrival.target with
  | some entity => (entity ctx.layout.entityIdentityColumn).any (engine.test .eq value) = true
  | none => arrival.slot.Matches db ctx value

/-- What is counted of an element when all of the values are looked for. -/
def counted (ctx : Context) (values : List Value) (arrival : Arrival engine) :
    Option engine.Cell :=
  if values.any Value.isComposite then
    arrival.slot ctx.layout.collectionPathColumn
  else
    arrival.value ctx.layout

end Arrival

def Database.elements (db : Database engine) (ctx : Context) (path : Path) (key : engine.Cell) :
    List (Arrival engine) :=
  (db.reach ctx .inner path.leaf.elementsEnd path key).filter (Arrival.isElement ctx)

/-!
# Conditions on elements

The conditions of all values are compiled one after the other, over joins that
they share. None of them changes what the walk has reached.
-/

theorem elementConditions_singleton {elements : Reached} {path : Path} {value : Value}
    {draft draft' : Draft} {condition : Condition}
    (h : elementCondition ctx elements path value draft = .ok (condition, draft')) :
    elementConditions ctx elements path [value] draft = .ok ([condition], draft') := by
  simp only [elementConditions, h]
  rfl

theorem elementConditions_of_target (db : Database engine) {elements : Reached} {entity : Alias}
    {path : Path} {values : List Value} {draft draft' : Draft} {conditions : List Condition}
    (htarget : elements.target = some entity)
    (h : elementConditions ctx elements path values draft = .ok (conditions, draft')) :
    draft' = draft ∧ ∀ scope : Scope engine,
      (Condition.anyTruth db ctx.layout scope conditions).isYes = true ↔
        ∃ value ∈ values, (elements.arrival scope).Matches db ctx value := by
  induction values generalizing draft conditions with
  | nil =>
      cases h
      refine ⟨rfl, ?_⟩
      intro scope
      simp [Condition.anyTruth, Truth.isYes]
  | cons value rest ih =>
      simp only [elementConditions, bind_eq_ok, pure_eq_ok, Prod.mk.injEq] at h
      rcases h with ⟨⟨condition, middle⟩, hvalue, ⟨conditions', final⟩, hrest, hconditions,
        hdraft⟩
      subst hconditions hdraft
      simp only [elementCondition, htarget] at hvalue
      cases value with
      | string s =>
          cases hvalue
          rcases ih hrest with ⟨hdraft, hiff⟩
          refine ⟨hdraft, ?_⟩
          intro scope
          simp only [Condition.anyTruth, Truth.isYes_or, Bool.or_eq_true, hiff, List.mem_cons,
            exists_eq_or_imp, Condition.truth, Truth.isYes_ofTest, Reached.read_valueColumn]
          simp only [Arrival.value, Arrival.Matches, Reached.arrival, htarget, Option.map_some]
      | null | bool b | int n | float x | instant t | list items | composite fields =>
          cases hvalue

theorem elementConditions_tests {elements : Reached} {path : Path} {values : List Value}
    {base draft draft' : Draft} {joins : List Join} {address : Alias → List QualifiedName}
    {conditions : List Condition} (htarget : elements.target = none)
    (hcompile : elementConditions ctx elements path values draft = .ok (conditions, draft'))
    (h : Descent db ctx elements.slot base draft joins address) :
    Descent.Tests db ctx elements.slot base draft draft' address
      (fun scope => Condition.anyTruth db ctx.layout scope conditions)
      (fun choice => values.any fun value => choice.meets ctx.layout [] value) := by
  induction values generalizing draft joins address conditions with
  | nil =>
      cases hcompile
      refine ⟨joins, address, h, ⟨Nat.le_refl _, fun _ _ => rfl⟩, ?_⟩
      intro choice scope _
      rfl
  | cons value rest ih =>
      simp only [elementConditions, elementCondition, htarget, bind_eq_ok, pure_eq_ok,
        Prod.mk.injEq] at hcompile
      rcases hcompile with ⟨⟨condition, middle⟩, hvalue, ⟨conditions', final⟩, hrest,
        hconditions, hdraft⟩
      subst hconditions hdraft
      have hroot : elements.slot.index < draft.nextIndex :=
        Nat.lt_of_lt_of_le h.root_lt h.grows.le
      rcases Descent.valueCondition_tests value hvalue h (Nat.le_refl _) hroot with
        ⟨joins₁, address₁, h₁, hkeeps₁, hmeets₁⟩
      rcases ih hrest h₁ with ⟨joins₂, address₂, h₂, hkeeps₂, hmeets₂⟩
      refine ⟨joins₂, address₂, h₂, hkeeps₁.trans hkeeps₂, ?_⟩
      intro choice scope hagrees
      simp only [Condition.anyTruth, Truth.isYes_or, List.any_cons, hmeets₂ choice scope hagrees,
        hmeets₁ choice scope (hagrees.of_keeps hkeeps₂), h.address_root]

theorem elementConditions_spec (db : Database engine) {elements : Reached} {path : Path}
    {values : List Value} {draft draft' : Draft} {conditions : List Condition}
    (hlatest : elements.IsLatest draft)
    (h : elementConditions ctx elements path values draft = .ok (conditions, draft')) :
    ∃ joins, draft.Grows joins draft' ∧ ∀ source : Scope engine,
      (∀ scope ∈ Join.extendAll db ctx.layout source joins,
        elements.arrival scope = elements.arrival source) ∧
      ((∃ scope ∈ Join.extendAll db ctx.layout source joins,
          (Condition.anyTruth db ctx.layout scope conditions).isYes = true) ↔
        ∃ value ∈ values, (elements.arrival source).Matches db ctx value) := by
  cases htarget : elements.target with
  | some entity =>
      rcases elementConditions_of_target db htarget h with ⟨hdraft, hiff⟩
      subst hdraft
      refine ⟨[], Draft.Grows.refl _, ?_⟩
      intro source
      simp [Join.extendAll, hiff]
  | none =>
      rcases hlatest htarget with ⟨hnext, hsettled⟩
      have hstart := Descent.start db ctx hnext hsettled
      rcases (elementConditions_tests htarget h hstart).exists_iff with ⟨joins, hgrows, hiff⟩
      refine ⟨joins, hgrows, ?_⟩
      intro source
      constructor
      · intro scope hscope
        simp only [Reached.arrival, htarget, hgrows.frame hscope hstart.root_lt, Option.map_none]
      · rw [hiff source]
        simp only [List.any_eq_true, Arrival.Matches, Reached.arrival, htarget, Option.map_none,
          Row.Matches]
        constructor
        · intro h
          rcases h with ⟨choice, hfits, value, hvalue, hmeets⟩
          exact ⟨value, hvalue, choice, hfits, hmeets⟩
        · intro h
          rcases h with ⟨value, hvalue, choice, hfits, hmeets⟩
          exact ⟨choice, hfits, value, hvalue, hmeets⟩

theorem Draft.followToElements_eq_ok {path : Path} {elements : Reached} {draft draft' : Draft}
    (h : draft.followToElements ctx path true = .ok (elements, draft')) :
    draft.follow ctx path .inner path.leaf.elementsEnd = .ok (elements, draft') := by
  simp only [followToElements, bind_eq_ok] at h
  rcases h with ⟨pathEnd, hend, hfollow⟩
  have heq : pathEnd = path.leaf.elementsEnd := by
    cases hleaf : path.leaf with
    | property name =>
        simp only [hleaf, SlotQuery.elementsEnd, bind_eq_ok, pure_eq_ok] at hend
        rcases hend with ⟨_, _, _, _, hend⟩
        exact hend.symm
    | association name =>
        rw [hleaf] at hend
        cases hend
    | manyAssociation name =>
        rw [hleaf] at hend
        cases hend
        rfl
  rw [← heq]
  exact hfollow

/-!
# Rows of elements

The rows of the select, for one entity: the elements that one of the values
matches.
-/

/-- Joins that leave alone what was reached only decide which of it is kept. -/
theorem Join.exists_scope_iff {reached : Reached} {joins' : List Join} (joins : List Join)
    (source : Scope engine) (truth : Scope engine → Truth) (found : Arrival engine → Prop)
    (hspec : ∀ middle : Scope engine,
      (∀ scope ∈ Join.extendAll db ctx.layout middle joins',
        reached.arrival scope = reached.arrival middle) ∧
      ((∃ scope ∈ Join.extendAll db ctx.layout middle joins', (truth scope).isYes = true) ↔
        found (reached.arrival middle)))
    (holds : Arrival engine → Prop) :
    (∃ scope ∈ Join.extendAll db ctx.layout source (joins ++ joins'),
        (truth scope).isYes = true ∧ holds (reached.arrival scope)) ↔
      ∃ arrival ∈ (Join.extendAll db ctx.layout source joins).map reached.arrival,
        found arrival ∧ holds arrival := by
  simp only [Join.extendAll_append, List.mem_flatMap, List.mem_map]
  constructor
  · intro h
    rcases h with ⟨scope, ⟨middle, hmiddle, hscope⟩, htruth, hholds⟩
    rcases hspec middle with ⟨hframe, hiff⟩
    rw [hframe scope hscope] at hholds
    exact ⟨reached.arrival middle, ⟨middle, hmiddle, rfl⟩, hiff.mp ⟨scope, hscope, htruth⟩, hholds⟩
  · intro h
    rcases h with ⟨_, ⟨middle, hmiddle, rfl⟩, hfound, hholds⟩
    rcases hspec middle with ⟨hframe, hiff⟩
    rcases hiff.mpr hfound with ⟨scope, hscope, htruth⟩
    refine ⟨scope, ⟨middle, hmiddle, hscope⟩, htruth, ?_⟩
    rw [hframe scope hscope]
    exact hholds

theorem Join.SpareRoot.append {joins joins' : List Join} (h : Join.SpareRoot joins)
    (h' : Join.SpareRoot joins') : Join.SpareRoot (joins ++ joins') := by
  intro join hjoin
  rcases List.mem_append.mp hjoin with hfirst | hsecond
  · exact h join hfirst
  · exact h' join hsecond

theorem truth_belowTop (elements : Reached) (scope : Scope engine) :
    (Condition.truth db ctx.layout scope (belowTop ctx elements)).isYes =
      (elements.arrival scope).isElement ctx := by
  simp only [belowTop, Condition.truth, Truth.isYes_ofTest]
  rfl

theorem elements_spec (db : Database engine) {elements : Reached} {path : Path}
    {values : List Value} {draft draft' : Draft} {conditions : List Condition}
    (hfollow : ctx.allEntities.followToElements ctx path true = .ok (elements, draft))
    (hconditions : elementConditions ctx elements path values
      (draft.addCondition (belowTop ctx elements)) = .ok (conditions, draft')) :
    ∃ joins, Join.SpareRoot joins ∧
      draft'.query = ctx.selectWith joins [belowTop ctx elements] none ∧
      ∀ (outer : Scope engine) (key : engine.Cell) (source : Scope engine),
        ctx.StartsAt db outer key source → ∀ holds : Arrival engine → Prop,
          (∃ scope ∈ Join.extendAll db ctx.layout source joins,
            (elements.arrival scope).isElement ctx = true ∧
            (Condition.anyTruth db ctx.layout scope conditions).isYes = true ∧
            holds (elements.arrival scope)) ↔
          ∃ element ∈ db.elements ctx path key,
            (∃ value ∈ values, element.Matches db ctx value) ∧ holds element := by
  rcases Context.follow_spec db (Draft.followToElements_eq_ok hfollow) with
    ⟨joins, hgrows, hlatest, hmap⟩
  rcases elementConditions_spec db (hlatest.addCondition _) hconditions with
    ⟨joins', hgrows', hspec⟩
  refine ⟨joins ++ joins', ?_, ?_, ?_⟩
  · exact (hgrows.spareRoot (Nat.le_refl _)).append (hgrows'.spareRoot hgrows.le)
  · rw [hgrows'.query]
    simp only [Draft.addCondition, hgrows.query]
    rfl
  · intro outer key source hsource holds
    have hscopes := Join.exists_scope_iff joins source
      (fun scope => Condition.anyTruth db ctx.layout scope conditions)
      (fun arrival => ∃ value ∈ values, arrival.Matches db ctx value) hspec
      fun arrival => arrival.isElement ctx = true ∧ holds arrival
    rw [hmap outer key source hsource] at hscopes
    simp only [Database.elements, List.mem_filter, and_assoc]
    refine Iff.trans ?_ (hscopes.trans ?_)
    · simp only [and_left_comm]
    · simp only [and_left_comm]

end SlotQuery
