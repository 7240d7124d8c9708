import SlotQuery.Proofs.Acceptance
import SlotQuery.Proofs.Outcomes

/-!
# Faults of predicates

Why a predicate has no filter depends on the schema, on the limits for values
and on whether the dialect knows regular expressions. It depends neither on how
anything is spelled, nor on the polarity, nor on what a draft has joined already.
So one compilation fails like any other one that agrees with it on these.
-/

namespace SlotQuery

/-!
# What decides about faults
-/

structure Context.Agrees (ctx ctx' : Context) : Prop where
  schema : ctx.schema = ctx'.schema
  options : ctx.options = ctx'.options

theorem Context.Agrees.refl (ctx : Context) : ctx.Agrees ctx :=
  ⟨rfl, rfl⟩

/-- Both dialects know regular expressions, or both refuse them in the same words. -/
structure Dialect.MatchesAlike (dialect dialect' : Dialect) : Prop where
  supportsRegex : dialect.supportsRegex = dialect'.supportsRegex
  name : dialect.supportsRegex = false → dialect.name = dialect'.name

namespace Dialect.MatchesAlike

theorem refl (dialect : Dialect) : dialect.MatchesAlike dialect :=
  ⟨rfl, fun _ => rfl⟩

theorem of_supportsRegex {dialect dialect' : Dialect} (h : dialect.supportsRegex = true)
    (h' : dialect'.supportsRegex = true) : dialect.MatchesAlike dialect' := by
  refine ⟨h.trans h'.symm, ?_⟩
  intro hrefuses
  rw [h] at hrefuses
  cases hrefuses

end Dialect.MatchesAlike

/-- The slots of the steps, asked for one after the other. -/
def Context.requireSlots (ctx : Context) : List PathStep → Except CompileError Unit
  | [] => .ok ()
  | step :: rest => do
      let _ ← ctx.slotInfo step.name
      requireSlots ctx rest

/-!
# Faults of paths

A slot that a draft knows is a slot of the schema, so nothing is missed where a
join is found again.
-/

section

variable {ctx : Context}

theorem Draft.joinSlot_failAlike {draft : Draft} (hnamed : draft.IsNamed ctx) (origin : Origin)
    (name : QualifiedName) (kind : JoinKind) :
    FailAlike (draft.joinSlot ctx origin name kind) (ctx.slotInfo name) := by
  cases hinfo : ctx.slotInfo name with
  | ok info =>
      have hslot : ∃ info, ctx.schema.slot? name = some info :=
        ⟨info, Context.slotInfo_eq_ok.mp hinfo⟩
      exact .of_exists_ok (exists_joinSlot_eq_ok hslot origin draft kind) ⟨info, rfl⟩
  | error error =>
      cases hknown : draft.known? (.slot origin.occurrence name) with
      | none =>
          simp only [joinSlot, hknown, hinfo]
          exact .error error
      | some found =>
          rcases hnamed _ _ _ hknown with ⟨info, hslot⟩
          rw [Context.slotInfo_eq_ok.mpr hslot] at hinfo
          cases hinfo

theorem Draft.followSteps_failAlike {draft : Draft} (hnamed : draft.IsNamed ctx) (kind : JoinKind)
    (pathEnd : PathEnd) (steps : List PathStep) (origin : Origin) (reached : Reached) :
    FailAlike (draft.followSteps ctx kind pathEnd steps origin reached)
      (ctx.requireSlots steps) := by
  induction steps generalizing origin reached draft with
  | nil => exact .ok _ _
  | cons step rest ih =>
      simp only [followSteps, Context.requireSlots]
      apply (joinSlot_failAlike hnamed origin step.name kind).bind
      intro joined info hjoin _
      have hnamed' := (joinSlot_isNamed hnamed hjoin).right
      cases joined with
      | mk slot middle =>
          simp only
          split
          · split
            · rename_i hend
              rw [Bool.and_eq_true, List.isEmpty_iff] at hend
              rw [hend.left]
              exact .ok _ _
            · exact ih (joinTarget_isNamed hnamed') _ _
          · exact ih hnamed' _ _

end

section

variable {ctx ctx' : Context} (hctx : ctx.Agrees ctx')

include hctx

theorem Context.Agrees.slotInfo_eq (name : QualifiedName) :
    ctx.slotInfo name = ctx'.slotInfo name := by
  simp only [Context.slotInfo, hctx.schema]

theorem Context.Agrees.requireSlots_eq (steps : List PathStep) :
    ctx.requireSlots steps = ctx'.requireSlots steps := by
  induction steps with
  | nil => rfl
  | cons step rest ih => simp only [Context.requireSlots, hctx.slotInfo_eq, ih]

theorem Context.follow_failAlike (path : Path) (kind kind' : JoinKind)
    (pathEnd pathEnd' : PathEnd) :
    FailAlike (ctx.allEntities.follow ctx path kind pathEnd)
      (ctx'.allEntities.follow ctx' path kind' pathEnd') := by
  have hfollow := Draft.followSteps_failAlike ctx.allEntities_isNamed kind pathEnd path.steps
    (.entity Alias.root) { slot := Alias.root, target := none }
  have hfollow' := Draft.followSteps_failAlike ctx'.allEntities_isNamed kind' pathEnd' path.steps
    (.entity Alias.root) { slot := Alias.root, target := none }
  rw [hctx.requireSlots_eq] at hfollow
  exact hfollow.trans hfollow'.symm

/-!
# Faults of values

By induction on the value. Only the order of its fields and the depth count.
-/

mutual

theorem valueCondition_failAlike (depth : Nat) (holder holder' : Alias) (value : Value)
    {draft draft' : Draft} (hnamed : draft.IsNamed ctx) (hnamed' : draft'.IsNamed ctx') :
    FailAlike (valueCondition ctx depth holder value draft)
      (valueCondition ctx' depth holder' value draft') := by
  rw [valueCondition, valueCondition, hctx.options]
  split
  · exact .error _
  · cases value with
    | composite fields =>
        exact (fieldConditions_failAlike depth holder holder' fields hnamed hnamed').bind_totals
          (fun _ => ⟨_, rfl⟩) (fun _ => ⟨_, rfl⟩)
    | list items => exact .error _
    | null | bool b | int n | float x | string s | instant t => exact .ok _ _

theorem fieldConditions_failAlike (depth : Nat) (holder holder' : Alias)
    (fields : List (QualifiedName × Value)) {draft draft' : Draft} (hnamed : draft.IsNamed ctx)
    (hnamed' : draft'.IsNamed ctx') :
    FailAlike (fieldConditions ctx depth holder fields draft)
      (fieldConditions ctx' depth holder' fields draft') := by
  cases fields with
  | nil => exact .ok _ _
  | cons field rest =>
      cases field with
      | mk name value =>
          have hslot := Draft.joinSlot_failAlike hnamed (.row holder) name .left
          have hslot' := Draft.joinSlot_failAlike hnamed' (.row holder') name .left
          rw [hctx.slotInfo_eq] at hslot
          rw [fieldConditions, fieldConditions]
          apply (hslot.trans hslot'.symm).bind
          intro joined joined' hjoin hjoin'
          have hjoined := (Draft.joinSlot_isNamed hnamed hjoin).right
          have hjoined' := (Draft.joinSlot_isNamed hnamed' hjoin').right
          apply (valueCondition_failAlike (depth + 1) joined.fst joined'.fst value hjoined
            hjoined').bind
          intro found found' hfound hfound'
          have hnamedFound := valueCondition_isNamed value hjoined hfound
          have hnamedFound' := valueCondition_isNamed value hjoined' hfound'
          exact (fieldConditions_failAlike depth holder holder' rest hnamedFound
            hnamedFound').bind_totals (fun _ => ⟨_, rfl⟩) (fun _ => ⟨_, rfl⟩)

end

/-!
# Faults of elements

Which values can be looked for follows from the last step of the path, which
both walks end with.
-/

theorem followToElements_failAlike (path : Path) (withTargets : Bool) :
    FailAlike (ctx.allEntities.followToElements ctx path withTargets)
      (ctx'.allEntities.followToElements ctx' path withTargets) := by
  have hend : elementsEnd ctx path.leaf withTargets = elementsEnd ctx' path.leaf withTargets := by
    cases path.leaf with
    | property name => simp only [elementsEnd, hctx.slotInfo_eq]
    | association name | manyAssociation name => rfl
  rw [Draft.followToElements, Draft.followToElements, hend]
  apply (FailAlike.refl _).bind
  intro pathEnd pathEnd' _ _
  exact Context.follow_failAlike hctx path _ _ pathEnd pathEnd'

section

variable {path : Path} {elements elements' : Reached}

theorem elementCondition_failAlike (value : Value) {draft draft' : Draft}
    (htarget : elements.target = none ↔ elements'.target = none)
    (hnamed : draft.IsNamed ctx) (hnamed' : draft'.IsNamed ctx') :
    FailAlike (elementCondition ctx elements path value draft)
      (elementCondition ctx' elements' path value draft') := by
  cases hentity : elements.target with
  | none =>
      simp only [elementCondition, hentity, htarget.mp hentity]
      exact valueCondition_failAlike hctx 0 _ _ value hnamed hnamed'
  | some entity =>
      cases hentity' : elements'.target with
      | none =>
          rw [htarget.mpr hentity'] at hentity
          cases hentity
      | some entity' =>
          simp only [elementCondition, hentity, hentity']
          cases value with
          | string s => exact .ok _ _
          | null | bool b | int n | float x | instant t | list items | composite fields =>
              exact .error _

theorem elementConditions_failAlike (values : List Value) {draft draft' : Draft}
    (htarget : elements.target = none ↔ elements'.target = none)
    (hnamed : draft.IsNamed ctx) (hnamed' : draft'.IsNamed ctx') :
    FailAlike (elementConditions ctx elements path values draft)
      (elementConditions ctx' elements' path values draft') := by
  induction values generalizing draft draft' with
  | nil => exact .ok _ _
  | cons value rest ih =>
      rw [elementConditions, elementConditions]
      apply (elementCondition_failAlike hctx value htarget hnamed hnamed').bind
      intro found found' hfound hfound'
      exact (ih (elementCondition_isNamed hnamed hfound)
        (elementCondition_isNamed hnamed' hfound')).bind_totals (fun _ => ⟨_, rfl⟩)
        (fun _ => ⟨_, rfl⟩)

end

omit hctx in
theorem followToElements_target_iff {path : Path} {elements elements' : Reached}
    {draft draft' : Draft}
    (h : ctx.allEntities.followToElements ctx path true = .ok (elements, draft))
    (h' : ctx'.allEntities.followToElements ctx' path true = .ok (elements', draft')) :
    elements.target = none ↔ elements'.target = none :=
  (Draft.target_eq_none_iff (Draft.followToElements_eq_ok h) path.steps_ne_nil).trans
    (Draft.target_eq_none_iff (Draft.followToElements_eq_ok h') path.steps_ne_nil).symm

omit hctx in
theorem followToElements_isNamed {path : Path} {elements : Reached} {draft : Draft}
    (h : ctx.allEntities.followToElements ctx path true = .ok (elements, draft)) :
    draft.IsNamed ctx :=
  (Draft.followSteps_isNamed ctx.allEntities_isNamed (Draft.followToElements_eq_ok h)).right

/-!
# Faults of leaves
-/

variable (path : Path) (negated negated' : Bool)

theorem compileNullTest_failAlike (leaf leaf' : LeafKind) :
    FailAlike (compileNullTest ctx path leaf negated)
      (compileNullTest ctx' path leaf' negated') :=
  (Context.follow_failAlike hctx path _ _ .slot .slot).bind_totals (fun _ => ⟨_, rfl⟩)
    (fun _ => ⟨_, rfl⟩)

theorem compileScalarComparison_failAlike (op : ComparisonOp) (value : Value) :
    FailAlike (compileScalarComparison ctx op path value negated)
      (compileScalarComparison ctx' op path value negated') :=
  (Context.follow_failAlike hctx path _ _ .entity .entity).bind_totals (fun _ => ⟨_, rfl⟩)
    (fun _ => ⟨_, rfl⟩)

theorem compileMatch_failAlike (hmatch : ctx.dialect.MatchesAlike ctx'.dialect)
    (regex : String) :
    FailAlike (compileMatch ctx path regex negated) (compileMatch ctx' path regex negated') := by
  have hensure : ensure ctx.dialect.supportsRegex (.unsupported "matches"
        ("the " ++ ctx.dialect.name ++ " dialect has no regular expression operator")) =
      ensure ctx'.dialect.supportsRegex (.unsupported "matches"
        ("the " ++ ctx'.dialect.name ++ " dialect has no regular expression operator")) := by
    rw [← hmatch.supportsRegex]
    cases hregex : ctx.dialect.supportsRegex with
    | true => rfl
    | false => rw [hmatch.name hregex]
  rw [compileMatch, compileMatch, hensure]
  apply (FailAlike.refl _).bind
  intro _ _ _ _
  exact (Context.follow_failAlike hctx path _ _ .entity .entity).bind_totals (fun _ => ⟨_, rfl⟩)
    (fun _ => ⟨_, rfl⟩)

theorem compileCompositeComparison_failAlike (op : ComparisonOp) (value : Value) :
    FailAlike (compileCompositeComparison ctx op path value negated)
      (compileCompositeComparison ctx' op path value negated') := by
  rw [compileCompositeComparison, compileCompositeComparison]
  apply (FailAlike.refl _).bind
  intro _ _ _ _
  apply (FailAlike.refl _).bind
  intro _ _ _ _
  apply (FailAlike.refl _).bind
  intro _ _ _ _
  apply (Context.follow_failAlike hctx path _ _ .slot .slot).bind
  intro found found' hfollow hfollow'
  have hnamed := (Draft.followSteps_isNamed ctx.allEntities_isNamed hfollow).right
  have hnamed' := (Draft.followSteps_isNamed ctx'.allEntities_isNamed hfollow').right
  exact (valueCondition_failAlike hctx 0 _ _ value hnamed hnamed').bind_totals
    (fun _ => ⟨_, rfl⟩) (fun _ => ⟨_, rfl⟩)

theorem compileComparison_failAlike (op : ComparisonOp) (value : Value) :
    FailAlike (compileComparison ctx op path value negated)
      (compileComparison ctx' op path value negated') := by
  cases value with
  | null =>
      cases op with
      | eq => exact compileNullTest_failAlike hctx path negated negated' .isNull .isNull
      | ne => exact compileNullTest_failAlike hctx path negated negated' .isNotNull .isNotNull
      | ge | gt | le | lt => exact .error _
  | list items => exact .error _
  | composite fields =>
      exact compileCompositeComparison_failAlike hctx path negated negated' op (.composite fields)
  | bool b | int n | float x | string s | instant t =>
      exact compileScalarComparison_failAlike hctx path negated negated' op _

theorem compileContains_failAlike (value : Value) :
    FailAlike (compileContains ctx path value negated)
      (compileContains ctx' path value negated') := by
  rw [compileContains, compileContains]
  apply (FailAlike.refl _).bind
  intro _ _ _ _
  apply (followToElements_failAlike hctx path true).bind
  intro found found' hfollow hfollow'
  have hnamed := followToElements_isNamed hfollow
  have hnamed' := followToElements_isNamed hfollow'
  refine FailAlike.bind_totals ?_ (fun _ => ⟨_, rfl⟩) (fun _ => ⟨_, rfl⟩)
  exact elementCondition_failAlike hctx value (followToElements_target_iff hfollow hfollow')
    hnamed hnamed'

theorem compileExists_failAlike :
    FailAlike (compileExists ctx path) (compileExists ctx' path) :=
  (followToElements_failAlike hctx path false).bind_totals (fun _ => ⟨_, rfl⟩)
    (fun _ => ⟨_, rfl⟩)

theorem compileEach_failAlike (values : List Value) :
    FailAlike (compileEach ctx path values) (compileEach ctx' path values) := by
  apply (followToElements_failAlike hctx path true).bind
  intro found found' hfollow hfollow'
  have hnamed := followToElements_isNamed hfollow
  have hnamed' := followToElements_isNamed hfollow'
  refine FailAlike.bind_totals ?_ (fun _ => ⟨_, rfl⟩) (fun _ => ⟨_, rfl⟩)
  exact elementConditions_failAlike hctx values (followToElements_target_iff hfollow hfollow')
    hnamed hnamed'

theorem compileContainsAll_failAlike (values : List Value) :
    FailAlike (compileContainsAll ctx path values negated)
      (compileContainsAll ctx' path values negated') := by
  rw [compileContainsAll, compileContainsAll]
  apply (FailAlike.refl _).bind
  intro _ _ _ _
  cases values with
  | nil =>
      exact (compileExists_failAlike hctx path).bind_totals (fun _ => ⟨_, rfl⟩)
        (fun _ => ⟨_, rfl⟩)
  | cons first rest =>
      exact (compileEach_failAlike hctx path (first :: rest)).bind_totals (fun _ => ⟨_, rfl⟩)
        (fun _ => ⟨_, rfl⟩)

theorem compileManyAssociationContains_failAlike (identity : String) :
    FailAlike (compileManyAssociationContains ctx path identity negated)
      (compileManyAssociationContains ctx' path identity negated') := by
  unfold compileManyAssociationContains
  split
  · exact compileContains_failAlike hctx path negated negated' (.string identity)
  · exact .error _

end

/-!
# Faults of predicates

By induction on the predicate. A combinator fails like its operands one after
the other, whatever it does with their filters.
-/

section

variable {ctx ctx' : Context}

mutual

theorem compilePredicate_failAlike (hctx : ctx.Agrees ctx') (negated negated' : Bool)
    (predicate : Predicate)
    (hmatch : ctx.dialect.MatchesAlike ctx'.dialect ∨
      ∀ path regex, .isMatch path regex ∉ predicate.leaves) :
    FailAlike (compilePredicate ctx negated predicate)
      (compilePredicate ctx' negated' predicate) := by
  cases predicate with
  | and children =>
      exact (compileChildren_failAlike hctx negated negated' children hmatch).bind_totals
        (fun _ => ⟨_, rfl⟩) (fun _ => ⟨_, rfl⟩)
  | or children =>
      exact (compileChildren_failAlike hctx negated negated' children hmatch).bind_totals
        (fun _ => ⟨_, rfl⟩) (fun _ => ⟨_, rfl⟩)
  | not operand => exact compilePredicate_failAlike hctx (!negated) (!negated') operand hmatch
  | comparison op path value =>
      exact compileComparison_failAlike hctx path negated negated' op value
  | isMatch path regex =>
      rcases hmatch with hmatch | hmatch
      · exact compileMatch_failAlike hctx path negated negated' hmatch regex
      · exact absurd (List.mem_singleton.mpr rfl) (hmatch path regex)
  | contains path value => exact compileContains_failAlike hctx path negated negated' value
  | containsAll path values => exact compileContainsAll_failAlike hctx path negated negated' values
  | propertyNull path =>
      exact compileNullTest_failAlike hctx path negated negated' .isNull .isNull
  | propertyNotNull path =>
      exact compileNullTest_failAlike hctx path negated negated' .isNotNull .isNotNull
  | associationNull path =>
      exact (FailAlike.refl _).bind fun _ _ _ _ =>
        compileNullTest_failAlike hctx path negated negated' .isNull .isNull
  | associationNotNull path =>
      exact (FailAlike.refl _).bind fun _ _ _ _ =>
        compileNullTest_failAlike hctx path negated negated' .isNotNull .isNotNull
  | manyAssociationContains path identity =>
      exact compileManyAssociationContains_failAlike hctx path negated negated' identity

theorem compileChildren_failAlike (hctx : ctx.Agrees ctx') (negated negated' : Bool)
    (children : List Predicate)
    (hmatch : ctx.dialect.MatchesAlike ctx'.dialect ∨
      ∀ path regex, .isMatch path regex ∉ Predicate.childrenLeaves children) :
    FailAlike (compileChildren ctx negated children)
      (compileChildren ctx' negated' children) := by
  cases children with
  | nil => exact .ok _ _
  | cons child rest =>
      have hchild := hmatch.imp_right fun h path regex hleaf =>
        h path regex (List.mem_append_left _ hleaf)
      have hrest := hmatch.imp_right fun h path regex hleaf =>
        h path regex (List.mem_append_right _ hleaf)
      rw [compileChildren, compileChildren]
      apply (compilePredicate_failAlike hctx negated negated' child hchild).bind
      intro _ _ _ _
      exact (compileChildren_failAlike hctx negated negated' rest hrest).bind_totals
        (fun _ => ⟨_, rfl⟩) (fun _ => ⟨_, rfl⟩)

end

end

/-!
# Leaves in order

Negation plays no part, so a predicate fails like the list of its leaves.
-/

section

variable {ctx : Context}

theorem compileLeaf_failAlike (negated : Bool) {leaf : Predicate} (h : leaf.leaves = [leaf]) :
    FailAlike (compilePredicate ctx negated leaf) (compileChildren ctx false leaf.leaves) := by
  rw [h]
  have hpolarity := compilePredicate_failAlike (.refl ctx) negated false leaf
    (Or.inl (.refl ctx.dialect))
  exact hpolarity.trans (FailAlike.bind_total fun _ => ⟨_, rfl⟩).symm

mutual

theorem compilePredicate_failAlike_leaves (negated : Bool) (predicate : Predicate) :
    FailAlike (compilePredicate ctx negated predicate)
      (compileChildren ctx false predicate.leaves) := by
  cases predicate with
  | and children | or children =>
      exact (FailAlike.bind_total fun _ => ⟨_, rfl⟩).trans
        (compileChildren_failAlike_leaves negated children)
  | not operand => exact compilePredicate_failAlike_leaves (!negated) operand
  | comparison op path value | isMatch path regex | contains path value
  | containsAll path values | propertyNull path | propertyNotNull path | associationNull path
  | associationNotNull path | manyAssociationContains path identity =>
      exact compileLeaf_failAlike negated rfl

theorem compileChildren_failAlike_leaves (negated : Bool) (children : List Predicate) :
    FailAlike (compileChildren ctx negated children)
      (compileChildren ctx false (Predicate.childrenLeaves children)) := by
  cases children with
  | nil => exact .ok _ _
  | cons child rest =>
      rw [Predicate.childrenLeaves, compileChildren_append, compileChildren]
      apply (compilePredicate_failAlike_leaves negated child).bind
      intro _ _ _ _
      exact (compileChildren_failAlike_leaves negated rest).bind_totals (fun _ => ⟨_, rfl⟩)
        (fun _ => ⟨_, rfl⟩)

end

end

/-!
# Faults of requests

A sort key that passes the check can be followed from any draft, so the joins
that other sort keys have added do not matter.
-/

def Request.leaves (request : Request) : List Predicate :=
  request.predicate.elim [] Predicate.leaves

def checkSortKey (ctx : Context) (order : OrderBy) : Except CompileError Unit :=
  match order.key with
  | .identity => .ok ()
  | .path path => checkSortable ctx path.steps

section

variable {ctx : Context}

theorem Draft.exists_follow_of_checkSortable {path : Path} {result : Unit}
    (h : checkSortable ctx path.steps = .ok result) (draft : Draft) :
    ∃ result, draft.follow ctx path .left .entity = .ok result := by
  have hslots : ∀ step ∈ path.steps, ctx.schema.HasSlot step.name :=
    fun step hstep => (exists_checkSortable_iff.mp ⟨result, h⟩ step hstep).hasSlot
  exact exists_followSteps_eq_ok hslots .left .entity _ _ _

theorem Draft.addSortKeys_failAlike (orders : List OrderBy) (draft : Draft) :
    FailAlike (draft.addSortKeys ctx orders) (forM orders (checkSortKey ctx)) := by
  induction orders generalizing draft with
  | nil => exact .ok _ _
  | cons order rest ih =>
      rw [List.forM_cons]
      cases order with
      | mk key order =>
          cases key with
          | identity =>
              simp only [addSortKeys]
              exact ih _
          | path path =>
              simp only [addSortKeys]
              apply (FailAlike.refl (checkSortable ctx path.steps)).bind
              intro _ _ hsortable _
              rcases exists_follow_of_checkSortable hsortable draft with ⟨found, hfollow⟩
              rw [hfollow]
              exact (FailAlike.bind_total fun _ => ⟨_, rfl⟩).trans (ih _)

end

section

variable {ctx ctx' : Context} (hctx : ctx.Agrees ctx')

include hctx

theorem Context.Agrees.checkSortable_eq (steps : List PathStep) :
    checkSortable ctx steps = checkSortable ctx' steps := by
  induction steps with
  | nil => rfl
  | cons step rest ih =>
      have hstep : checkSortableStep ctx step = checkSortableStep ctx' step := by
        cases step with
        | property name | association name => simp only [checkSortableStep, hctx.slotInfo_eq]
        | manyAssociation name => rfl
      rw [checkSortable, checkSortable, hstep, ih]

theorem Context.Agrees.checkSortKey_eq : checkSortKey ctx = checkSortKey ctx' := by
  funext order
  simp only [checkSortKey, hctx.checkSortable_eq]

theorem assemble_failAlike (request : Request) (filter filter' : Option Filter) :
    FailAlike (assemble ctx request filter) (assemble ctx' request filter') := by
  rw [assemble, assemble]
  split
  · exact .ok _ _
  · refine FailAlike.bind_totals ?_ (fun _ => ⟨_, rfl⟩) (fun _ => ⟨_, rfl⟩)
    apply (Draft.addSortKeys_failAlike request.orderBy _).trans
    rw [hctx.checkSortKey_eq]
    exact (Draft.addSortKeys_failAlike request.orderBy _).symm

theorem compileFilter_failAlike (predicate : Option Predicate)
    (hmatch : ctx.dialect.MatchesAlike ctx'.dialect ∨
      ∀ path regex, .isMatch path regex ∉ predicate.elim [] Predicate.leaves) :
    FailAlike (Compiler.compileFilter ctx predicate) (Compiler.compileFilter ctx' predicate) := by
  cases predicate with
  | none => exact .ok _ _
  | some predicate =>
      exact (compilePredicate_failAlike hctx false false predicate hmatch).bind_totals
        (fun _ => ⟨_, rfl⟩) (fun _ => ⟨_, rfl⟩)

end

end SlotQuery
