import SlotQuery.Compile.Statement
import SlotQuery.Proofs.Membership

/-!
# Accepted requests

A request has a statement exactly when it is well formed: some concrete type can
be queried, every leaf of its predicate finds what it asks for, whatever its
polarity, and it is sorted by single values. Nothing else is looked at.
-/

namespace SlotQuery

/-!
# Well-formed values

The names of a composite are those of its fields, also of fields within fields.
Lists are refused wherever they occur, so what they hold is of no interest.
-/

namespace Value

mutual

def names : Value → List QualifiedName
  | composite fields => fieldNames fields
  | null | bool _ | int _ | float _ | string _ | instant _ | list _ => []

def fieldNames : List (QualifiedName × Value) → List QualifiedName
  | [] => []
  | (name, value) :: rest => name :: (names value ++ fieldNames rest)

end

mutual

/-- How many composites a field stands in at most. -/
def nesting : Value → Nat
  | composite fields => fieldNesting fields
  | null | bool _ | int _ | float _ | string _ | instant _ | list _ => 0

def fieldNesting : List (QualifiedName × Value) → Nat
  | [] => 0
  | (_, value) :: rest => max (nesting value + 1) (fieldNesting rest)

end

end Value

def Schema.HasSlot (schema : Schema) (name : QualifiedName) : Prop :=
  ∃ info, schema.slot? name = some info

/-- All fields are slots, and they are not nested too deeply. -/
structure Value.Fits (value : Value) (schema : Schema) (options : Options) : Prop where
  hasSlot : ∀ name ∈ value.names, schema.HasSlot name
  nesting_le : value.nesting ≤ options.maxValueDepth

/-!
# Well-formed requests

Polarity plays no part: a leaf is well formed or not by itself. A path can be
followed when all of its steps are slots, and its last step decides which values
can be looked for at its end.
-/

def Path.HasSlots (path : Path) (schema : Schema) : Prop :=
  ∀ step ∈ path.steps, schema.HasSlot step.name

namespace PathStep

def HasElements (schema : Schema) : PathStep → Prop
  | property name => ∃ info, schema.slot? name = some info ∧ info.isCollection = true
  | association _ => False
  | manyAssociation _ => True

/-- The entities of a many-association are recognised by their identity. -/
def Admits (schema : Schema) (options : Options) (value : Value) : PathStep → Prop
  | property _ | association _ => value.Fits schema options
  | manyAssociation _ => ∃ identity, value = .string identity

/-- Each entity has at most one value for the step. -/
def IsSortable (schema : Schema) : PathStep → Prop
  | property name | association name =>
      ∃ info, schema.slot? name = some info ∧ info.collectionDepth = 0
  | manyAssociation _ => False

end PathStep

structure Path.MayHold (path : Path) (schema : Schema) (options : Options) (value : Value) :
    Prop where
  ne_null : value ≠ .null
  noList : value.containsList = false
  admits : path.leaf.Admits schema options value

namespace Predicate

mutual

def leaves : Predicate → List Predicate
  | and children | or children => childrenLeaves children
  | not operand => leaves operand
  | comparison op path value => [comparison op path value]
  | isMatch path regex => [isMatch path regex]
  | contains path value => [contains path value]
  | containsAll path values => [containsAll path values]
  | propertyNull path => [propertyNull path]
  | propertyNotNull path => [propertyNotNull path]
  | associationNull path => [associationNull path]
  | associationNotNull path => [associationNotNull path]
  | manyAssociationContains path identity => [manyAssociationContains path identity]

def childrenLeaves : List Predicate → List Predicate
  | [] => []
  | child :: rest => leaves child ++ childrenLeaves rest

end

def ComparisonFits (schema : Schema) (options : Options) (op : ComparisonOp) (path : Path) :
    Value → Prop
  | .null => op = .eq ∨ op = .ne
  | .list _ => False
  | .composite fields =>
      (op = .eq ∨ op = .ne) ∧ (∃ name, path.leaf = .property name) ∧
        (Value.composite fields).containsList = false ∧
        (Value.composite fields).Fits schema options
  | .bool _ | .int _ | .float _ | .string _ | .instant _ => True

/-- Combinators are no leaves. -/
def IsWellFormedLeaf (schema : Schema) (dialect : Dialect) (options : Options) : Predicate → Prop
  | and _ | or _ | not _ => False
  | comparison op path value =>
      path.HasSlots schema ∧ ComparisonFits schema options op path value
  | isMatch path _ => path.HasSlots schema ∧ dialect.supportsRegex = true
  | propertyNull path | propertyNotNull path => path.HasSlots schema
  | associationNull path | associationNotNull path =>
      path.HasSlots schema ∧ path.leaf.isAssociation = true
  | manyAssociationContains path _ =>
      path.HasSlots schema ∧ ∃ name, path.leaf = .manyAssociation name
  | contains path value =>
      path.HasSlots schema ∧ path.leaf.HasElements schema ∧ path.MayHold schema options value
  | containsAll path values =>
      path.HasSlots schema ∧ path.leaf.HasElements schema ∧
        ∀ value ∈ values, path.MayHold schema options value

end Predicate

def OrderBy.IsSortable (schema : Schema) (order : OrderBy) : Prop :=
  match order.key with
  | .identity => True
  | .path path => ∀ step ∈ path.steps, step.IsSortable schema

structure Request.IsWellFormed (request : Request) (compiler : Compiler) : Prop where
  hasType : ∃ type ∈ compiler.schema.types, type.isAbstract = false ∧
    compiler.schema.isAssignable type.name request.resultType = true
  leaves : ∀ predicate, request.predicate = some predicate → ∀ leaf ∈ predicate.leaves,
    leaf.IsWellFormedLeaf compiler.schema compiler.dialect compiler.options
  sortable : request.countOnly = false → ∀ order ∈ request.orderBy,
    order.IsSortable compiler.schema

/-!
# Steps that succeed
-/

section

variable {ε α β : Type} {first : Except ε α} {next : α → Except ε β}

/-- The second step only needs to depend on the first one having succeeded. -/
theorem exists_bind_iff {P : Prop}
    (h : ∀ a, first = .ok a → ((∃ result, next a = .ok result) ↔ P)) :
    (∃ result, (first >>= next) = .ok result) ↔ (∃ a, first = .ok a) ∧ P := by
  constructor
  · intro hresult
    rcases hresult with ⟨result, hresult⟩
    rcases bind_eq_ok.mp hresult with ⟨a, hfirst, hnext⟩
    exact ⟨⟨a, hfirst⟩, (h a hfirst).mp ⟨result, hnext⟩⟩
  · intro hboth
    rcases hboth with ⟨⟨a, hfirst⟩, hP⟩
    rcases (h a hfirst).mpr hP with ⟨result, hnext⟩
    exact ⟨result, bind_eq_ok.mpr ⟨a, hfirst, hnext⟩⟩

theorem exists_bind_of_total (h : ∀ a, ∃ result, next a = .ok result) :
    (∃ result, (first >>= next) = .ok result) ↔ ∃ a, first = .ok a :=
  (exists_bind_iff (P := True) fun a _ => iff_true_intro (h a)).trans (and_iff_left trivial)

end

theorem exists_ensure_bind_iff {α : Type} {holds : Bool} {error : CompileError}
    {next : Unit → Except CompileError α} {P : Prop}
    (h : (∃ result, next () = .ok result) ↔ P) :
    (∃ result, (ensure holds error >>= next) = .ok result) ↔ holds = true ∧ P := by
  have hensure : (∃ result, ensure holds error = .ok result) ↔ holds = true := by
    cases holds <;> simp [ensure]
  rw [← hensure]
  exact exists_bind_iff fun _ _ => h

section

variable {ctx : Context}

/-!
# Values

By induction on the value. The draft only has slots of the schema, so a slot
that was joined before is no exception.
-/

theorem Draft.exists_joinSlot_iff {draft : Draft} (hnamed : draft.IsNamed ctx) (origin : Origin)
    (name : QualifiedName) (kind : JoinKind) :
    (∃ result, draft.joinSlot ctx origin name kind = .ok result) ↔ ctx.schema.HasSlot name := by
  constructor
  · intro h
    rcases h with ⟨⟨slot, draft'⟩, hjoin⟩
    exact (joinSlot_isNamed hnamed hjoin).left
  · intro h
    exact exists_joinSlot_eq_ok h origin draft kind

mutual

theorem valueCondition_isNamed {depth : Nat} {holder : Alias} {draft draft' : Draft}
    {condition : Condition} (value : Value) (hnamed : draft.IsNamed ctx)
    (h : valueCondition ctx depth holder value draft = .ok (condition, draft')) :
    draft'.IsNamed ctx := by
  rw [valueCondition] at h
  split at h
  · cases h
  · cases value with
    | composite fields =>
        simp only [bind_eq_ok, pure_eq_ok, Prod.mk.injEq] at h
        rcases h with ⟨⟨conditions, middle⟩, hfields, _, hdraft⟩
        subst hdraft
        exact fieldConditions_isNamed fields hnamed hfields
    | list items => cases h
    | null | bool b | int n | float x | string s | instant t =>
        cases h
        exact hnamed

theorem fieldConditions_isNamed {depth : Nat} {holder : Alias} {draft draft' : Draft}
    {conditions : List Condition} (fields : List (QualifiedName × Value))
    (hnamed : draft.IsNamed ctx)
    (h : fieldConditions ctx depth holder fields draft = .ok (conditions, draft')) :
    draft'.IsNamed ctx := by
  cases fields with
  | nil =>
      cases h
      exact hnamed
  | cons field rest =>
      cases field with
      | mk name value =>
          simp only [fieldConditions, bind_eq_ok, pure_eq_ok, Prod.mk.injEq] at h
          rcases h with ⟨⟨nested, joined⟩, hjoin, ⟨condition, middle⟩, hvalue,
            ⟨conditions', final⟩, hrest, _, hdraft⟩
          subst hdraft
          have hjoined := (Draft.joinSlot_isNamed hnamed hjoin).right
          exact fieldConditions_isNamed rest (valueCondition_isNamed value hjoined hvalue) hrest

end

mutual

theorem exists_valueCondition_iff (depth : Nat) (holder : Alias) (value : Value) {draft : Draft}
    (hnamed : draft.IsNamed ctx) :
    (∃ result, valueCondition ctx depth holder value draft = .ok result) ↔
      value.containsList = false ∧ (∀ name ∈ value.names, ctx.schema.HasSlot name) ∧
        depth + value.nesting ≤ ctx.options.maxValueDepth := by
  rw [valueCondition]
  split
  · rename_i hdepth
    constructor
    · intro h
      rcases h with ⟨_, h⟩
      cases h
    · intro h
      exact absurd (Nat.le_trans (Nat.le_add_right _ _) h.right.right) (Nat.not_le_of_lt hdepth)
  · rename_i hdepth
    have hdepth := Nat.le_of_not_lt hdepth
    cases value with
    | composite fields =>
        refine (exists_bind_of_total fun _ => ⟨_, rfl⟩).trans ?_
        exact exists_fieldConditions_iff holder fields hnamed hdepth
    | list items => simp [Value.containsList]
    | null | bool b | int n | float x | string s | instant t =>
        simp [Value.containsList, Value.names, Value.nesting, hdepth]

theorem exists_fieldConditions_iff {depth : Nat} (holder : Alias)
    (fields : List (QualifiedName × Value)) {draft : Draft} (hnamed : draft.IsNamed ctx)
    (hdepth : depth ≤ ctx.options.maxValueDepth) :
    (∃ result, fieldConditions ctx depth holder fields draft = .ok result) ↔
      Value.fieldsContainList fields = false ∧
        (∀ name ∈ Value.fieldNames fields, ctx.schema.HasSlot name) ∧
        depth + Value.fieldNesting fields ≤ ctx.options.maxValueDepth := by
  cases fields with
  | nil =>
      simp [fieldConditions, Value.fieldsContainList, Value.fieldNames, Value.fieldNesting, hdepth]
  | cons field rest =>
      cases field with
      | mk name value =>
          have hsteps : (∃ result,
              fieldConditions ctx depth holder ((name, value) :: rest) draft = .ok result) ↔
                ctx.schema.HasSlot name ∧
                  (value.containsList = false ∧
                    (∀ nested ∈ value.names, ctx.schema.HasSlot nested) ∧
                    depth + 1 + value.nesting ≤ ctx.options.maxValueDepth) ∧
                  Value.fieldsContainList rest = false ∧
                    (∀ later ∈ Value.fieldNames rest, ctx.schema.HasSlot later) ∧
                    depth + Value.fieldNesting rest ≤ ctx.options.maxValueDepth := by
            rw [fieldConditions, ← Draft.exists_joinSlot_iff hnamed (.row holder) name .left]
            apply exists_bind_iff
            intro joined hjoin
            have hjoined := (Draft.joinSlot_isNamed hnamed hjoin).right
            rw [← exists_valueCondition_iff (depth + 1) joined.fst value hjoined]
            apply exists_bind_iff
            intro found hfound
            have hfound' := valueCondition_isNamed value hjoined hfound
            exact (exists_bind_of_total fun _ => ⟨_, rfl⟩).trans
              (exists_fieldConditions_iff holder rest hfound' hdepth)
          have hnesting : depth + max (value.nesting + 1) (Value.fieldNesting rest) ≤
                ctx.options.maxValueDepth ↔
              depth + 1 + value.nesting ≤ ctx.options.maxValueDepth ∧
                depth + Value.fieldNesting rest ≤ ctx.options.maxValueDepth := by
            omega
          rw [hsteps, Value.fieldsContainList, Value.fieldNames, Value.fieldNesting, hnesting,
            Bool.or_eq_false_iff, List.forall_mem_cons, List.forall_mem_append]
          constructor
          · intro h
            rcases h with ⟨hname, ⟨hlist, hnames, hdepth'⟩, hlists, hlater, hdepths⟩
            exact ⟨⟨hlist, hlists⟩, ⟨hname, hnames, hlater⟩, hdepth', hdepths⟩
          · intro h
            rcases h with ⟨⟨hlist, hlists⟩, ⟨hname, hnames, hlater⟩, hdepth', hdepths⟩
            exact ⟨hname, ⟨hlist, hnames, hdepth'⟩, hlists, hlater, hdepths⟩

end

/-- Values are compared from depth zero on. -/
theorem exists_valueCondition_zero_iff (holder : Alias) (value : Value) {draft : Draft}
    (hnamed : draft.IsNamed ctx) :
    (∃ result, valueCondition ctx 0 holder value draft = .ok result) ↔
      value.containsList = false ∧ value.Fits ctx.schema ctx.options := by
  rw [exists_valueCondition_iff 0 holder value hnamed, Nat.zero_add]
  exact and_congr_right fun _ => ⟨fun h => ⟨h.left, h.right⟩, fun h => ⟨h.hasSlot, h.nesting_le⟩⟩

/-!
# Leaves with one value per entity
-/

variable {path : Path} {negated : Bool}

theorem Context.exists_follow_iff_hasSlots (kind : JoinKind) (pathEnd : PathEnd) :
    (∃ result, ctx.allEntities.follow ctx path kind pathEnd = .ok result) ↔
      path.HasSlots ctx.schema :=
  exists_follow_iff path kind pathEnd

theorem exists_compileNullTest_iff {leaf : LeafKind} :
    (∃ filter, compileNullTest ctx path leaf negated = .ok filter) ↔ path.HasSlots ctx.schema :=
  (exists_bind_of_total fun _ => ⟨_, rfl⟩).trans (Context.exists_follow_iff_hasSlots _ .slot)

theorem exists_compileScalarComparison_iff {op : ComparisonOp} {value : Value} :
    (∃ filter, compileScalarComparison ctx op path value negated = .ok filter) ↔
      path.HasSlots ctx.schema :=
  (exists_bind_of_total fun _ => ⟨_, rfl⟩).trans (Context.exists_follow_iff_hasSlots _ .entity)

theorem exists_compileMatch_iff {regex : String} :
    (∃ filter, compileMatch ctx path regex negated = .ok filter) ↔
      path.HasSlots ctx.schema ∧ ctx.dialect.supportsRegex = true := by
  rw [and_comm]
  apply exists_ensure_bind_iff
  exact (exists_bind_of_total fun _ => ⟨_, rfl⟩).trans (Context.exists_follow_iff_hasSlots _ .entity)

theorem ComparisonOp.isEquality_iff (op : ComparisonOp) :
    op.isEquality = true ↔ op = .eq ∨ op = .ne := by
  cases op <;> simp [isEquality]

theorem PathStep.not_isAssociation_iff (step : PathStep) :
    (!step.isAssociation) = true ↔ ∃ name, step = .property name := by
  cases step <;> simp [isAssociation]

theorem exists_compileCompositeComparison_iff {op : ComparisonOp} {value : Value} :
    (∃ filter, compileCompositeComparison ctx op path value negated = .ok filter) ↔
      path.HasSlots ctx.schema ∧ (op = .eq ∨ op = .ne) ∧ (∃ name, path.leaf = .property name) ∧
        value.containsList = false ∧ value.Fits ctx.schema ctx.options := by
  have hsteps : (∃ filter,
      compileCompositeComparison ctx op path value negated = .ok filter) ↔
        op.isEquality = true ∧ (!path.leaf.isAssociation) = true ∧
          (!value.containsList) = true ∧ path.HasSlots ctx.schema ∧
          value.containsList = false ∧ value.Fits ctx.schema ctx.options := by
    apply exists_ensure_bind_iff
    apply exists_ensure_bind_iff
    apply exists_ensure_bind_iff
    rw [← Context.exists_follow_iff_hasSlots (LeafKind.comparison.joinKind false) .slot]
    apply exists_bind_iff
    intro found hfollow
    have hnamed := (Draft.followSteps_isNamed ctx.allEntities_isNamed hfollow).right
    exact (exists_bind_of_total fun _ => ⟨_, rfl⟩).trans
      (exists_valueCondition_zero_iff found.fst.slot value hnamed)
  rw [hsteps, ComparisonOp.isEquality_iff, PathStep.not_isAssociation_iff, Bool.not_eq_true']
  constructor
  · intro h
    rcases h with ⟨hop, hleaf, _, hslots, hlist, hfits⟩
    exact ⟨hslots, hop, hleaf, hlist, hfits⟩
  · intro h
    rcases h with ⟨hslots, hop, hleaf, hlist, hfits⟩
    exact ⟨hop, hleaf, hlist, hslots, hlist, hfits⟩

theorem exists_compileComparison_iff {op : ComparisonOp} {value : Value} :
    (∃ filter, compileComparison ctx op path value negated = .ok filter) ↔
      path.HasSlots ctx.schema ∧
        Predicate.ComparisonFits ctx.schema ctx.options op path value := by
  cases value with
  | null =>
      cases op with
      | eq => exact exists_compileNullTest_iff.trans (and_iff_left (Or.inl rfl)).symm
      | ne => exact exists_compileNullTest_iff.trans (and_iff_left (Or.inr rfl)).symm
      | ge | gt | le | lt => simp [compileComparison, Predicate.ComparisonFits]
  | list items => simp [compileComparison, Predicate.ComparisonFits]
  | composite fields => exact exists_compileCompositeComparison_iff
  | bool b | int n | float x | string s | instant t =>
      exact exists_compileScalarComparison_iff.trans (and_iff_left trivial).symm

/-!
# Elements

The walk ends at an entity exactly for the leaves that admit identities only.
-/

theorem exists_checkElement_iff (path : Path) {value : Value} :
    (∃ result, checkElement path value = .ok result) ↔
      value ≠ .null ∧ value.containsList = false := by
  cases value <;> simp [checkElement, ensure]

theorem exists_checkElements_iff (path : Path) {values : List Value} :
    (∃ result, checkElements path values = .ok result) ↔
      ∀ value ∈ values, value ≠ .null ∧ value.containsList = false := by
  induction values with
  | nil => simp [checkElements]
  | cons value rest ih =>
      rw [checkElements, List.forall_mem_cons, ← exists_checkElement_iff path, ← ih]
      exact exists_bind_iff fun _ _ => Iff.rfl

theorem exists_followToElements_iff (withTargets : Bool) :
    (∃ result, ctx.allEntities.followToElements ctx path withTargets = .ok result) ↔
      path.HasSlots ctx.schema ∧ path.leaf.HasElements ctx.schema := by
  have hend : (∃ pathEnd, elementsEnd ctx path.leaf withTargets = .ok pathEnd) ↔
      path.leaf.HasElements ctx.schema := by
    cases path.leaf with
    | property name =>
        simp only [elementsEnd, PathStep.HasElements, bind_eq_ok, pure_eq_ok, ensure_eq_ok,
          Context.slotInfo_eq_ok]
        constructor
        · intro h
          rcases h with ⟨_, info, hinfo, _, hcollection, _⟩
          exact ⟨info, hinfo, hcollection⟩
        · intro h
          rcases h with ⟨info, hinfo, hcollection⟩
          exact ⟨.slot, info, hinfo, (), hcollection, rfl⟩
    | association name => simp [elementsEnd, PathStep.HasElements]
    | manyAssociation name => simp [elementsEnd, PathStep.HasElements]
  rw [and_comm, ← hend]
  exact exists_bind_iff fun pathEnd _ => Context.exists_follow_iff_hasSlots _ pathEnd

theorem elementCondition_isNamed {elements : Reached} {value : Value} {draft draft' : Draft}
    {condition : Condition} (hnamed : draft.IsNamed ctx)
    (h : elementCondition ctx elements path value draft = .ok (condition, draft')) :
    draft'.IsNamed ctx := by
  cases htarget : elements.target with
  | none =>
      simp only [elementCondition, htarget] at h
      exact valueCondition_isNamed value hnamed h
  | some entity =>
      simp only [elementCondition, htarget] at h
      cases value with
      | string s =>
          cases h
          exact hnamed
      | null | bool b | int n | float x | instant t | list items | composite fields => cases h

theorem exists_elementCondition_iff {elements : Reached} {start draft : Draft} (value : Value)
    (hfollow : ctx.allEntities.followToElements ctx path true = .ok (elements, start))
    (hnamed : draft.IsNamed ctx) :
    (∃ result, elementCondition ctx elements path value draft = .ok result) ↔
      value.containsList = false ∧ path.leaf.Admits ctx.schema ctx.options value := by
  have htarget : elements.target = none ↔
      path.leaf.isAssociation = false ∨ path.leaf.elementsEnd = .slot :=
    Draft.target_eq_none_iff (Draft.followToElements_eq_ok hfollow) path.steps_ne_nil
  cases hleaf : path.leaf with
  | property name | association name =>
      rw [hleaf] at htarget
      simp only [elementCondition, htarget.mpr (Or.inr rfl)]
      exact exists_valueCondition_zero_iff elements.slot value hnamed
  | manyAssociation name =>
      rw [hleaf] at htarget
      cases hentity : elements.target with
      | none => simpa [PathStep.isAssociation, PathStep.elementsEnd] using htarget.mp hentity
      | some entity =>
          simp only [elementCondition, hentity]
          cases value <;> simp [PathStep.Admits, Value.containsList]

theorem exists_elementConditions_iff {elements : Reached} {start draft : Draft}
    (values : List Value)
    (hfollow : ctx.allEntities.followToElements ctx path true = .ok (elements, start))
    (hnamed : draft.IsNamed ctx) :
    (∃ result, elementConditions ctx elements path values draft = .ok result) ↔
      ∀ value ∈ values,
        value.containsList = false ∧ path.leaf.Admits ctx.schema ctx.options value := by
  induction values generalizing draft with
  | nil => simp [elementConditions]
  | cons value rest ih =>
      rw [elementConditions, List.forall_mem_cons, ← exists_elementCondition_iff value hfollow hnamed]
      apply exists_bind_iff
      intro found hfound
      exact (exists_bind_of_total fun _ => ⟨_, rfl⟩).trans
        (ih (elementCondition_isNamed hnamed hfound))

theorem Path.mayHold_iff {schema : Schema} {options : Options} {value : Value} :
    path.MayHold schema options value ↔
      (value ≠ .null ∧ value.containsList = false) ∧ value.containsList = false ∧
        path.leaf.Admits schema options value := by
  constructor
  · intro h
    exact ⟨⟨h.ne_null, h.noList⟩, h.noList, h.admits⟩
  · intro h
    exact ⟨h.left.left, h.left.right, h.right.right⟩

theorem exists_compileContains_iff {value : Value} :
    (∃ filter, compileContains ctx path value negated = .ok filter) ↔
      path.HasSlots ctx.schema ∧ path.leaf.HasElements ctx.schema ∧
        path.MayHold ctx.schema ctx.options value := by
  have hsteps : (∃ filter, compileContains ctx path value negated = .ok filter) ↔
      (value ≠ .null ∧ value.containsList = false) ∧
        (path.HasSlots ctx.schema ∧ path.leaf.HasElements ctx.schema) ∧
          value.containsList = false ∧ path.leaf.Admits ctx.schema ctx.options value := by
    rw [← exists_checkElement_iff path]
    apply exists_bind_iff
    intro _ _
    rw [← exists_followToElements_iff true]
    apply exists_bind_iff
    intro found hfollow
    have hnamed := (Draft.followSteps_isNamed ctx.allEntities_isNamed
      (Draft.followToElements_eq_ok hfollow)).right
    exact (exists_bind_of_total fun _ => ⟨_, rfl⟩).trans
      (exists_elementCondition_iff value hfollow hnamed)
  rw [hsteps, Path.mayHold_iff, and_left_comm, and_assoc]

theorem exists_compileExists_iff :
    (∃ filter, compileExists ctx path = .ok filter) ↔
      path.HasSlots ctx.schema ∧ path.leaf.HasElements ctx.schema :=
  (exists_bind_of_total fun _ => ⟨_, rfl⟩).trans (exists_followToElements_iff false)

theorem exists_compileEach_iff {values : List Value} :
    (∃ filter, compileEach ctx path values = .ok filter) ↔
      (path.HasSlots ctx.schema ∧ path.leaf.HasElements ctx.schema) ∧
        ∀ value ∈ values,
          value.containsList = false ∧ path.leaf.Admits ctx.schema ctx.options value := by
  rw [← exists_followToElements_iff true]
  apply exists_bind_iff
  intro found hfollow
  have hnamed := (Draft.followSteps_isNamed ctx.allEntities_isNamed
    (Draft.followToElements_eq_ok hfollow)).right
  exact (exists_bind_of_total fun _ => ⟨_, rfl⟩).trans
    (exists_elementConditions_iff values hfollow hnamed)

theorem exists_compileContainsAll_iff {values : List Value} :
    (∃ filter, compileContainsAll ctx path values negated = .ok filter) ↔
      path.HasSlots ctx.schema ∧ path.leaf.HasElements ctx.schema ∧
        ∀ value ∈ values, path.MayHold ctx.schema ctx.options value := by
  have hsteps : (∃ filter, compileContainsAll ctx path values negated = .ok filter) ↔
      (∀ value ∈ values, value ≠ .null ∧ value.containsList = false) ∧
        (path.HasSlots ctx.schema ∧ path.leaf.HasElements ctx.schema) ∧
          ∀ value ∈ values,
            value.containsList = false ∧ path.leaf.Admits ctx.schema ctx.options value := by
    rw [← exists_checkElements_iff path]
    apply exists_bind_iff
    intro _ _
    cases values with
    | nil =>
        refine (exists_bind_of_total fun _ => ⟨_, rfl⟩).trans ?_
        rw [exists_compileExists_iff]
        simp
    | cons first rest =>
        exact (exists_bind_of_total fun _ => ⟨_, rfl⟩).trans exists_compileEach_iff
  rw [hsteps]
  constructor
  · intro h
    rcases h with ⟨hcheck, ⟨hslots, helements⟩, hadmits⟩
    exact ⟨hslots, helements, fun value hvalue =>
      Path.mayHold_iff.mpr ⟨hcheck value hvalue, hadmits value hvalue⟩⟩
  · intro h
    rcases h with ⟨hslots, helements, hhold⟩
    exact ⟨fun value hvalue => (Path.mayHold_iff.mp (hhold value hvalue)).left,
      ⟨hslots, helements⟩, fun value hvalue => (Path.mayHold_iff.mp (hhold value hvalue)).right⟩

theorem exists_compileManyAssociationContains_iff {identity : String} :
    (∃ filter, compileManyAssociationContains ctx path identity negated = .ok filter) ↔
      path.HasSlots ctx.schema ∧ ∃ name, path.leaf = .manyAssociation name := by
  unfold compileManyAssociationContains
  split
  · rename_i name hleaf
    rw [exists_compileContains_iff, Path.mayHold_iff, hleaf]
    simp [PathStep.HasElements, PathStep.Admits, Value.containsList]
  · rename_i hleaf
    constructor
    · intro h
      rcases h with ⟨_, h⟩
      cases h
    · intro h
      rcases h with ⟨_, name, hname⟩
      exact (hleaf name hname).elim

/-!
# Predicates

By induction on the predicate. Negation changes the polarity of its leaves and
nothing else, so each of them is well formed or not in either polarity.
-/

mutual

theorem exists_compilePredicate_iff (negated : Bool) (predicate : Predicate) :
    (∃ filter, compilePredicate ctx negated predicate = .ok filter) ↔
      ∀ leaf ∈ predicate.leaves,
        leaf.IsWellFormedLeaf ctx.schema ctx.dialect ctx.options := by
  cases predicate with
  | and children =>
      exact (exists_bind_of_total fun _ => ⟨_, rfl⟩).trans
        (exists_compileChildren_iff negated children)
  | or children =>
      exact (exists_bind_of_total fun _ => ⟨_, rfl⟩).trans
        (exists_compileChildren_iff negated children)
  | not operand => exact exists_compilePredicate_iff (!negated) operand
  | comparison op path value =>
      rw [Predicate.leaves, List.forall_mem_singleton]
      exact exists_compileComparison_iff
  | isMatch path regex =>
      rw [Predicate.leaves, List.forall_mem_singleton]
      exact exists_compileMatch_iff
  | contains path value =>
      rw [Predicate.leaves, List.forall_mem_singleton]
      exact exists_compileContains_iff
  | containsAll path values =>
      rw [Predicate.leaves, List.forall_mem_singleton]
      exact exists_compileContainsAll_iff
  | propertyNull path | propertyNotNull path =>
      rw [Predicate.leaves, List.forall_mem_singleton]
      exact exists_compileNullTest_iff
  | associationNull path | associationNotNull path =>
      rw [Predicate.leaves, List.forall_mem_singleton]
      exact (exists_ensure_bind_iff exists_compileNullTest_iff).trans and_comm
  | manyAssociationContains path identity =>
      rw [Predicate.leaves, List.forall_mem_singleton]
      exact exists_compileManyAssociationContains_iff

theorem exists_compileChildren_iff (negated : Bool) (children : List Predicate) :
    (∃ operands, compileChildren ctx negated children = .ok operands) ↔
      ∀ leaf ∈ Predicate.childrenLeaves children,
        leaf.IsWellFormedLeaf ctx.schema ctx.dialect ctx.options := by
  cases children with
  | nil => simp [compileChildren, Predicate.childrenLeaves]
  | cons child rest =>
      rw [compileChildren, Predicate.childrenLeaves, List.forall_mem_append,
        ← exists_compilePredicate_iff negated child, ← exists_compileChildren_iff negated rest]
      exact exists_bind_iff fun _ _ => exists_bind_of_total fun _ => ⟨_, rfl⟩

end

/-!
# Sort keys and types
-/

theorem exists_checkSortable_iff {steps : List PathStep} :
    (∃ result, checkSortable ctx steps = .ok result) ↔
      ∀ step ∈ steps, step.IsSortable ctx.schema := by
  induction steps with
  | nil => simp [checkSortable]
  | cons step rest ih =>
      have hstep : (∃ result, checkSortableStep ctx step = .ok result) ↔
          step.IsSortable ctx.schema := by
        cases step with
        | property name | association name =>
            simp only [checkSortableStep, PathStep.IsSortable, bind_eq_ok, ensure_eq_ok,
              Context.slotInfo_eq_ok, SlotInfo.isCollection, Bool.not_eq_true',
              bne_eq_false_iff_eq, exists_const]
        | manyAssociation name => simp [checkSortableStep, PathStep.IsSortable]
      rw [checkSortable, List.forall_mem_cons, ← hstep, ← ih]
      exact exists_bind_iff fun _ _ => Iff.rfl

/-- Slots that can be sorted by are slots of the schema, so their paths can be followed. -/
theorem PathStep.IsSortable.hasSlot {schema : Schema} {step : PathStep}
    (h : step.IsSortable schema) : schema.HasSlot step.name := by
  cases step with
  | property name | association name =>
      rcases h with ⟨info, hinfo, _⟩
      exact ⟨info, hinfo⟩
  | manyAssociation name => cases h

theorem Draft.exists_addSortKeys_iff {orders : List OrderBy} {draft : Draft} :
    (∃ result, draft.addSortKeys ctx orders = .ok result) ↔
      ∀ order ∈ orders, order.IsSortable ctx.schema := by
  induction orders generalizing draft with
  | nil => simp [addSortKeys]
  | cons order rest ih =>
      rw [List.forall_mem_cons]
      cases order with
      | mk key order =>
          cases key with
          | identity =>
              simp only [addSortKeys]
              exact ih.trans (and_iff_right trivial).symm
          | path path =>
              simp only [addSortKeys]
              have hpath : OrderBy.IsSortable ctx.schema { key := .path path, order := order } ↔
                  ∃ result, checkSortable ctx path.steps = .ok result :=
                exists_checkSortable_iff.symm
              rw [hpath]
              apply exists_bind_iff
              intro _ hsortable
              have hslots : ∀ step ∈ path.steps, ctx.schema.HasSlot step.name :=
                fun step hstep => (exists_checkSortable_iff.mp ⟨_, hsortable⟩ step hstep).hasSlot
              have hfollow : ∃ result, draft.follow ctx path .left .entity = .ok result :=
                exists_followSteps_eq_ok hslots .left .entity _ _ _
              refine Iff.trans ?_ (and_iff_right hfollow)
              apply exists_bind_iff
              intro found _
              exact (exists_bind_of_total fun _ => ⟨_, rfl⟩).trans ih

theorem exists_assemble_iff {request : Request} {filter : Option Filter} :
    (∃ query, assemble ctx request filter = .ok query) ↔
      (request.countOnly = false → ∀ order ∈ request.orderBy, order.IsSortable ctx.schema) := by
  unfold assemble
  split
  · rename_i hcount
    simp [hcount]
  · rename_i hcount
    rw [imp_iff_right (Bool.eq_false_iff.mpr hcount)]
    exact (exists_bind_of_total fun _ => ⟨_, rfl⟩).trans Draft.exists_addSortKeys_iff

end

namespace Compiler

variable {compiler : Compiler}

theorem exists_contextFor_iff {resultType : String} :
    (∃ ctx, compiler.contextFor resultType = .ok ctx) ↔
      ∃ type ∈ compiler.schema.types, type.isAbstract = false ∧
        compiler.schema.isAssignable type.name resultType = true := by
  have hids : (compiler.schema.assignableTypeIds resultType).isEmpty = false ↔
      ∃ type ∈ compiler.schema.types, type.isAbstract = false ∧
        compiler.schema.isAssignable type.name resultType = true := by
    simp [Schema.assignableTypeIds, List.filter_eq_nil_iff]
  rw [← hids, contextFor]
  cases (compiler.schema.assignableTypeIds resultType).isEmpty <;> simp

theorem contextFor_eq_ok {resultType : String} {ctx : Context}
    (h : compiler.contextFor resultType = .ok ctx) :
    ctx.schema = compiler.schema ∧ ctx.dialect = compiler.dialect ∧
      ctx.options = compiler.options := by
  simp only [contextFor] at h
  split at h
  · cases h
  · cases h
    exact ⟨rfl, rfl, rfl⟩

theorem exists_compileFilter_iff {ctx : Context} {predicate : Option Predicate} :
    (∃ filter, compileFilter ctx predicate = .ok filter) ↔
      ∀ found, predicate = some found → ∀ leaf ∈ found.leaves,
        leaf.IsWellFormedLeaf ctx.schema ctx.dialect ctx.options := by
  cases predicate with
  | none => simp [compileFilter]
  | some predicate =>
      refine (exists_bind_of_total fun _ => ⟨_, rfl⟩).trans ?_
      simp [exists_compilePredicate_iff]

theorem exists_select_iff {request : Request} :
    (∃ query, compiler.select request = .ok query) ↔ request.IsWellFormed compiler := by
  have hsteps : (∃ query, compiler.select request = .ok query) ↔
      (∃ ctx, compiler.contextFor request.resultType = .ok ctx) ∧
        (∀ predicate, request.predicate = some predicate → ∀ leaf ∈ predicate.leaves,
          leaf.IsWellFormedLeaf compiler.schema compiler.dialect compiler.options) ∧
        (request.countOnly = false → ∀ order ∈ request.orderBy,
          order.IsSortable compiler.schema) := by
    apply exists_bind_iff
    intro ctx hctx
    rcases contextFor_eq_ok hctx with ⟨hschema, hdialect, hoptions⟩
    rw [← hschema, ← hdialect, ← hoptions, ← exists_compileFilter_iff]
    exact exists_bind_iff fun _ _ => exists_assemble_iff
  rw [hsteps, exists_contextFor_iff]
  constructor
  · intro h
    exact ⟨h.left, h.right.left, h.right.right⟩
  · intro h
    exact ⟨h.hasType, h.leaves, h.sortable⟩

end Compiler

/-- The compiler accepts the well-formed requests and no others. -/
theorem exists_compile_iff (compiler : Compiler) (request : Request) :
    (∃ statement, compiler.compile request = .ok statement) ↔ request.IsWellFormed compiler :=
  (exists_bind_of_total fun _ => ⟨_, rfl⟩).trans Compiler.exists_select_iff

end SlotQuery
