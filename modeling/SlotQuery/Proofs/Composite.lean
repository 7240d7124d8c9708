import SlotQuery.Proofs.Descent

/-!
# Values inside a row

A composite is compared with a row field by field. Fields of the same name share
their join, so one row is chosen for each name inside a row, and all fields have
to agree on that choice.
-/

namespace SlotQuery

variable {engine : Engine} {db : Database engine} {ctx : Context}

namespace Choice

mutual

def meets (choice : Choice engine) (layout : Layout) (place : List QualifiedName) : Value → Bool
  | .null => (choice place layout.valueColumn).isNone
  | .composite fields => meetsFields choice layout place fields
  | .bool b => (choice place layout.valueColumn).any (engine.test .eq (.bool b))
  | .int n => (choice place layout.valueColumn).any (engine.test .eq (.int n))
  | .float x => (choice place layout.valueColumn).any (engine.test .eq (.float x))
  | .string s => (choice place layout.valueColumn).any (engine.test .eq (.string s))
  | .instant t => (choice place layout.valueColumn).any (engine.test .eq (.instant t))
  | .list _ => false

def meetsFields (choice : Choice engine) (layout : Layout) (place : List QualifiedName) :
    List (QualifiedName × Value) → Bool
  | [] => true
  | (name, value) :: rest =>
      meets choice layout (name :: place) value && meetsFields choice layout place rest

end

end Choice

/-- Some choice of the rows inside the row agrees with the value. -/
def Row.Matches (row : Row engine) (db : Database engine) (ctx : Context) (value : Value) : Prop :=
  ∃ choice : Choice engine, choice.Fits db ctx row ∧ choice.meets ctx.layout [] value = true

/-!
# Compiled conditions

By recursion on the value, a condition is true exactly of the choices that meet
the value. What was joined for an earlier field stays there for the later ones.
-/

/-- The joins went on to another draft, and there `truth` tells which choices `meets` accepts. -/
def Descent.Tests (db : Database engine) (ctx : Context) (root : Alias) (base draft draft' : Draft)
    (address : Alias → List QualifiedName) (truth : Scope engine → Truth)
    (meets : Choice engine → Bool) : Prop :=
  ∃ joins' address', Descent db ctx root base draft' joins' address' ∧
    Alias.Keeps draft draft' address address' ∧
    ∀ (choice : Choice engine) (scope : Scope engine),
      choice.Agrees root draft' address' scope → (truth scope).isYes = meets choice

namespace Descent

variable {root : Alias} {base draft draft' : Draft} {joins : List Join}
  {address : Alias → List QualifiedName} {holder : Alias} {depth : Nat}

/-- A condition on the value of the holder itself needs no further joins. -/
theorem tests_value (h : Descent db ctx root base draft joins address)
    (hfrom : root.index ≤ holder.index) (hto : holder.index < draft.nextIndex)
    {condition : Condition} (test : Option engine.Cell → Bool)
    (hcondition : ∀ scope : Scope engine, (Condition.truth db ctx.layout scope condition).isYes =
      test (scope (.table holder) ctx.layout.valueColumn)) :
    Tests db ctx root base draft draft address
      (fun scope => Condition.truth db ctx.layout scope condition)
      (fun choice => test (choice (address holder) ctx.layout.valueColumn)) := by
  refine ⟨joins, address, h, ⟨Nat.le_refl _, fun _ _ => rfl⟩, ?_⟩
  intro choice scope hagrees
  simp only [hcondition, hagrees holder hfrom hto]

theorem tests_scalar (h : Descent db ctx root base draft joins address)
    (hfrom : root.index ≤ holder.index) (hto : holder.index < draft.nextIndex) (value : Value) :
    Tests db ctx root base draft draft address
      (fun scope => Condition.truth db ctx.layout scope
        (.compare (holder.column ctx.layout.valueColumn) .eq value))
      (fun choice => (choice (address holder) ctx.layout.valueColumn).any
        (engine.test .eq value)) := by
  apply h.tests_value hfrom hto (fun cell => cell.any (engine.test .eq value))
  intro scope
  simp only [Condition.truth, Truth.isYes_ofTest, Scope.read_column]

mutual

theorem valueCondition_tests {draft draft' : Draft} {joins : List Join}
    {address : Alias → List QualifiedName} {holder : Alias} {depth : Nat}
    {condition : Condition} (value : Value)
    (hcompile : valueCondition ctx depth holder value draft = .ok (condition, draft'))
    (h : Descent db ctx root base draft joins address) (hfrom : root.index ≤ holder.index)
    (hto : holder.index < draft.nextIndex) :
    Tests db ctx root base draft draft' address
      (fun scope => Condition.truth db ctx.layout scope condition)
      (fun choice => choice.meets ctx.layout (address holder) value) := by
  rw [valueCondition] at hcompile
  split at hcompile
  · cases hcompile
  · cases value with
    | null =>
        cases hcompile
        apply h.tests_value hfrom hto (fun cell => cell.isNone)
        intro scope
        simp only [Condition.truth, Truth.isYes_ofBool, Scope.read_column]
    | composite fields =>
        simp only [bind_eq_ok, pure_eq_ok, Prod.mk.injEq] at hcompile
        rcases hcompile with ⟨⟨conditions, middle⟩, hfields, hcondition, hdraft⟩
        rw [← hcondition, ← hdraft]
        simp only [Condition.truth_all]
        exact fieldConditions_tests fields hfields h hfrom hto
    | list items => cases hcompile
    | bool b => cases hcompile; exact h.tests_scalar hfrom hto (.bool b)
    | int n => cases hcompile; exact h.tests_scalar hfrom hto (.int n)
    | float x => cases hcompile; exact h.tests_scalar hfrom hto (.float x)
    | string s => cases hcompile; exact h.tests_scalar hfrom hto (.string s)
    | instant t => cases hcompile; exact h.tests_scalar hfrom hto (.instant t)

theorem fieldConditions_tests {draft draft' : Draft} {joins : List Join}
    {address : Alias → List QualifiedName} {holder : Alias} {depth : Nat}
    {conditions : List Condition} (fields : List (QualifiedName × Value))
    (hcompile : fieldConditions ctx depth holder fields draft = .ok (conditions, draft'))
    (h : Descent db ctx root base draft joins address) (hfrom : root.index ≤ holder.index)
    (hto : holder.index < draft.nextIndex) :
    Tests db ctx root base draft draft' address
      (fun scope => Condition.allTruth db ctx.layout scope conditions)
      (fun choice => choice.meetsFields ctx.layout (address holder) fields) := by
  cases fields with
  | nil =>
      cases hcompile
      refine ⟨joins, address, h, ⟨Nat.le_refl _, fun _ _ => rfl⟩, ?_⟩
      intro choice scope _
      rfl
  | cons field rest =>
      cases field with
      | mk name value =>
          simp only [fieldConditions, bind_eq_ok, pure_eq_ok, Prod.mk.injEq] at hcompile
          rcases hcompile with ⟨⟨nested, joined⟩, hjoin, ⟨condition, middle⟩, hvalue,
            ⟨conditions', final⟩, hrest, hconditions, hdraft⟩
          rw [← hconditions, ← hdraft]
          rcases h.joinSlot hfrom hto hjoin with
            ⟨joins₁, address₁, h₁, hkeeps₁, hfrom₁, hto₁, haddress⟩
          rcases valueCondition_tests value hvalue h₁ hfrom₁ hto₁ with
            ⟨joins₂, address₂, h₂, hkeeps₂, hmeets₂⟩
          have hheld : holder.index < middle.nextIndex :=
            Nat.lt_of_lt_of_le hto (hkeeps₁.trans hkeeps₂).le
          rcases fieldConditions_tests rest hrest h₂ hfrom hheld with
            ⟨joins₃, address₃, h₃, hkeeps₃, hmeets₃⟩
          refine ⟨joins₃, address₃, h₃, (hkeeps₁.trans hkeeps₂).trans hkeeps₃, ?_⟩
          intro choice scope hagrees
          have hholder := (hkeeps₁.trans hkeeps₂).eq holder hto
          simp only [Condition.allTruth, Truth.isYes_and, Choice.meetsFields,
            hmeets₂ choice scope (hagrees.of_keeps hkeeps₃), hmeets₃ choice scope hagrees,
            haddress, hholder]

end

end Descent

/-!
# Rows that match

Over the joins of a whole value, the conditions hold somewhere exactly when some
choice inside the row meets the value.
-/

theorem Descent.Tests.exists_iff {root : Alias} {base draft : Draft}
    {truth : Scope engine → Truth} {meets : Choice engine → Bool}
    (h : Descent.Tests db ctx root base base draft (fun _ => []) truth meets) :
    ∃ joins, base.Grows joins draft ∧ ∀ source : Scope engine,
      (∃ scope ∈ Join.extendAll db ctx.layout source joins, (truth scope).isYes = true) ↔
        ∃ choice : Choice engine, choice.Fits db ctx (source (.table root)) ∧
          meets choice = true := by
  rcases h with ⟨joins, address, hdescent, _, htests⟩
  refine ⟨joins, hdescent.grows, ?_⟩
  intro source
  constructor
  · intro h
    rcases h with ⟨scope, hscope, htruth⟩
    refine ⟨Descent.choiceOf db ctx root draft address scope, hdescent.choiceOf_fits hscope, ?_⟩
    rw [← htests _ scope (hdescent.choiceOf_agrees scope)]
    exact htruth
  · intro h
    rcases h with ⟨choice, hfits, hmeets⟩
    rcases hdescent.choices source choice hfits with ⟨scope, hscope, hagrees⟩
    refine ⟨scope, hscope, ?_⟩
    rw [htests choice scope hagrees]
    exact hmeets

end SlotQuery
