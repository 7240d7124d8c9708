import SlotQuery.Name

/-!
# Navigation paths

A path leads from the queried entity to a slot, one step at a time. A step is
a property, which stays inside the current row, or an association, which lands
on another entity. A path has at least one step, so its last step exists.
-/

namespace SlotQuery

inductive PathStep where
  | property (name : QualifiedName)
  | association (name : QualifiedName)
  | manyAssociation (name : QualifiedName)
deriving DecidableEq, Repr, Inhabited

namespace PathStep

def name : PathStep → QualifiedName
  | property name => name
  | association name => name
  | manyAssociation name => name

def isAssociation : PathStep → Bool
  | property _ => false
  | association _ => true
  | manyAssociation _ => true

def text : PathStep → String
  | property name => name.member
  | association name => name.member ++ "->"
  | manyAssociation name => name.member ++ "=>"

end PathStep

/-- Steps are kept from the queried entity outwards. -/
structure Path where
  steps : List PathStep
  steps_ne_nil : steps ≠ []
deriving DecidableEq, Repr

namespace Path

def single (step : PathStep) : Path :=
  { steps := [step], steps_ne_nil := List.cons_ne_nil step [] }

instance : Inhabited Path :=
  ⟨single default⟩

def ofSteps? (steps : List PathStep) : Option Path :=
  if h : steps = [] then
    none
  else
    some { steps := steps, steps_ne_nil := h }

theorem ofSteps?_eq_none_iff (steps : List PathStep) : ofSteps? steps = none ↔ steps = [] := by
  unfold ofSteps?
  by_cases h : steps = []
  · simp [h]
  · simp [h]

theorem ofSteps?_steps (path : Path) : ofSteps? path.steps = some path := by
  unfold ofSteps?
  rw [dif_neg path.steps_ne_nil]

def property (name : QualifiedName) : Path :=
  single (.property name)

def association (name : QualifiedName) : Path :=
  single (.association name)

def manyAssociation (name : QualifiedName) : Path :=
  single (.manyAssociation name)

/-- The path that goes one step further. -/
def snoc (path : Path) (step : PathStep) : Path :=
  { steps := path.steps ++ [step]
    steps_ne_nil := List.append_ne_nil_of_right_ne_nil path.steps (List.cons_ne_nil step []) }

def thenProperty (path : Path) (name : QualifiedName) : Path :=
  path.snoc (.property name)

def thenAssociation (path : Path) (name : QualifiedName) : Path :=
  path.snoc (.association name)

def thenManyAssociation (path : Path) (name : QualifiedName) : Path :=
  path.snoc (.manyAssociation name)

def leaf (path : Path) : PathStep :=
  path.steps.getLast path.steps_ne_nil

/-!
# Written form

Steps are written one after the other. An association brings its own arrow; a
property is separated from the step that follows it by a dot.
-/

def stepsText : List PathStep → String
  | [] => ""
  | [step] => step.text
  | step :: next :: rest =>
      step.text ++ (if step.isAssociation then "" else ".") ++ stepsText (next :: rest)

def text (path : Path) : String :=
  stepsText path.steps

end Path

end SlotQuery
