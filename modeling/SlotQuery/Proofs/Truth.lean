/-!
# Three truth values

A test of a missing value is neither true nor false, so conditions have three
truth values. A row is kept only where its condition is true; the other two
values differ as soon as a condition is negated.
-/

namespace SlotQuery

inductive Truth where
  | yes
  | no
  | unknown
deriving DecidableEq, Repr, Inhabited

namespace Truth

def ofBool (b : Bool) : Truth :=
  if b then yes else no

/-- A test of a value that may be missing. -/
def ofTest {α : Type} (test : α → Bool) : Option α → Truth
  | some x => ofBool (test x)
  | none => unknown

def and : Truth → Truth → Truth
  | yes, right => right
  | no, _ => no
  | unknown, no => no
  | unknown, yes => unknown
  | unknown, unknown => unknown

def or : Truth → Truth → Truth
  | yes, _ => yes
  | no, right => right
  | unknown, yes => yes
  | unknown, no => unknown
  | unknown, unknown => unknown

def not : Truth → Truth
  | yes => no
  | no => yes
  | unknown => unknown

def isYes : Truth → Bool
  | yes => true
  | no => false
  | unknown => false

/-!
# What is true

Conjunctions and disjunctions can be read off which of their parts are true.
A negation cannot: a test and its negation are both not true where the value is
missing.
-/

@[simp] theorem isYes_ofBool (b : Bool) : (ofBool b).isYes = b := by
  cases b <;> rfl

@[simp] theorem isYes_and (left right : Truth) :
    (left.and right).isYes = (left.isYes && right.isYes) := by
  cases left <;> cases right <;> rfl

@[simp] theorem isYes_or (left right : Truth) :
    (left.or right).isYes = (left.isYes || right.isYes) := by
  cases left <;> cases right <;> rfl

@[simp] theorem and_yes (truth : Truth) : truth.and yes = truth := by
  cases truth <;> rfl

@[simp] theorem or_no (truth : Truth) : truth.or no = truth := by
  cases truth <;> rfl

theorem isYes_ofTest {α : Type} (test : α → Bool) (value : Option α) :
    (ofTest test value).isYes = value.any test := by
  cases value with
  | none => rfl
  | some x => simp [ofTest]

theorem isYes_not_ofTest {α : Type} (test : α → Bool) (value : Option α) :
    (ofTest test value).not.isYes = value.any (fun x => !test x) := by
  cases value with
  | none => rfl
  | some x =>
      cases h : test x <;> simp [ofTest, ofBool, h, not, isYes]

end Truth

end SlotQuery
