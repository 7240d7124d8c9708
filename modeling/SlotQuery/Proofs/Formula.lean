import SlotQuery.Proofs.Evaluation
import SlotQuery.Proofs.Precedence
import SlotQuery.Proofs.Tables
import SlotQuery.Sql.Rendering

/-!
# Connectives in the text

A condition is written with AND, OR, NOT and brackets between tests that have no
connectives of their own. Read by the strength of the three, the text is a
formula over the same tests, and the brackets are enough for it to come to the
same truth.
-/

namespace SlotQuery

/-!
# Formulas
-/

/-- What stands between connectives: a condition without any, or a constant. -/
inductive Atom where
  | test (condition : Condition)
  | constant (b : Bool)

inductive Connective where
  | and
  | or
deriving DecidableEq, Repr

namespace Connective

def truth : Connective → Truth → Truth → Truth
  | and => Truth.and
  | or => Truth.or

/-- The truth of no operands at all. -/
def neutral : Connective → Truth
  | and => .yes
  | or => .no

theorem truth_assoc (connective : Connective) (first second third : Truth) :
    connective.truth (connective.truth first second) third =
      connective.truth first (connective.truth second third) := by
  cases connective <;> cases first <;> cases second <;> cases third <;> rfl

theorem truth_neutral (connective : Connective) (truth : Truth) :
    connective.truth truth connective.neutral = truth := by
  cases connective <;> cases truth <;> rfl

end Connective

inductive Formula where
  | atom (part : Atom)
  | joined (connective : Connective) (left right : Formula)
  | not (operand : Formula)

namespace Formula

def atoms : Formula → List Atom
  | atom part => [part]
  | joined _ left right => left.atoms ++ right.atoms
  | not operand => operand.atoms

/-- The truth under an assignment to the tests. -/
def truth (assigned : Condition → Truth) : Formula → Truth
  | atom (.test condition) => assigned condition
  | atom (.constant b) => .ofBool b
  | joined connective left right => connective.truth (left.truth assigned) (right.truth assigned)
  | not operand => (operand.truth assigned).not

/-- Operands of one connective, from the left. -/
def join (connective : Connective) : List Formula → Formula
  | [] => .atom (.constant (connective == .and))
  | first :: rest => rest.foldl (joined connective) first

theorem truth_join (assigned : Condition → Truth) (connective : Connective)
    (operands : List Formula) :
    (join connective operands).truth assigned =
      (operands.map (truth assigned)).foldr connective.truth connective.neutral := by
  have hfold : ∀ (rest : List Formula) (first : Formula),
      (rest.foldl (joined connective) first).truth assigned =
        connective.truth (first.truth assigned)
          ((rest.map (truth assigned)).foldr connective.truth connective.neutral) := by
    intro rest
    induction rest with
    | nil => exact fun first => (connective.truth_neutral _).symm
    | cons next later ih =>
        intro first
        rw [List.foldl_cons, ih, truth, connective.truth_assoc]
        rfl
  cases operands with
  | nil => cases connective <;> rfl
  | cons first rest => exact hfold rest first

theorem atoms_join {operands : List Formula} (h : operands ≠ []) (connective : Connective) :
    (join connective operands).atoms = operands.flatMap atoms := by
  have hfold : ∀ (rest : List Formula) (first : Formula),
      (rest.foldl (joined connective) first).atoms = first.atoms ++ rest.flatMap atoms := by
    intro rest
    induction rest with
    | nil => exact fun first => (List.append_nil _).symm
    | cons next later ih =>
        intro first
        rw [List.foldl_cons, ih, atoms, List.flatMap_cons, List.append_assoc]
  cases operands with
  | nil => exact absurd rfl h
  | cons first rest => exact hfold rest first

theorem atoms_ne_nil (formula : Formula) : formula.atoms ≠ [] := by
  induction formula with
  | atom part => exact List.cons_ne_nil _ _
  | joined connective left right ihleft _ =>
      exact List.append_ne_nil_of_left_ne_nil ihleft right.atoms
  | not operand ih => exact ih

end Formula

/-!
# Conditions as formulas

Constants stand for conjunctions and disjunctions of nothing, and for the
condition that never holds. Other conditions without connectives are tests.
-/

mutual

def Condition.atoms : Condition → List Atom
  | .and [] => [.constant true]
  | .or [] | .never => [.constant false]
  | .and items | .or items => allAtoms items
  | .not operand => Condition.atoms operand
  | condition => [.test condition]

def allAtoms : List Condition → List Atom
  | [] => []
  | item :: rest => Condition.atoms item ++ allAtoms rest

end

theorem allAtoms_eq (items : List Condition) : allAtoms items = items.flatMap Condition.atoms := by
  induction items with
  | nil => rfl
  | cons item rest ih => rw [allAtoms, ih, List.flatMap_cons]

mutual

/-- The truth of a condition whose tests are assigned a truth each. -/
def Condition.truthUnder (assigned : Condition → Truth) : Condition → Truth
  | .and items => allTruthUnder assigned items
  | .or items => anyTruthUnder assigned items
  | .not operand => (Condition.truthUnder assigned operand).not
  | .never => .no
  | condition => assigned condition

def allTruthUnder (assigned : Condition → Truth) : List Condition → Truth
  | [] => .yes
  | item :: rest => (Condition.truthUnder assigned item).and (allTruthUnder assigned rest)

def anyTruthUnder (assigned : Condition → Truth) : List Condition → Truth
  | [] => .no
  | item :: rest => (Condition.truthUnder assigned item).or (anyTruthUnder assigned rest)

end

section

variable {engine : Engine} (db : Database engine) (layout : Layout) (scope : Scope engine)

mutual

/-- A database assigns each test its truth in a scope. -/
theorem Condition.truthUnder_truth (condition : Condition) :
    condition.truthUnder (Condition.truth db layout scope) =
      Condition.truth db layout scope condition := by
  cases condition with
  | and items => exact allTruthUnder_truth items
  | or items => exact anyTruthUnder_truth items
  | not operand => exact congrArg Truth.not (Condition.truthUnder_truth operand)
  | compare _ _ _ | columnEq _ _ | isNull _ | isNotNull _ | regex _ _ | pathBelow _ _
  | pathEquals _ _ | inList _ _ | inQuery _ _ | never => rfl

theorem allTruthUnder_truth (items : List Condition) :
    allTruthUnder (Condition.truth db layout scope) items =
      Condition.allTruth db layout scope items := by
  cases items with
  | nil => rfl
  | cons item rest =>
      rw [allTruthUnder, Condition.truthUnder_truth item, allTruthUnder_truth rest,
        Condition.allTruth]

theorem anyTruthUnder_truth (items : List Condition) :
    anyTruthUnder (Condition.truth db layout scope) items =
      Condition.anyTruth db layout scope items := by
  cases items with
  | nil => rfl
  | cons item rest =>
      rw [anyTruthUnder, Condition.truthUnder_truth item, anyTruthUnder_truth rest,
        Condition.anyTruth]

end

end

mutual

def Condition.formula : Condition → Formula
  | .and items => .join .and (formulas items)
  | .or items => .join .or (formulas items)
  | .not operand => .not (Condition.formula operand)
  | .never => .atom (.constant false)
  | condition => .atom (.test condition)

def formulas : List Condition → List Formula
  | [] => []
  | item :: rest => Condition.formula item :: formulas rest

end

mutual

theorem Condition.formula_truth (assigned : Condition → Truth) (condition : Condition) :
    condition.formula.truth assigned = condition.truthUnder assigned := by
  cases condition with
  | and items =>
      rw [Condition.formula, Formula.truth_join]
      exact allTruthUnder_formulas assigned items
  | or items =>
      rw [Condition.formula, Formula.truth_join]
      exact anyTruthUnder_formulas assigned items
  | not operand => exact congrArg Truth.not (Condition.formula_truth assigned operand)
  | compare _ _ _ | columnEq _ _ | isNull _ | isNotNull _ | regex _ _ | pathBelow _ _
  | pathEquals _ _ | inList _ _ | inQuery _ _ | never => rfl

theorem allTruthUnder_formulas (assigned : Condition → Truth) (items : List Condition) :
    ((formulas items).map (Formula.truth assigned)).foldr Truth.and .yes =
      allTruthUnder assigned items := by
  cases items with
  | nil => rfl
  | cons item rest =>
      rw [formulas, List.map_cons, List.foldr_cons, Condition.formula_truth assigned item,
        allTruthUnder_formulas assigned rest, allTruthUnder]

theorem anyTruthUnder_formulas (assigned : Condition → Truth) (items : List Condition) :
    ((formulas items).map (Formula.truth assigned)).foldr Truth.or .no =
      anyTruthUnder assigned items := by
  cases items with
  | nil => rfl
  | cons item rest =>
      rw [formulas, List.map_cons, List.foldr_cons, Condition.formula_truth assigned item,
        anyTruthUnder_formulas assigned rest, anyTruthUnder]

end

mutual

theorem Condition.formula_atoms (condition : Condition) :
    condition.formula.atoms = condition.atoms := by
  cases condition with
  | and items | or items =>
      cases items with
      | nil => rfl
      | cons item rest =>
          rw [Condition.formula, Formula.atoms_join (by simp [formulas])]
          exact formulas_atoms (item :: rest)
  | not operand => exact Condition.formula_atoms operand
  | compare _ _ _ | columnEq _ _ | isNull _ | isNotNull _ | regex _ _ | pathBelow _ _
  | pathEquals _ _ | inList _ _ | inQuery _ _ | never => rfl

theorem formulas_atoms (items : List Condition) :
    (formulas items).flatMap Formula.atoms = allAtoms items := by
  cases items with
  | nil => rfl
  | cons item rest =>
      rw [formulas, List.flatMap_cons, Condition.formula_atoms item, formulas_atoms rest,
        allAtoms]

end

theorem Condition.atoms_ne_nil (condition : Condition) : condition.atoms ≠ [] := by
  rw [← condition.formula_atoms]
  exact condition.formula.atoms_ne_nil

end SlotQuery
