import SlotQuery.Proofs.Outcomes

/-!
# Negation normal form

Negations can be pushed down to the leaves, and some leaves have an opposite
that needs no negation. The compiler rewrites nothing and takes a polarity along
instead. Both come to the same statement, or to the same error.
-/

namespace SlotQuery

namespace Predicate

/-- The leaf that holds where this one does not. -/
def opposite? : Predicate → Option Predicate
  | propertyNull path => some (propertyNotNull path)
  | propertyNotNull path => some (propertyNull path)
  | comparison .eq path .null => some (comparison .ne path .null)
  | comparison .ne path .null => some (comparison .eq path .null)
  | comparison .eq path (.composite fields) => some (comparison .ne path (.composite fields))
  | comparison .ne path (.composite fields) => some (comparison .eq path (.composite fields))
  | _ => none

mutual

/-- The predicate or its negation, with negations of leaves only. -/
def pushed (negated : Bool) : Predicate → Predicate
  | and children =>
      if negated then or (allPushed negated children) else and (allPushed negated children)
  | or children =>
      if negated then and (allPushed negated children) else or (allPushed negated children)
  | not operand => pushed (!negated) operand
  | leaf => if negated then not leaf else leaf

def allPushed (negated : Bool) : List Predicate → List Predicate
  | [] => []
  | child :: rest => pushed negated child :: allPushed negated rest

end

mutual

/-- The predicate with opposites in the place of negated leaves. -/
def replaced : Predicate → Predicate
  | and children => and (allReplaced children)
  | or children => or (allReplaced children)
  | not operand => operand.opposite?.getD (not (replaced operand))
  | leaf => leaf

def allReplaced : List Predicate → List Predicate
  | [] => []
  | child :: rest => replaced child :: allReplaced rest

end

def negationNormal (predicate : Predicate) : Predicate :=
  (predicate.pushed false).replaced

/-!
# Normal predicates

A normal predicate has negations of leaves only, and only of those without an
opposite.
-/

def isLeaf : Predicate → Bool
  | and _ | or _ | not _ => false
  | _ => true

inductive IsNegationNormal : Predicate → Prop where
  | and {children : List Predicate} (h : ∀ child ∈ children, IsNegationNormal child) :
      IsNegationNormal (and children)
  | or {children : List Predicate} (h : ∀ child ∈ children, IsNegationNormal child) :
      IsNegationNormal (or children)
  | leaf {leaf : Predicate} (h : leaf.isLeaf = true) : IsNegationNormal leaf
  | notLeaf {leaf : Predicate} (h : leaf.isLeaf = true) (hopposite : leaf.opposite? = none) :
      IsNegationNormal (not leaf)

theorem isLeaf_of_opposite? {leaf opposite : Predicate} (h : leaf.opposite? = some opposite) :
    opposite.isLeaf = true := by
  unfold opposite? at h
  split at h <;> cases h <;> rfl

theorem replaced_of_isLeaf {leaf : Predicate} (h : leaf.isLeaf = true) : leaf.replaced = leaf := by
  cases leaf with
  | and children | or children | not operand => cases h
  | _ => rfl

theorem pushed_of_isLeaf {leaf : Predicate} (h : leaf.isLeaf = true) (negated : Bool) :
    leaf.pushed negated = if negated then .not leaf else leaf := by
  cases leaf with
  | and children | or children | not operand => cases h
  | _ => rfl

theorem isNegationNormal_leaf {leaf : Predicate} (h : leaf.isLeaf = true) (negated : Bool) :
    (leaf.pushed negated).replaced.IsNegationNormal := by
  rw [pushed_of_isLeaf h]
  cases negated with
  | false =>
      rw [if_neg Bool.false_ne_true, replaced_of_isLeaf h]
      exact .leaf h
  | true =>
      rw [if_pos rfl, replaced, replaced_of_isLeaf h]
      cases hopposite : leaf.opposite? with
      | none => exact .notLeaf h hopposite
      | some opposite => exact .leaf (isLeaf_of_opposite? hopposite)

mutual

theorem pushed_isNegationNormal (negated : Bool) (predicate : Predicate) :
    (predicate.pushed negated).replaced.IsNegationNormal := by
  cases predicate with
  | and children =>
      cases negated with
      | false => exact .and (allPushed_isNegationNormal false children)
      | true => exact .or (allPushed_isNegationNormal true children)
  | or children =>
      cases negated with
      | false => exact .or (allPushed_isNegationNormal false children)
      | true => exact .and (allPushed_isNegationNormal true children)
  | not operand => exact pushed_isNegationNormal (!negated) operand
  | _ => exact isNegationNormal_leaf rfl negated

theorem allPushed_isNegationNormal (negated : Bool) (children : List Predicate) :
    ∀ child ∈ allReplaced (allPushed negated children), child.IsNegationNormal := by
  cases children with
  | nil =>
      intro child hchild
      cases hchild
  | cons child rest =>
      rw [allPushed, allReplaced, List.forall_mem_cons]
      exact ⟨pushed_isNegationNormal negated child, allPushed_isNegationNormal negated rest⟩

end

end Predicate

/-!
# Polarities

By induction on the predicate, for both polarities at once.
-/

section

variable {ctx : Context}

theorem compileNullTest_not (path : Path) (negated : Bool) :
    compileNullTest ctx path .isNull (!negated) = compileNullTest ctx path .isNotNull negated ∧
      compileNullTest ctx path .isNotNull (!negated) =
        compileNullTest ctx path .isNull negated := by
  cases negated <;> exact ⟨rfl, rfl⟩

theorem compileCompositeComparison_not (path : Path) (value : Value) (negated : Bool) :
    compileCompositeComparison ctx .eq path value (!negated) =
        compileCompositeComparison ctx .ne path value negated ∧
      compileCompositeComparison ctx .ne path value (!negated) =
        compileCompositeComparison ctx .eq path value negated := by
  cases negated <;> exact ⟨rfl, rfl⟩

/-- An opposite compiles in each polarity like its leaf in the other one. -/
theorem compilePredicate_opposite {leaf opposite : Predicate}
    (h : leaf.opposite? = some opposite) (negated : Bool) :
    compilePredicate ctx negated opposite = compilePredicate ctx (!negated) leaf := by
  unfold Predicate.opposite? at h
  split at h
  · cases h
    exact (compileNullTest_not _ negated).left.symm
  · cases h
    exact (compileNullTest_not _ negated).right.symm
  · cases h
    exact (compileNullTest_not _ negated).left.symm
  · cases h
    exact (compileNullTest_not _ negated).right.symm
  · cases h
    exact (compileCompositeComparison_not _ _ negated).left.symm
  · cases h
    exact (compileCompositeComparison_not _ _ negated).right.symm
  · cases h

mutual

theorem compilePredicate_replaced (negated : Bool) (predicate : Predicate) :
    compilePredicate ctx negated predicate.replaced = compilePredicate ctx negated predicate := by
  cases predicate with
  | and children | or children =>
      rw [Predicate.replaced, compilePredicate, compilePredicate, compileChildren_replaced]
  | not operand =>
      rw [Predicate.replaced]
      cases hopposite : operand.opposite? with
      | none => exact compilePredicate_replaced (!negated) operand
      | some opposite => exact compilePredicate_opposite hopposite negated
  | _ => rfl

theorem compileChildren_replaced (negated : Bool) (children : List Predicate) :
    compileChildren ctx negated (Predicate.allReplaced children) =
      compileChildren ctx negated children := by
  cases children with
  | nil => rfl
  | cons child rest =>
      rw [Predicate.allReplaced, compileChildren, compileChildren, compilePredicate_replaced,
        compileChildren_replaced]

end

mutual

theorem compilePredicate_pushed (negated : Bool) (predicate : Predicate) :
    compilePredicate ctx false (predicate.pushed negated) =
      compilePredicate ctx negated predicate := by
  cases predicate with
  | and children | or children =>
      cases negated <;> simp [Predicate.pushed, compilePredicate, compileChildren_pushed]
  | not operand => exact compilePredicate_pushed (!negated) operand
  | _ => cases negated <;> rfl

theorem compileChildren_pushed (negated : Bool) (children : List Predicate) :
    compileChildren ctx false (Predicate.allPushed negated children) =
      compileChildren ctx negated children := by
  cases children with
  | nil => rfl
  | cons child rest =>
      rw [Predicate.allPushed, compileChildren, compileChildren, compilePredicate_pushed,
        compileChildren_pushed]

end

theorem compilePredicate_negationNormal (predicate : Predicate) :
    compilePredicate ctx false predicate.negationNormal = compilePredicate ctx false predicate :=
  (compilePredicate_replaced false _).trans (compilePredicate_pushed false predicate)

end

/-- A predicate may be replaced by its negation normal form, which is normal. -/
theorem compile_negationNormal (compiler : Compiler) (request : Request) (predicate : Predicate) :
    compiler.compile (request.filter predicate.negationNormal) =
        compiler.compile (request.filter predicate) ∧
      predicate.negationNormal.IsNegationNormal :=
  ⟨compiler.compile_filter_congr (fun _ => compilePredicate_negationNormal predicate) request,
    predicate.pushed_isNegationNormal false⟩

example (path : Path) (regex : String) :
    (Predicate.not (.and [.propertyNull path, .not (.or []), .isMatch path regex])).negationNormal =
      .or [.propertyNotNull path, .or [], .not (.isMatch path regex)] :=
  rfl

end SlotQuery
