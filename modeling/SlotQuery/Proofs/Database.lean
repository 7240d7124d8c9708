import SlotQuery.Compile.Statement
import SlotQuery.Proofs.Truth

/-!
# Databases

A database is read the way statements refer to it: tables by name, rows as what
stands in each column. What a column holds is a cell, or nothing. Which cells
there are is left open; an engine says how they are ordered and how bound
values, numbers in the text and patterns meet them.
-/

namespace SlotQuery

/-- How a database compares what it stores. Cells that are ordered the same are equal. -/
structure Engine where
  Cell : Type
  order : Cell → Cell → Ordering
  lawful : Std.TransCmp order
  /-- The cell that a bound scalar is compared as. -/
  ofValue : Value → Cell
  ofTypeId : Int64 → Cell
  /-- The position that a cell of the position column stands for. -/
  position : Cell → CollectionPath
  /-- Whether a regular expression matches a cell. -/
  isMatch : String → Cell → Bool

attribute [instance] Engine.lawful

/-- What stands in each column, by name. -/
def Row (engine : Engine) : Type :=
  String → Option engine.Cell

/-- The row of an outer join that found nothing. -/
def Row.missing {engine : Engine} : Row engine :=
  fun _ => none

structure Database (engine : Engine) where
  rows : String → List (Row engine)

/-!
# Equality of cells

Two cells are equal when neither comes before the other. With a missing cell
the answer is not known.
-/

namespace Engine

variable {engine : Engine}

def same (engine : Engine) (left right : engine.Cell) : Bool :=
  engine.order left right == .eq

def equal (engine : Engine) (left right : Option engine.Cell) : Truth :=
  match left with
  | some left => .ofTest (engine.same left) right
  | none => .unknown

theorem same_refl (cell : engine.Cell) : engine.same cell cell = true := by
  simp [same, Std.ReflCmp.compare_self]

theorem same_symm {left right : engine.Cell} (h : engine.same left right = true) :
    engine.same right left = true := by
  simp only [same, beq_iff_eq] at h ⊢
  exact Std.OrientedCmp.eq_symm h

theorem same_trans {first second third : engine.Cell} (h : engine.same first second = true)
    (h' : engine.same second third = true) : engine.same first third = true := by
  simp only [same, beq_iff_eq] at h h' ⊢
  exact Std.TransCmp.eq_trans h h'

theorem equal_isYes_iff {left right : Option engine.Cell} :
    (engine.equal left right).isYes = true ↔
      ∃ a b, left = some a ∧ right = some b ∧ engine.same a b = true := by
  cases left with
  | none => simp [equal, Truth.isYes]
  | some a =>
      cases right with
      | none => simp [equal, Truth.ofTest, Truth.isYes]
      | some b => simp [equal, Truth.ofTest]

@[simp] theorem equal_none_right (left : Option engine.Cell) :
    (engine.equal left none).isYes = false := by
  cases left <;> rfl

theorem equal_symm {left right : Option engine.Cell}
    (h : (engine.equal left right).isYes = true) : (engine.equal right left).isYes = true := by
  rw [equal_isYes_iff] at h ⊢
  rcases h with ⟨a, b, ha, hb, hab⟩
  exact ⟨b, a, hb, ha, same_symm hab⟩

theorem equal_trans {first second third : Option engine.Cell}
    (h : (engine.equal first second).isYes = true)
    (h' : (engine.equal second third).isYes = true) :
    (engine.equal first third).isYes = true := by
  rw [equal_isYes_iff] at h h' ⊢
  rcases h with ⟨a, b, ha, hb, hab⟩
  rcases h' with ⟨b', c, hb', hc, hbc⟩
  cases hb.symm.trans hb'
  exact ⟨a, c, ha, hc, same_trans hab hbc⟩

/-- Equal cells are equal to the same cells. -/
theorem equal_congr_right {left right : Option engine.Cell} (cell : Option engine.Cell)
    (h : (engine.equal left right).isYes = true) :
    (engine.equal cell left).isYes = (engine.equal cell right).isYes := by
  rw [Bool.eq_iff_iff]
  constructor
  · intro hcell
    exact equal_trans hcell h
  · intro hcell
    exact equal_trans hcell (equal_symm h)

end Engine

/-!
# Comparison operators

Each operator accepts some of the three outcomes of an order, and its negation
accepts the others.
-/

namespace ComparisonOp

def accepts : ComparisonOp → Ordering → Bool
  | eq, outcome => outcome == .eq
  | ne, outcome => outcome != .eq
  | ge, outcome => outcome != .lt
  | gt, outcome => outcome == .gt
  | le, outcome => outcome != .gt
  | lt, outcome => outcome == .lt

theorem accepts_negated (op : ComparisonOp) (outcome : Ordering) :
    op.negated.accepts outcome = !op.accepts outcome := by
  cases op <;> cases outcome <;> rfl

end ComparisonOp

namespace Engine

def test (engine : Engine) (op : ComparisonOp) (value : Value) (cell : engine.Cell) : Bool :=
  op.accepts (engine.order cell (engine.ofValue value))

theorem test_negated (engine : Engine) (op : ComparisonOp) (value : Value) :
    engine.test op.negated value = fun cell => !engine.test op value cell := by
  funext cell
  exact op.accepts_negated _

end Engine

/-- Whether a position lies strictly below the one of the pattern. -/
def CollectionPathPattern.covers (pattern : CollectionPathPattern) (path : CollectionPath) : Bool :=
  pattern.above.segments.isPrefixOf path.segments &&
    decide (pattern.above.segments.length < path.segments.length)

/-!
# Counting distinct cells

A count of distinct cells counts what is left when each cell that is equal to
an earlier one is dropped. It reaches a number exactly when that many pairwise
different cells are there.
-/

namespace Engine

variable {engine : Engine}

def distinct (engine : Engine) : List engine.Cell → List engine.Cell
  | [] => []
  | cell :: rest => cell :: (engine.distinct rest).filter fun other => !engine.same cell other

def distinctCount (engine : Engine) (cells : List engine.Cell) : Nat :=
  (engine.distinct cells).length

/-- At least `n` pairwise different cells have the property. -/
def HasDistinct (engine : Engine) (n : Nat) (holds : engine.Cell → Prop) : Prop :=
  ∃ cells : List engine.Cell, cells.length = n ∧
    cells.Pairwise (fun left right => engine.same left right = false) ∧ ∀ cell ∈ cells, holds cell

theorem HasDistinct.mono {n : Nat} {holds holds' : engine.Cell → Prop}
    (h : engine.HasDistinct n holds) (himp : ∀ cell, holds cell → holds' cell) :
    engine.HasDistinct n holds' := by
  rcases h with ⟨cells, hlength, hpairwise, hall⟩
  exact ⟨cells, hlength, hpairwise, fun cell hcell => himp cell (hall cell hcell)⟩

theorem HasDistinct.exists {n : Nat} {holds : engine.Cell → Prop}
    (h : engine.HasDistinct n holds) (hpos : 0 < n) : ∃ cell, holds cell := by
  rcases h with ⟨cells, hlength, _, hall⟩
  cases cells with
  | nil => simp at hlength; omega
  | cons cell rest => exact ⟨cell, hall cell List.mem_cons_self⟩

theorem mem_of_mem_distinct {cells : List engine.Cell} {cell : engine.Cell}
    (h : cell ∈ engine.distinct cells) : cell ∈ cells := by
  induction cells with
  | nil => cases h
  | cons first rest ih =>
      simp only [distinct, List.mem_cons, List.mem_filter] at h ⊢
      cases h with
      | inl hfirst => exact Or.inl hfirst
      | inr hrest => exact Or.inr (ih hrest.left)

theorem distinct_pairwise (cells : List engine.Cell) :
    (engine.distinct cells).Pairwise (fun left right => engine.same left right = false) := by
  induction cells with
  | nil => exact List.Pairwise.nil
  | cons first rest ih =>
      apply List.Pairwise.cons
      · intro other hother
        simpa using (List.mem_filter.mp hother).right
      · exact ih.filter _

/-- Every cell is equal to one that is kept. -/
theorem exists_mem_distinct {cells : List engine.Cell} {cell : engine.Cell} (h : cell ∈ cells) :
    ∃ kept ∈ engine.distinct cells, engine.same kept cell = true := by
  induction cells with
  | nil => cases h
  | cons first rest ih =>
      by_cases hfirst : engine.same first cell = true
      · exact ⟨first, List.mem_cons_self, hfirst⟩
      · cases h with
        | head => exact absurd (same_refl cell) hfirst
        | tail _ htail =>
            rcases ih htail with ⟨kept, hkept, hsame⟩
            refine ⟨kept, ?_, hsame⟩
            apply List.mem_cons_of_mem
            apply List.mem_filter.mpr
            refine ⟨hkept, ?_⟩
            cases hcase : engine.same first kept with
            | false => rfl
            | true => exact absurd (same_trans hcase hsame) hfirst

/-!
Pairwise different cells that are each equal to one of a list are no more than
the list has: each takes an entry of its own.
-/

theorem length_le_of_covered {cells entries : List engine.Cell}
    (hpairwise : cells.Pairwise (fun left right => engine.same left right = false))
    (hcovered : ∀ cell ∈ cells, ∃ entry ∈ entries, engine.same cell entry = true) :
    cells.length ≤ entries.length := by
  induction cells generalizing entries with
  | nil => exact Nat.zero_le _
  | cons first rest ih =>
      rcases hcovered first List.mem_cons_self with ⟨entry, hentry, hsame⟩
      rcases List.append_of_mem hentry with ⟨before, after, hsplit⟩
      subst hsplit
      cases hpairwise with
      | cons hfirst hrest =>
          have hshorter : rest.length ≤ (before ++ after).length := by
            apply ih hrest
            intro cell hcell
            rcases hcovered cell (List.mem_cons_of_mem _ hcell) with ⟨other, hother, hsame'⟩
            refine ⟨other, ?_, hsame'⟩
            rcases List.mem_append.mp hother with hbefore | hafter
            · exact List.mem_append_left _ hbefore
            · cases hafter with
              | head =>
                  have hclash := same_trans hsame (same_symm hsame')
                  rw [hfirst cell hcell] at hclash
                  cases hclash
              | tail _ hlater => exact List.mem_append_right _ hlater
          simp only [List.length_cons, List.length_append] at hshorter ⊢
          omega

theorem HasDistinct.le_of_covered {n : Nat} {holds : engine.Cell → Prop}
    {entries : List engine.Cell} (h : engine.HasDistinct n holds)
    (hcovered : ∀ cell, holds cell → ∃ entry ∈ entries, engine.same cell entry = true) :
    n ≤ entries.length := by
  rcases h with ⟨cells, hlength, hpairwise, hall⟩
  rw [← hlength]
  exact length_le_of_covered hpairwise fun cell hcell => hcovered cell (hall cell hcell)

theorem le_distinctCount_iff (n : Nat) (cells : List engine.Cell) :
    n ≤ engine.distinctCount cells ↔ engine.HasDistinct n (fun cell => cell ∈ cells) := by
  constructor
  · intro h
    refine ⟨(engine.distinct cells).take n, ?_, ?_, ?_⟩
    · rw [List.length_take]
      exact Nat.min_eq_left h
    · exact (distinct_pairwise cells).sublist (List.take_sublist _ _)
    · intro cell hcell
      exact mem_of_mem_distinct (List.mem_of_mem_take hcell)
  · intro h
    apply h.le_of_covered
    intro cell hcell
    rcases exists_mem_distinct hcell with ⟨kept, hkept, hsame⟩
    exact ⟨kept, hkept, same_symm hsame⟩

end Engine

end SlotQuery
