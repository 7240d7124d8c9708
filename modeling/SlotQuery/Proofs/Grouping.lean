import SlotQuery.Proofs.Placeholders
import SlotQuery.Proofs.Precedence
import SlotQuery.Proofs.Sorting

/-!
# Grouping of set operations

Databases do not agree on how strongly INTERSECT binds. A compiled filter never
has two different operators between the same brackets, so its text is read the
same way by all of them.
-/

namespace SlotQuery

/-!
# The shape of filters

Operands of one operator are merged, and a difference is only ever taken from
all entities of the requested types.
-/

/-- The select returns keys of entities of the given types and is not cut or sorted. -/
structure Select.IsKeySelect (query : Select) (layout : Layout) (typeIds : List Int64) : Prop where
  projection : query.projection = .entityKey
  typeFilter : query.conditions.head? =
    some (.inList { qualifier := .types, name := layout.typeIdColumn } typeIds)
  orderBy : query.orderBy = []
  limit : query.limit = none
  offset : query.offset = none

inductive Filter.IsGrouped (layout : Layout) (typeIds : List Int64) : Filter → Prop where
  | select {query : Select} (h : query.IsKeySelect layout typeIds) :
      IsGrouped layout typeIds (.select query)
  | difference {query : Select} (h : query.IsKeySelect layout typeIds) :
      IsGrouped layout typeIds
        (.compound .except [.select (.ofTypes .entityKey layout typeIds), .select query])
  | compound {op : SetOp} {operands : List Filter} (hop : op ≠ .except)
      (hlength : 2 ≤ operands.length)
      (hinner : ∀ inner, .compound op inner ∉ operands)
      (h : ∀ operand ∈ operands, IsGrouped layout typeIds operand) :
      IsGrouped layout typeIds (.compound op operands)

namespace Filter

section

variable {layout : Layout} {typeIds : List Int64}

/-- What merging leaves of an operand is grouped and has another operator at its top. -/
theorem IsGrouped.operandsFor {op : SetOp} (hop : op ≠ .except) {operand : Filter}
    (h : operand.IsGrouped layout typeIds) :
    (∀ part ∈ operandsFor op operand, part.IsGrouped layout typeIds) ∧
      (∀ inner, .compound op inner ∉ operandsFor op operand) ∧
      1 ≤ (operandsFor op operand).length := by
  cases h with
  | @select query hselect => simpa [Filter.operandsFor] using IsGrouped.select hselect
  | @difference query hselect =>
      have hne : SetOp.except ≠ op := fun heq => hop heq.symm
      simpa [Filter.operandsFor, hne, hop] using IsGrouped.difference hselect
  | @compound op' operands hop' hlength hinner hoperands =>
      by_cases heq : op' = op
      · subst heq
        simp only [Filter.operandsFor, ne_eq, hop, not_false_eq_true, and_self, if_true]
        exact ⟨hoperands, hinner, by omega⟩
      · simpa [Filter.operandsFor, heq, Ne.symm heq] using
          IsGrouped.compound hop' hlength hinner hoperands

theorem IsGrouped.merged {op : SetOp} (hop : op ≠ .except) {operands : List Filter}
    (hlength : 2 ≤ operands.length)
    (h : ∀ operand ∈ operands, operand.IsGrouped layout typeIds) :
    (merged op operands).IsGrouped layout typeIds := by
  apply IsGrouped.compound hop
  · have hle : operands.length ≤ (operands.flatMap (Filter.operandsFor op)).length := by
      clear hlength
      induction operands with
      | nil => exact Nat.le_refl 0
      | cons operand rest ih =>
          have hone := ((h operand List.mem_cons_self).operandsFor hop).right.right
          have hrest := ih fun later hlater => h later (List.mem_cons_of_mem _ hlater)
          rw [List.flatMap_cons, List.length_append, List.length_cons]
          omega
    omega
  · intro inner hmem
    rcases List.mem_flatMap.mp hmem with ⟨operand, hoperand, hinner⟩
    exact ((h operand hoperand).operandsFor hop).right.left inner hinner
  · intro part hmem
    rcases List.mem_flatMap.mp hmem with ⟨operand, hoperand, hpart⟩
    exact ((h operand hoperand).operandsFor hop).left part hpart

end

end Filter

/-- Which set operators bind tighter than the others. -/
inductive SetConvention where
  | allAlike
  | intersectFirst
deriving DecidableEq, Repr

namespace SetConvention

def bindsTighter : SetConvention → SetOp → Bool
  | allAlike, _ => false
  | intersectFirst, op => op == .intersect

def grammar (convention : SetConvention) : Grammar SetOp Empty Select Filter where
  bindsTighter := convention.bindsTighter
  leaf := .select
  join := .compound
  modify := nofun

end SetConvention

abbrev SetToken :=
  Token SetOp Empty Select

def SetToken.render (spelling : Spelling) : SetToken → Fragment
  | .operand query => query.render spelling
  | .operator op => [.text (" " ++ op.keyword ++ " ")]
  | .opening =>
      let key := spelling.column
        { qualifier := .wrapped, name := spelling.layout.entityKeyColumn }
      [.text ("SELECT " ++ key ++ " FROM (")]
  | .closing => [.text (") AS " ++ Qualifier.wrapped.text)]

mutual

def Filter.tokens : Filter → List SetToken
  | .select query => [.operand query]
  | .compound op operands => Token.between op (operandsTokens operands)

def operandsTokens : List Filter → List (List SetToken)
  | [] => []
  | operand :: rest => operandTokens operand :: operandsTokens rest

def operandTokens : Filter → List SetToken
  | .select query => [.operand query]
  | .compound op operands =>
      .opening :: Token.between op (operandsTokens operands) ++ [.closing]

end

mutual

theorem renderOperands_tokens {spelling : Spelling}
    (h : spelling.dialect.setOperator = SetOp.keyword) (operands : List Filter) :
    (operandsTokens operands).map (List.flatMap (SetToken.render spelling)) =
      renderOperands spelling operands := by
  cases operands with
  | nil => rfl
  | cons operand rest =>
      rw [operandsTokens, List.map_cons, renderOperand_tokens h operand,
        renderOperands_tokens h rest, renderOperands]

theorem renderOperand_tokens {spelling : Spelling}
    (h : spelling.dialect.setOperator = SetOp.keyword) (operand : Filter) :
    (operandTokens operand).flatMap (SetToken.render spelling) =
      renderOperand spelling operand := by
  cases operand with
  | select query => exact List.append_nil _
  | compound op operands =>
      rw [operandTokens, List.cons_append, List.flatMap_cons, List.flatMap_append,
        Token.flatMap_between rfl, renderOperand, renderOperands_tokens h operands, h]
      rfl

end

theorem operandsTokens_eq (operands : List Filter) :
    operandsTokens operands = operands.map operandTokens := by
  induction operands with
  | nil => rfl
  | cons operand rest ih => rw [operandsTokens, ih, List.map_cons]

/-- A set operation with at least two operands between any two brackets is read as it stands. -/
theorem SetConvention.isText_compound {convention : SetConvention} (op : SetOp)
    {operands : List Filter} (hlength : 2 ≤ operands.length)
    (h : ∀ operand ∈ operands, convention.grammar.IsOperand (operandTokens operand) operand) :
    convention.grammar.IsText (Filter.compound op operands).tokens (.compound op operands) := by
  rw [Filter.tokens, operandsTokens_eq]
  apply Grammar.isText_between_operands op
  · rw [List.forall₂_map_left_iff, List.forall₂_same]
    exact h
  · rw [List.length_map]
    exact hlength

/-- By induction on the shape: the operands are selects, or stand between brackets. -/
theorem Filter.IsGrouped.reads {layout : Layout} {typeIds : List Int64} {filter : Filter}
    (h : filter.IsGrouped layout typeIds) (convention : SetConvention) :
    convention.grammar.IsText filter.tokens filter ∧
      convention.grammar.IsOperand (operandTokens filter) filter := by
  have hselect : ∀ query : Select,
      convention.grammar.IsOperand [.operand query] (.select query) :=
    fun query => Grammar.isOperand_singleton query
  induction h with
  | @select query _ => exact ⟨(hselect query).isTerm.isText, hselect query⟩
  | @difference query _ =>
      have hoperands : ∀ operand ∈
          [Filter.select (.ofTypes .entityKey layout typeIds), .select query],
          convention.grammar.IsOperand (operandTokens operand) operand := by
        simp [operandTokens, hselect]
      have htext := SetConvention.isText_compound .except (by simp) hoperands
      exact ⟨htext, htext.bracketed⟩
  | @compound op operands _ hlength _ _ ih =>
      have htext := SetConvention.isText_compound op hlength
        fun operand hoperand => (ih operand hoperand).right
      exact ⟨htext, htext.bracketed⟩

end SlotQuery
