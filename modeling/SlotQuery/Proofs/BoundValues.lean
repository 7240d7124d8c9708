import SlotQuery.Sql.Rendering

/-!
# Bound values

Every comparison and every regular expression in a query binds one value. In the
text of a select the conditions of its joins come first, then its own, and the
parts of each condition follow from left to right. Rendering keeps to this order
and binds nothing twice.
-/

namespace SlotQuery

/-!
# Values of a query
-/

mutual

def Condition.boundValues : Condition → List Value
  | .compare _ _ value => [value]
  | .regex _ pattern => [.string pattern]
  | .inQuery _ query => Filter.boundValues query
  | .and items | .or items => Condition.allBoundValues items
  | .not operand => Condition.boundValues operand
  | .columnEq _ _ | .isNull _ | .isNotNull _ | .pathBelow _ _ | .pathEquals _ _ | .inList _ _
  | .never => []

def Condition.allBoundValues : List Condition → List Value
  | [] => []
  | item :: rest => Condition.boundValues item ++ Condition.allBoundValues rest

def Filter.boundValues : Filter → List Value
  | .select query => Select.boundValues query
  | .compound _ operands => Filter.allBoundValues operands

def Filter.allBoundValues : List Filter → List Value
  | [] => []
  | operand :: rest => Filter.boundValues operand ++ Filter.allBoundValues rest

def Select.boundValues : Select → List Value
  | { joins, conditions, .. } =>
      Join.allBoundValues joins ++ Condition.allBoundValues conditions

def Join.allBoundValues : List Join → List Value
  | [] => []
  | join :: rest => Join.boundValues join ++ Join.allBoundValues rest

def Join.boundValues : Join → List Value
  | { conditions, .. } => Condition.allBoundValues conditions

end

theorem Condition.allBoundValues_eq (items : List Condition) :
    Condition.allBoundValues items = items.flatMap Condition.boundValues := by
  induction items with
  | nil => rfl
  | cons item rest ih => exact congrArg (item.boundValues ++ ·) ih

theorem Filter.allBoundValues_eq (operands : List Filter) :
    Filter.allBoundValues operands = operands.flatMap Filter.boundValues := by
  induction operands with
  | nil => rfl
  | cons operand rest ih => exact congrArg (operand.boundValues ++ ·) ih

theorem Join.allBoundValues_eq (joins : List Join) :
    Join.allBoundValues joins = joins.flatMap Join.boundValues := by
  induction joins with
  | nil => rfl
  | cons join rest ih => exact congrArg (join.boundValues ++ ·) ih

theorem Select.boundValues_eq (query : Select) :
    query.boundValues =
      query.joins.flatMap Join.boundValues ++ query.conditions.flatMap Condition.boundValues := by
  rw [← Join.allBoundValues_eq, ← Condition.allBoundValues_eq]
  cases query
  rfl

/-!
# Fragments that bind

What is written around a mark is nothing, or it is the test against a regular
expression.
-/

namespace Fragment

/-- The fragment binds these values in this order. -/
inductive Binds (dialect : Dialect) : Fragment → List Value → Prop where
  | nil : Binds dialect [] []
  | text {rest : Fragment} {values : List Value} (s : String) (h : Binds dialect rest values) :
      Binds dialect (.text s :: rest) values
  | value {rest : Fragment} {values : List Value} (value : Value)
      (h : Binds dialect rest values) : Binds dialect (.bound value id :: rest) (value :: values)
  | pattern {rest : Fragment} {values : List Value} (value : Value) (column : String)
      (h : Binds dialect rest values) :
      Binds dialect (.bound value (dialect.regexMatch column) :: rest) (value :: values)

namespace Binds

variable {dialect : Dialect} {first second : Fragment} {values others : List Value}

theorem single (s : String) : Binds dialect [.text s] [] :=
  text s nil

theorem append (h : Binds dialect first values) (h' : Binds dialect second others) :
    Binds dialect (first ++ second) (values ++ others) := by
  induction h with
  | nil => exact h'
  | text s _ ih => exact text s ih
  | value v _ ih => exact value v ih
  | pattern v column _ ih => exact pattern v column ih

/-- A text that follows binds nothing. -/
theorem followedBy (h : Binds dialect first values) (s : String) :
    Binds dialect (first ++ [.text s]) values := by
  have happend := h.append (single s)
  rw [List.append_nil] at happend
  exact happend

theorem bracketed (h : Binds dialect first values) : Binds dialect first.bracketed values :=
  (text "(" h).followedBy ")"

theorem bracketedIf (h : Binds dialect first values) (needed : Bool) :
    Binds dialect (bracketedIf needed first) values := by
  unfold SlotQuery.bracketedIf
  cases needed with
  | false => exact h
  | true => exact h.bracketed

theorem joined_cons {fragments : List Fragment} (h : Binds dialect first values)
    {separator : String} (hrest : Binds dialect (joined separator fragments) others) :
    Binds dialect (joined separator (first :: fragments)) (values ++ others) := by
  cases fragments with
  | nil =>
      cases hrest
      rw [List.append_nil]
      exact h
  | cons next later => exact (h.followedBy separator).append hrest

theorem values_eq (h : Binds dialect first values) : first.values = values := by
  induction h with
  | nil => rfl
  | text s _ ih => exact ih
  | value v _ ih => exact congrArg (List.cons v) ih
  | pattern v column _ ih => exact congrArg (List.cons v) ih

end Binds

end Fragment

/-- The values bound one after the other. -/
def Bindings.bindAll (bindings : Bindings) (values : List Value) : Bindings :=
  { index := bindings.index + values.length
    values := bindings.values ++ values
    types := bindings.types ++ values.map Value.boundType }

theorem Fragment.bindings_write (dialect : Dialect) (fragment : Fragment) (bindings : Bindings) :
    (fragment.write dialect bindings).snd = bindings.bindAll fragment.values := by
  induction fragment generalizing bindings with
  | nil => simp [write, values, Bindings.bindAll]
  | cons piece rest ih =>
      cases piece with
      | text s => exact ih bindings
      | bound value around =>
          show (write dialect rest (bindings.bind value)).snd = _
          rw [ih]
          simp [values, Bindings.bindAll, Bindings.bind, Nat.add_assoc, Nat.add_comm 1]

/-!
# Rendered queries

By induction on the query, one lemma for each way in which its parts are
rendered.
-/

section

open Fragment

variable (spelling : Spelling)

mutual

theorem Condition.render_binds (condition : Condition) :
    Binds spelling.dialect (condition.render spelling) condition.boundValues := by
  cases condition with
  | compare column op value => exact .text _ (.value value .nil)
  | regex column pattern => exact .pattern (.string pattern) _ .nil
  | inQuery column query => exact .text _ ((Filter.render_binds query).followedBy ")")
  | and items =>
      cases items with
      | nil => exact .single _
      | cons item rest => exact renderConjuncts_binds " AND " (item :: rest)
  | or items =>
      cases items with
      | nil => exact .single _
      | cons item rest => exact (renderDisjuncts_binds " OR " (item :: rest)).bracketed
  | not operand => exact .text _ ((Condition.render_binds operand).followedBy ")")
  | columnEq left right => exact .single _
  | isNull column | isNotNull column | pathBelow column pattern | pathEquals column path
  | inList column ids | never => exact .single _

theorem renderConjuncts_binds (separator : String) (items : List Condition) :
    Binds spelling.dialect (joined separator (renderConjuncts spelling items))
      (Condition.allBoundValues items) := by
  cases items with
  | nil => exact .nil
  | cons item rest =>
      exact ((Condition.render_binds item).bracketedIf _).joined_cons
        (renderConjuncts_binds separator rest)

theorem renderDisjuncts_binds (separator : String) (items : List Condition) :
    Binds spelling.dialect (joined separator (renderDisjuncts spelling items))
      (Condition.allBoundValues items) := by
  cases items with
  | nil => exact .nil
  | cons item rest =>
      exact ((Condition.render_binds item).bracketedIf _).joined_cons
        (renderDisjuncts_binds separator rest)

theorem renderPlain_binds (separator : String) (items : List Condition) :
    Binds spelling.dialect (joined separator (renderPlain spelling items))
      (Condition.allBoundValues items) := by
  cases items with
  | nil => exact .nil
  | cons item rest =>
      exact (Condition.render_binds item).joined_cons (renderPlain_binds separator rest)

theorem Filter.render_binds (filter : Filter) :
    Binds spelling.dialect (filter.render spelling) filter.boundValues := by
  cases filter with
  | select query => exact Select.render_binds query
  | compound op operands => exact renderOperands_binds _ operands

theorem renderOperands_binds (separator : String) (operands : List Filter) :
    Binds spelling.dialect (joined separator (renderOperands spelling operands))
      (Filter.allBoundValues operands) := by
  cases operands with
  | nil => exact .nil
  | cons operand rest =>
      exact (renderOperand_binds operand).joined_cons (renderOperands_binds separator rest)

theorem renderOperand_binds (operand : Filter) :
    Binds spelling.dialect (renderOperand spelling operand) operand.boundValues := by
  cases operand with
  | select query => exact Select.render_binds query
  | compound op operands => exact .text _ ((renderOperands_binds _ operands).followedBy _)

theorem Select.render_binds (query : Select) :
    Binds spelling.dialect (query.render spelling) query.boundValues := by
  cases query with
  | mk projection joins conditions having orderBy limit offset =>
      refine .text _ ((Binds.append ?_ ?_).followedBy _)
      · exact renderJoins_binds joins
      · cases conditions with
        | nil => exact .nil
        | cons condition rest => exact .text _ (renderConjuncts_binds " AND " (condition :: rest))

theorem renderJoins_binds (joins : List Join) :
    Binds spelling.dialect (renderJoins spelling joins) (Join.allBoundValues joins) := by
  cases joins with
  | nil => exact .nil
  | cons join rest => exact (renderJoin_binds join).append (renderJoins_binds rest)

theorem renderJoin_binds (join : Join) :
    Binds spelling.dialect (renderJoin spelling join) join.boundValues := by
  cases join with
  | mk source target table kind conditions =>
      exact .text _ (renderPlain_binds " AND " conditions)

end

end

end SlotQuery
