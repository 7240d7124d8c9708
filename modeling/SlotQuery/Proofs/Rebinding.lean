import SlotQuery.Proofs.BoundValues

/-!
# Other values in the same query

A query with other values in place of the bound ones has the same text. Values
are replaced one by one; a bound regular expression stays one.
-/

namespace SlotQuery

/-- How bound values are replaced. -/
structure Rebinding where
  value : Value → Value
  pattern : String → String
  value_string : ∀ s : String, value (.string s) = .string (pattern s)

/-- Puts the empty text in place of every value. -/
def Rebinding.blank : Rebinding :=
  { value := fun _ => .string ""
    pattern := fun _ => ""
    value_string := fun _ => rfl }

/-!
# Queries
-/

mutual

def Condition.rebind (r : Rebinding) : Condition → Condition
  | .compare column op value => .compare column op (r.value value)
  | .regex column pattern => .regex column (r.pattern pattern)
  | .inQuery column query => .inQuery column (Filter.rebind r query)
  | .and items => .and (Condition.rebindAll r items)
  | .or items => .or (Condition.rebindAll r items)
  | .not operand => .not (Condition.rebind r operand)
  | .columnEq left right => .columnEq left right
  | .isNull column => .isNull column
  | .isNotNull column => .isNotNull column
  | .pathBelow column pattern => .pathBelow column pattern
  | .pathEquals column path => .pathEquals column path
  | .inList column ids => .inList column ids
  | .never => .never

def Condition.rebindAll (r : Rebinding) : List Condition → List Condition
  | [] => []
  | item :: rest => Condition.rebind r item :: Condition.rebindAll r rest

def Filter.rebind (r : Rebinding) : Filter → Filter
  | .select query => .select (Select.rebind r query)
  | .compound op operands => .compound op (Filter.rebindAll r operands)

def Filter.rebindAll (r : Rebinding) : List Filter → List Filter
  | [] => []
  | operand :: rest => Filter.rebind r operand :: Filter.rebindAll r rest

def Select.rebind (r : Rebinding) : Select → Select
  | { projection, joins, conditions, having, orderBy, limit, offset } =>
      { projection := projection
        joins := Join.rebindAll r joins
        conditions := Condition.rebindAll r conditions
        having := having
        orderBy := orderBy
        limit := limit
        offset := offset }

def Join.rebindAll (r : Rebinding) : List Join → List Join
  | [] => []
  | join :: rest => Join.rebind r join :: Join.rebindAll r rest

def Join.rebind (r : Rebinding) : Join → Join
  | { source, target, table, kind, conditions } =>
      { source := source
        target := target
        table := table
        kind := kind
        conditions := Condition.rebindAll r conditions }

end

section

variable (r : Rebinding)

theorem Condition.rebindAll_eq (items : List Condition) :
    Condition.rebindAll r items = items.map (Condition.rebind r) := by
  induction items with
  | nil => rfl
  | cons item rest ih => exact congrArg (List.cons (item.rebind r)) ih

theorem Filter.rebindAll_eq (operands : List Filter) :
    Filter.rebindAll r operands = operands.map (Filter.rebind r) := by
  induction operands with
  | nil => rfl
  | cons operand rest ih => exact congrArg (List.cons (operand.rebind r)) ih

theorem Join.rebindAll_eq (joins : List Join) :
    Join.rebindAll r joins = joins.map (Join.rebind r) := by
  induction joins with
  | nil => rfl
  | cons join rest ih => exact congrArg (List.cons (join.rebind r)) ih

theorem Select.rebind_eq (query : Select) :
    query.rebind r =
      { query with
        joins := query.joins.map (Join.rebind r)
        conditions := query.conditions.map (Condition.rebind r) } := by
  cases query with
  | mk projection joins conditions having orderBy limit offset =>
      rw [Select.rebind, Join.rebindAll_eq, Condition.rebindAll_eq]

theorem Condition.rebind_all (items : List Condition) :
    (Condition.all items).rebind r = Condition.all (items.map (Condition.rebind r)) := by
  cases items with
  | nil => rfl
  | cons first rest =>
      cases rest with
      | nil => rfl
      | cons next later => exact congrArg Condition.and (rebindAll_eq r (first :: next :: later))

theorem Condition.rebind_any (items : List Condition) :
    (Condition.any items).rebind r = Condition.any (items.map (Condition.rebind r)) := by
  cases items with
  | nil => rfl
  | cons first rest =>
      cases rest with
      | nil => rfl
      | cons next later => exact congrArg Condition.or (rebindAll_eq r (first :: next :: later))

theorem Filter.operandsFor_rebind (op : SetOp) (filter : Filter) :
    operandsFor op (filter.rebind r) = (operandsFor op filter).map (Filter.rebind r) := by
  cases filter with
  | select query => rfl
  | compound inner operands =>
      simp only [rebind, operandsFor]
      split
      · exact rebindAll_eq r operands
      · rfl

theorem Filter.merged_rebind (op : SetOp) (operands : List Filter) :
    merged op (operands.map (Filter.rebind r)) = (merged op operands).rebind r := by
  simp only [merged, rebind, rebindAll_eq, List.flatMap_map, List.map_flatMap, operandsFor_rebind]

end

/-!
# Fragments
-/

def Piece.rebind (r : Rebinding) : Piece → Piece
  | .text s => .text s
  | .bound value around => .bound (r.value value) around

namespace Fragment

def rebind (r : Rebinding) (fragment : Fragment) : Fragment :=
  fragment.map (Piece.rebind r)

variable {r : Rebinding}

theorem values_rebind (fragment : Fragment) :
    (fragment.rebind r).values = fragment.values.map r.value := by
  induction fragment with
  | nil => rfl
  | cons piece rest ih =>
      cases piece with
      | text s => exact ih
      | bound value around => exact congrArg (List.cons (r.value value)) ih

/-- The text is the same; only what is bound to its marks differs. -/
theorem sql_rebind (dialect : Dialect) (fragment : Fragment) {bindings others : Bindings}
    (h : bindings.index = others.index) :
    ((fragment.rebind r).write dialect bindings).fst = (fragment.write dialect others).fst := by
  induction fragment generalizing bindings others with
  | nil => rfl
  | cons piece rest ih =>
      cases piece with
      | text s => exact congrArg (s ++ ·) (ih h)
      | bound value around =>
          have hnext : (bindings.bind (r.value value)).index = (others.bind value).index :=
            congrArg (· + 1) h
          show around (dialect.placeholder _) ++ ((rebind r rest).write dialect _).fst =
            around (dialect.placeholder _) ++ (write dialect rest _).fst
          rw [hnext, ih hnext]

theorem rebind_append (first second : Fragment) :
    rebind r (first ++ second) = rebind r first ++ rebind r second :=
  List.map_append

theorem rebind_joined (separator : String) (fragments : List Fragment) :
    rebind r (joined separator fragments) = joined separator (fragments.map (rebind r)) := by
  induction fragments with
  | nil => rfl
  | cons fragment rest ih =>
      cases rest with
      | nil => rfl
      | cons next later =>
          rw [joined, rebind_append, rebind_append, ih]
          rfl

theorem rebind_between (before after : String) (fragment : Fragment) :
    rebind r (.text before :: (fragment ++ [.text after])) =
      .text before :: (rebind r fragment ++ [.text after]) :=
  congrArg (List.cons (Piece.text before)) (rebind_append fragment [.text after])

theorem rebind_bracketed (fragment : Fragment) :
    rebind r fragment.bracketed = (rebind r fragment).bracketed :=
  rebind_between "(" ")" fragment

theorem rebind_bracketedIf (needed : Bool) (fragment : Fragment) :
    rebind r (bracketedIf needed fragment) = bracketedIf needed (rebind r fragment) := by
  cases needed with
  | false => rfl
  | true => exact rebind_bracketed fragment

end Fragment

/-!
# Rendered queries

Brackets and words depend on the shape of a query alone, so replacing the values
first or last comes to the same. By induction on the query.
-/

section

open Fragment

variable (spelling : Spelling) (r : Rebinding)

theorem Condition.isConjunction_rebind (condition : Condition) :
    (condition.rebind r).isConjunction = condition.isConjunction := by
  cases condition <;> rfl

theorem Condition.isLongConjunction_rebind (condition : Condition) :
    (condition.rebind r).isLongConjunction = condition.isLongConjunction := by
  cases condition with
  | and items =>
      cases items with
      | nil => rfl
      | cons first rest => cases rest <;> rfl
  | compare column op value | columnEq left right | isNull column | isNotNull column
  | regex column pattern | pathBelow column pattern | pathEquals column path | inList column ids
  | inQuery column query | or items | not operand | never => rfl

mutual

theorem Condition.render_rebind (condition : Condition) :
    (condition.rebind r).render spelling = rebind r (condition.render spelling) := by
  cases condition with
  | regex column pattern =>
      rw [Condition.rebind, Condition.render, ← r.value_string]
      rfl
  | inQuery column query =>
      rw [Condition.rebind, Condition.render, Condition.render, rebind_between,
        Filter.render_rebind query]
  | and items =>
      cases items with
      | nil => rfl
      | cons item rest =>
          exact (congrArg (joined " AND ") (renderConjuncts_rebind (item :: rest))).trans
            (rebind_joined " AND " _).symm
  | or items =>
      cases items with
      | nil => rfl
      | cons item rest =>
          have hjoined := (congrArg (joined " OR ") (renderDisjuncts_rebind (item :: rest))).trans
            (rebind_joined " OR " _).symm
          exact (congrArg bracketed hjoined).trans (rebind_bracketed _).symm
  | not operand =>
      rw [Condition.rebind, Condition.render, Condition.render, rebind_between,
        Condition.render_rebind operand]
  | compare column op value | columnEq left right | isNull column | isNotNull column
  | pathBelow column pattern | pathEquals column path | inList column ids | never => rfl

theorem renderConjuncts_rebind (items : List Condition) :
    renderConjuncts spelling (Condition.rebindAll r items) =
      (renderConjuncts spelling items).map (rebind r) := by
  cases items with
  | nil => rfl
  | cons item rest =>
      rw [Condition.rebindAll, renderConjuncts, renderConjuncts, List.map_cons,
        Condition.isConjunction_rebind, Condition.render_rebind item, rebind_bracketedIf,
        renderConjuncts_rebind rest]

theorem renderDisjuncts_rebind (items : List Condition) :
    renderDisjuncts spelling (Condition.rebindAll r items) =
      (renderDisjuncts spelling items).map (rebind r) := by
  cases items with
  | nil => rfl
  | cons item rest =>
      rw [Condition.rebindAll, renderDisjuncts, renderDisjuncts, List.map_cons,
        Condition.isLongConjunction_rebind, Condition.render_rebind item, rebind_bracketedIf,
        renderDisjuncts_rebind rest]

theorem renderPlain_rebind (items : List Condition) :
    renderPlain spelling (Condition.rebindAll r items) =
      (renderPlain spelling items).map (rebind r) := by
  cases items with
  | nil => rfl
  | cons item rest =>
      rw [Condition.rebindAll, renderPlain, renderPlain, List.map_cons,
        Condition.render_rebind item, renderPlain_rebind rest]

theorem Filter.render_rebind (filter : Filter) :
    (filter.rebind r).render spelling = rebind r (filter.render spelling) := by
  cases filter with
  | select query => exact Select.render_rebind query
  | compound op operands =>
      rw [Filter.rebind, Filter.render, Filter.render, rebind_joined,
        renderOperands_rebind operands]

theorem renderOperands_rebind (operands : List Filter) :
    renderOperands spelling (Filter.rebindAll r operands) =
      (renderOperands spelling operands).map (rebind r) := by
  cases operands with
  | nil => rfl
  | cons operand rest =>
      rw [Filter.rebindAll, renderOperands, renderOperands, List.map_cons,
        renderOperand_rebind operand, renderOperands_rebind rest]

theorem renderOperand_rebind (operand : Filter) :
    renderOperand spelling (operand.rebind r) = rebind r (renderOperand spelling operand) := by
  cases operand with
  | select query => exact Select.render_rebind query
  | compound op operands =>
      rw [Filter.rebind, renderOperand, renderOperand, rebind_between, rebind_joined,
        renderOperands_rebind operands]

theorem Select.render_rebind (query : Select) :
    (query.rebind r).render spelling = rebind r (query.render spelling) := by
  cases query with
  | mk projection joins conditions having orderBy limit offset =>
      have hjoins := renderJoins_rebind joins
      cases conditions with
      | nil =>
          rw [Select.rebind, Select.render, Select.render, hjoins]
          simp [Condition.rebindAll, rebind, Piece.rebind]
      | cons condition rest =>
          have hconjuncts := renderConjuncts_rebind (condition :: rest)
          have hjoined := (congrArg (joined " AND ") hconjuncts).trans
            (rebind_joined " AND " _).symm
          rw [Select.rebind, Select.render, Select.render, hjoins, hjoined]
          simp [Condition.rebindAll, rebind, Piece.rebind]

theorem renderJoins_rebind (joins : List Join) :
    renderJoins spelling (Join.rebindAll r joins) = rebind r (renderJoins spelling joins) := by
  cases joins with
  | nil => rfl
  | cons join rest =>
      rw [Join.rebindAll, renderJoins, renderJoins, rebind_append, renderJoin_rebind join,
        renderJoins_rebind rest]

theorem renderJoin_rebind (join : Join) :
    renderJoin spelling (join.rebind r) = rebind r (renderJoin spelling join) := by
  cases join with
  | mk source target table kind conditions =>
      rw [Join.rebind, renderJoin, renderPlain_rebind conditions, ← rebind_joined]
      rfl

end

end

end SlotQuery
