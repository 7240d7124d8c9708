import Mathlib.Data.List.Forall2
import SlotQuery.Sql.Fragment

/-!
# Operators between operands

Text with operators between its operands is read from left to right. Some
operators may bind tighter than the others; among those that bind alike the left
one comes first, and a run of one operator is put together as a whole. Modifiers
stand before a single operand and bind tightest of all.
-/

namespace SlotQuery

inductive Token (Operator Modifier Operand : Type) where
  | operand (operand : Operand)
  | operator (op : Operator)
  | modifier (modifier : Modifier)
  | opening
  | closing
deriving DecidableEq, Repr

namespace Token

variable {Operator Modifier Operand : Type}

/-- The parts with the operator between any two of them. -/
def between (op : Operator) : List (List (Token Operator Modifier Operand)) →
    List (Token Operator Modifier Operand)
  | [] => []
  | [part] => part
  | part :: next :: rest => part ++ .operator op :: between op (next :: rest)

theorem between_cons (op : Operator) (part : List (Token Operator Modifier Operand))
    {rest : List (List (Token Operator Modifier Operand))} (h : rest ≠ []) :
    between op (part :: rest) = part ++ .operator op :: between op rest := by
  cases rest with
  | nil => exact absurd rfl h
  | cons next later => rfl

/-- Groups of parts may be put together first. -/
theorem between_flatten (op : Operator)
    {groups : List (List (List (Token Operator Modifier Operand)))}
    (h : ∀ group ∈ groups, group ≠ []) :
    between op groups.flatten = between op (groups.map (between op)) := by
  have happend : ∀ first later : List (List (Token Operator Modifier Operand)), first ≠ [] →
      later ≠ [] → between op (first ++ later) =
        between op first ++ .operator op :: between op later := by
    intro first later hfirst hlater
    induction first with
    | nil => exact absurd rfl hfirst
    | cons part rest ih =>
        cases rest with
        | nil => exact between_cons op part hlater
        | cons next more =>
            rw [List.cons_append, between_cons op part (by simp), ih (by simp),
              between_cons op part (by simp), List.append_assoc, List.cons_append]
  induction groups with
  | nil => rfl
  | cons group rest ih =>
      have hrest := ih fun later hlater => h later (List.mem_cons_of_mem _ hlater)
      cases rest with
      | nil => rw [List.flatten_cons, List.flatten_nil, List.append_nil]; rfl
      | cons next more =>
          have hnext : (next :: more).flatten ≠ [] := by
            rw [List.flatten_cons]
            exact List.append_ne_nil_of_left_ne_nil (h next (by simp)) _
          rw [List.flatten_cons, happend group _ (h group List.mem_cons_self) hnext, hrest]
          rfl

/-- Parts are written with the text of the operator between them. -/
theorem flatMap_between {write : Token Operator Modifier Operand → Fragment} {op : Operator}
    {separator : String} (h : write (.operator op) = .ofText separator)
    (parts : List (List (Token Operator Modifier Operand))) :
    (between op parts).flatMap write =
      Fragment.joined separator (parts.map (List.flatMap write)) := by
  induction parts with
  | nil => rfl
  | cons part rest ih =>
      cases rest with
      | nil => rfl
      | cons next later =>
          rw [between, List.flatMap_append, List.flatMap_cons, h, ih]
          simp only [List.map_cons, Fragment.joined, List.append_assoc]

end Token

/-- How strongly operators bind, and what is built from what they join. -/
structure Grammar (Operator Modifier Operand Tree : Type) where
  bindsTighter : Operator → Bool
  leaf : Operand → Tree
  join : Operator → List Tree → Tree
  modify : Modifier → Tree → Tree

namespace Grammar

variable {Operator Modifier Operand Tree : Type} [DecidableEq Operator]
variable (grammar : Grammar Operator Modifier Operand Tree)

/-!
# Reading

Between two brackets there may be operands that wait for one more, first those
of a weaker operator and then those of a tighter one. What stands around an
opened bracket is kept until the bracket is closed.
-/

/-- The operands of a run that is not over, and its operator. -/
abbrev Run (Operator Tree : Type) :=
  Option (Operator × List Tree)

structure Level (Operator Modifier Tree : Type) where
  loose : Run Operator Tree
  tight : Run Operator Tree
  modifiers : List Modifier

def Level.empty : Level Operator Modifier Tree :=
  { loose := none, tight := none, modifiers := [] }

/-- The tree of a run with its last operand. -/
def close (run : Run Operator Tree) (last : Tree) : Tree :=
  match run with
  | some (op, operands) => grammar.join op (operands ++ [last])
  | none => last

/-- The run that goes on with the operator, or a new one after what there was. -/
def extend (run : Run Operator Tree) (last : Tree) (op : Operator) : Operator × List Tree :=
  match run with
  | some (op', operands) =>
      if op' = op then (op, operands ++ [last]) else (op, [grammar.join op' (operands ++ [last])])
  | none => (op, [last])

namespace Level

variable (level : Level Operator Modifier Tree) (last : Tree)

def closed : Tree :=
  grammar.close level.loose (grammar.close level.tight last)

def afterOperator (op : Operator) : Level Operator Modifier Tree :=
  if grammar.bindsTighter op then
    { level with tight := some (grammar.extend level.tight last op) }
  else
    { loose := some (grammar.extend level.loose (grammar.close level.tight last) op)
      tight := none
      modifiers := [] }

end Level

inductive State (Operator Modifier Tree : Type) where
  /-- An operand has to come next. -/
  | wanting (level : Level Operator Modifier Tree) (outer : List (Level Operator Modifier Tree))
  /-- An operand has just ended. -/
  | holding (level : Level Operator Modifier Tree) (last : Tree)
      (outer : List (Level Operator Modifier Tree))

/-- The operand that was wanted, under the modifiers before it. -/
def supply (level : Level Operator Modifier Tree) (tree : Tree)
    (outer : List (Level Operator Modifier Tree)) : State Operator Modifier Tree :=
  .holding { level with modifiers := [] } (level.modifiers.foldr grammar.modify tree) outer

def step : State Operator Modifier Tree → Token Operator Modifier Operand →
    Option (State Operator Modifier Tree)
  | .wanting level outer, .operand operand =>
      some (grammar.supply level (grammar.leaf operand) outer)
  | .wanting level outer, .modifier modifier =>
      some (.wanting { level with modifiers := level.modifiers ++ [modifier] } outer)
  | .wanting level outer, .opening => some (.wanting .empty (level :: outer))
  | .holding level last outer, .operator op =>
      some (.wanting (level.afterOperator grammar last op) outer)
  | .holding level last (around :: outer), .closing =>
      some (grammar.supply around (level.closed grammar last) outer)
  | _, _ => none

def run (state : State Operator Modifier Tree) (tokens : List (Token Operator Modifier Operand)) :
    Option (State Operator Modifier Tree) :=
  tokens.foldlM grammar.step state

def finish : State Operator Modifier Tree → Option Tree
  | .holding level last [] => some (level.closed grammar last)
  | _ => none

/-- The tree of a whole text, when it has one. -/
def read (tokens : List (Token Operator Modifier Operand)) : Option Tree :=
  (grammar.run (.wanting .empty []) tokens).bind grammar.finish

/-!
# Parts of a text

A part may stand wherever an operand may, or where no tighter operator is near,
or only between brackets.
-/

section

variable (tokens : List (Token Operator Modifier Operand)) (tree : Tree)

def IsOperand : Prop :=
  ∀ level outer, grammar.run (.wanting level outer) tokens =
    some (grammar.supply level tree outer)

/-- It is read as the tree after operands of a weaker operator, or after none. -/
def IsTerm : Prop :=
  ∀ loose outer, ∃ tight last,
    grammar.run (.wanting { loose := loose, tight := none, modifiers := [] } outer) tokens =
        some (.holding { loose := loose, tight := tight, modifiers := [] } last outer) ∧
      grammar.close tight last = tree

def IsText : Prop :=
  ∀ outer, ∃ level last,
    grammar.run (.wanting .empty outer) tokens = some (.holding level last outer) ∧
      level.closed grammar last = tree

end

section

variable {grammar}
variable {tokens later : List (Token Operator Modifier Operand)} {tree : Tree}

theorem run_append (state : State Operator Modifier Tree) :
    grammar.run state (tokens ++ later) =
      (grammar.run state tokens).bind fun middle => grammar.run middle later :=
  List.foldlM_append

theorem run_cons (state : State Operator Modifier Tree)
    (token : Token Operator Modifier Operand) :
    grammar.run state (token :: later) =
      (grammar.step state token).bind fun middle => grammar.run middle later :=
  List.foldlM_cons

theorem isOperand_singleton (operand : Operand) :
    grammar.IsOperand [.operand operand] (grammar.leaf operand) := by
  intro level outer
  rw [run_cons]
  rfl

theorem IsOperand.modified (h : grammar.IsOperand tokens tree) (modifier : Modifier) :
    grammar.IsOperand (.modifier modifier :: tokens) (grammar.modify modifier tree) := by
  intro level outer
  rw [run_cons]
  show grammar.run (.wanting { level with modifiers := level.modifiers ++ [modifier] } outer)
    tokens = _
  rw [h]
  simp only [supply, List.foldr_append, List.foldr_cons, List.foldr_nil]

theorem IsOperand.isTerm (h : grammar.IsOperand tokens tree) : grammar.IsTerm tokens tree := by
  intro loose outer
  exact ⟨none, tree, h _ _, rfl⟩

theorem IsTerm.isText (h : grammar.IsTerm tokens tree) : grammar.IsText tokens tree := by
  intro outer
  rcases h none outer with ⟨tight, last, hrun, htree⟩
  exact ⟨_, last, hrun, htree⟩

theorem IsText.bracketed (h : grammar.IsText tokens tree) :
    grammar.IsOperand (.opening :: tokens ++ [.closing]) tree := by
  intro level outer
  rcases h (level :: outer) with ⟨inner, last, hrun, htree⟩
  rw [List.cons_append, run_cons]
  show grammar.run (.wanting .empty (level :: outer)) (tokens ++ [.closing]) = _
  rw [run_append, hrun, Option.bind_some, run_cons, ← htree]
  rfl

theorem IsText.read_eq (h : grammar.IsText tokens tree) : grammar.read tokens = some tree := by
  rcases h [] with ⟨level, last, hrun, htree⟩
  rw [read, hrun, ← htree]
  rfl

/-!
# Runs of one operator

By induction on the parts, with the operands that have been read already as the
run that the next part is read after.
-/

variable {op : Operator} {parts : List (List (Token Operator Modifier Operand))}
variable {trees : List Tree}

/-- Operands of a tight operator are collected one by one, up to the last. -/
theorem run_between_tight (hop : grammar.bindsTighter op = true)
    (h : List.Forall₂ grammar.IsOperand parts trees) (hparts : parts ≠ [])
    (loose : Run Operator Tree) (before : List Tree)
    (outer : List (Level Operator Modifier Tree)) :
    ∃ operands last, before ++ trees = operands ++ [last] ∧
      grammar.run (.wanting { loose := loose, tight := some (op, before), modifiers := [] } outer)
          (Token.between op parts) =
        some (.holding { loose := loose, tight := some (op, operands), modifiers := [] } last
          outer) := by
  induction h generalizing before with
  | nil => exact absurd rfl hparts
  | @cons part tree rest trees hpart hrest ih =>
      cases hrest with
      | nil => exact ⟨before, tree, rfl, hpart _ _⟩
      | @cons next tree' later trees' hnext hlater =>
          rcases ih (List.cons_ne_nil _ _) (before ++ [tree]) with
            ⟨operands, last, htrees, hrun⟩
          refine ⟨operands, last, ?_, ?_⟩
          · rw [← htrees, List.append_assoc]
            rfl
          · rw [Token.between, run_append, hpart, Option.bind_some, run_cons, ← hrun]
            simp only [step, supply, List.foldr_nil, Option.bind_some, Level.afterOperator, hop,
              if_true, extend]

theorem isTerm_between (hop : grammar.bindsTighter op = true)
    (h : List.Forall₂ grammar.IsOperand parts trees) (hparts : 2 ≤ parts.length) :
    grammar.IsTerm (Token.between op parts) (grammar.join op trees) := by
  intro loose outer
  cases h with
  | nil => cases hparts
  | @cons part tree rest trees' hpart hrest =>
      have hne : rest ≠ [] := List.ne_nil_of_length_pos (Nat.lt_of_succ_lt_succ hparts)
      rcases run_between_tight hop hrest hne loose [tree] outer with ⟨operands, last, htrees, hrun⟩
      refine ⟨some (op, operands), last, ?_, ?_⟩
      · rw [Token.between_cons op part hne, run_append, hpart, Option.bind_some, run_cons, ← hrun]
        simp only [step, supply, List.foldr_nil, Option.bind_some, Level.afterOperator, hop,
          if_true, extend]
      · rw [close, ← htrees]
        rfl

/-- After each part its tighter operators are done with. -/
theorem run_between_loose (hop : grammar.bindsTighter op = false)
    (h : List.Forall₂ grammar.IsTerm parts trees) (hparts : parts ≠ []) (before : List Tree)
    (outer : List (Level Operator Modifier Tree)) :
    ∃ tight operands last, before ++ trees = operands ++ [grammar.close tight last] ∧
      grammar.run (.wanting { loose := some (op, before), tight := none, modifiers := [] } outer)
          (Token.between op parts) =
        some (.holding { loose := some (op, operands), tight := tight, modifiers := [] } last
          outer) := by
  induction h generalizing before with
  | nil => exact absurd rfl hparts
  | @cons part tree rest trees hpart hrest ih =>
      rcases hpart (some (op, before)) outer with ⟨tight, last, hrun, htree⟩
      cases hrest with
      | nil => exact ⟨tight, before, last, by rw [htree], hrun⟩
      | @cons next tree' later trees' hnext hlater =>
          rcases ih (List.cons_ne_nil _ _) (before ++ [tree]) with
            ⟨tight', operands, last', htrees, hrun'⟩
          refine ⟨tight', operands, last', ?_, ?_⟩
          · rw [← htrees, List.append_assoc]
            rfl
          · rw [Token.between, run_append, hrun, Option.bind_some, run_cons, ← hrun']
            simp only [step, Option.bind_some, Level.afterOperator, hop, Bool.false_eq_true,
              if_false, extend, if_true, htree]

theorem isText_between (hop : grammar.bindsTighter op = false)
    (h : List.Forall₂ grammar.IsTerm parts trees) (hparts : 2 ≤ parts.length) :
    grammar.IsText (Token.between op parts) (grammar.join op trees) := by
  intro outer
  cases h with
  | nil => cases hparts
  | @cons part tree rest trees' hpart hrest =>
      have hne : rest ≠ [] := List.ne_nil_of_length_pos (Nat.lt_of_succ_lt_succ hparts)
      rcases hpart none outer with ⟨tight, last, hrun, htree⟩
      rcases run_between_loose hop hrest hne [tree] outer with
        ⟨tight', operands, last', htrees, hrun'⟩
      refine ⟨{ loose := some (op, operands), tight := tight', modifiers := [] }, last', ?_, ?_⟩
      · rw [Token.between_cons op part hne, run_append, Level.empty, hrun, Option.bind_some,
          run_cons, ← hrun']
        simp only [step, Option.bind_some, Level.afterOperator, hop, Bool.false_eq_true,
          if_false, extend, htree]
      · rw [Level.closed, close, ← htrees]
        rfl

/-- Operands of one operator are put together, however strongly it binds. -/
theorem isText_between_operands (op : Operator)
    (h : List.Forall₂ grammar.IsOperand parts trees) (hparts : 2 ≤ parts.length) :
    grammar.IsText (Token.between op parts) (grammar.join op trees) := by
  cases hop : grammar.bindsTighter op with
  | false => exact isText_between hop (h.imp fun _ _ hpart => hpart.isTerm) hparts
  | true => exact (isTerm_between hop h hparts).isText

end

end Grammar

end SlotQuery
