import SlotQuery.Proofs.Formula

/-!
# Brackets around connectives

A condition is written so that its text reads as the condition again. The
conditions of a join are written without brackets, which regroups nothing but
conjunctions within the conjunction.
-/

namespace SlotQuery

/-!
# Fragments that are written alike

Two texts one after the other are written like one.
-/

namespace Fragment

def SameText (dialect : Dialect) (fragment fragment' : Fragment) : Prop :=
  ∀ bindings : Bindings, fragment.write dialect bindings = fragment'.write dialect bindings

theorem write_append (dialect : Dialect) (first second : Fragment) (bindings : Bindings) :
    (first ++ second).write dialect bindings =
      ((first.write dialect bindings).fst ++
          (second.write dialect (first.write dialect bindings).snd).fst,
        (second.write dialect (first.write dialect bindings).snd).snd) := by
  induction first generalizing bindings with
  | nil => simp [write]
  | cons piece rest ih =>
      cases piece with
      | text s => simp only [List.cons_append, write, ih, String.append_assoc]
      | bound value around => simp only [List.cons_append, write, ih, String.append_assoc]

namespace SameText

variable {dialect : Dialect} {first first' second second' : Fragment}

theorem refl (fragment : Fragment) : SameText dialect fragment fragment :=
  fun _ => rfl

theorem trans {third : Fragment} (h : SameText dialect first second)
    (h' : SameText dialect second third) : SameText dialect first third :=
  fun bindings => (h bindings).trans (h' bindings)

theorem append (h : SameText dialect first first') (h' : SameText dialect second second') :
    SameText dialect (first ++ second) (first' ++ second') := by
  intro bindings
  rw [write_append, write_append, h bindings, h' _]

theorem bracketed (h : SameText dialect first first') :
    SameText dialect first.bracketed first'.bracketed :=
  ((refl (ofText "(")).append h).append (refl (ofText ")"))

theorem joined {separator : String} {fragments fragments' : List Fragment}
    (h : List.Forall₂ (SameText dialect) fragments fragments') :
    SameText dialect (Fragment.joined separator fragments)
      (Fragment.joined separator fragments') := by
  induction h with
  | nil => exact refl []
  | cons hfirst hrest ih =>
      cases hrest with
      | nil => exact hfirst
      | cons hnext hlater => exact (hfirst.append (refl (ofText separator))).append ih

theorem texts (s s' : String) (rest : Fragment) :
    SameText dialect (.text s :: .text s' :: rest) (.text (s ++ s') :: rest) := by
  intro bindings
  simp only [write, String.append_assoc]

end SameText

end Fragment

/-!
# Tokens of conditions
-/

abbrev ConditionToken :=
  Token Connective Unit Atom

/-- NOT binds tighter than AND, which binds tighter than OR. -/
def conditionGrammar : Grammar Connective Unit Atom Formula where
  bindsTighter := fun connective => connective == .and
  leaf := .atom
  join := .join
  modify := fun _ => .not

def Connective.separator : Connective → String
  | and => " AND "
  | or => " OR "

def Atom.render (spelling : Spelling) : Atom → Fragment
  | test condition => condition.render spelling
  | constant b => [.text (spelling.bool b)]

def ConditionToken.render (spelling : Spelling) : ConditionToken → Fragment
  | .operand atom => atom.render spelling
  | .operator connective => .ofText connective.separator
  | .modifier () => .ofText "NOT "
  | .opening => .ofText "("
  | .closing => .ofText ")"

def ConditionToken.bracketed (tokens : List ConditionToken) : List ConditionToken :=
  .opening :: tokens ++ [.closing]

def ConditionToken.bracketedIf (needed : Bool) (tokens : List ConditionToken) :
    List ConditionToken :=
  if needed then bracketed tokens else tokens

mutual

def Condition.tokens : Condition → List ConditionToken
  | .and [] => [.operand (.constant true)]
  | .and items => Token.between .and (conjunctTokens items)
  | .or [] | .never => [.operand (.constant false)]
  | .or items => ConditionToken.bracketed (Token.between .or (disjunctTokens items))
  | .not operand => .modifier () :: ConditionToken.bracketed (Condition.tokens operand)
  | condition => [.operand (.test condition)]

def conjunctTokens : List Condition → List (List ConditionToken)
  | [] => []
  | item :: rest =>
      ConditionToken.bracketedIf item.isConjunction (Condition.tokens item) ::
        conjunctTokens rest

def disjunctTokens : List Condition → List (List ConditionToken)
  | [] => []
  | item :: rest =>
      ConditionToken.bracketedIf item.isLongConjunction (Condition.tokens item) ::
        disjunctTokens rest

end

section

open Fragment (SameText)

variable (spelling : Spelling)

/-- The fragments of tokens that stand for the fragments that are rendered. -/
def ConditionToken.Spell (parts : List (List ConditionToken)) (fragments : List Fragment) : Prop :=
  List.Forall₂ (SameText spelling.dialect) (parts.map (List.flatMap (render spelling))) fragments

theorem ConditionToken.bracketed_sameText {tokens : List ConditionToken} {fragment : Fragment}
    (h : SameText spelling.dialect (tokens.flatMap (render spelling)) fragment) :
    SameText spelling.dialect ((bracketed tokens).flatMap (render spelling))
      fragment.bracketed := by
  rw [bracketed, List.cons_append, List.flatMap_cons, List.flatMap_append, List.flatMap_singleton,
    ← List.append_assoc]
  exact h.bracketed

theorem ConditionToken.bracketedIf_sameText {tokens : List ConditionToken} {fragment : Fragment}
    (h : SameText spelling.dialect (tokens.flatMap (render spelling)) fragment) (needed : Bool) :
    SameText spelling.dialect ((bracketedIf needed tokens).flatMap (render spelling))
      (SlotQuery.bracketedIf needed fragment) := by
  cases needed with
  | false => exact h
  | true => exact bracketed_sameText spelling h

theorem ConditionToken.between_sameText {connective : Connective}
    {parts : List (List ConditionToken)} {fragments : List Fragment}
    (h : Spell spelling parts fragments) :
    SameText spelling.dialect ((Token.between connective parts).flatMap (render spelling))
      (Fragment.joined connective.separator fragments) := by
  have hoperator : render spelling (.operator connective) = .ofText connective.separator := rfl
  rw [Token.flatMap_between hoperator]
  exact SameText.joined h

mutual

theorem Condition.tokens_sameText (condition : Condition) :
    SameText spelling.dialect (condition.tokens.flatMap (ConditionToken.render spelling))
      (condition.render spelling) := by
  cases condition with
  | and items =>
      cases items with
      | nil => exact SameText.refl _
      | cons item rest =>
          exact ConditionToken.between_sameText spelling (conjunctTokens_spell (item :: rest))
  | or items =>
      cases items with
      | nil => exact SameText.refl _
      | cons item rest =>
          apply ConditionToken.bracketed_sameText
          exact ConditionToken.between_sameText spelling (disjunctTokens_spell (item :: rest))
  | not operand =>
      have hoperand := ConditionToken.bracketed_sameText spelling
        (Condition.tokens_sameText operand)
      exact ((SameText.refl (Fragment.ofText "NOT ")).append hoperand).trans
        (SameText.texts "NOT " "(" _)
  | never => exact SameText.refl _
  | compare _ _ _ | columnEq _ _ | isNull _ | isNotNull _ | regex _ _ | pathBelow _ _
  | pathEquals _ _ | inList _ _ | inQuery _ _ =>
      show SameText _ (_ ++ []) _
      rw [List.append_nil]
      exact SameText.refl _

theorem conjunctTokens_spell (items : List Condition) :
    ConditionToken.Spell spelling (conjunctTokens items) (renderConjuncts spelling items) := by
  cases items with
  | nil => exact List.Forall₂.nil
  | cons item rest =>
      exact List.Forall₂.cons
        (ConditionToken.bracketedIf_sameText spelling (Condition.tokens_sameText item) _)
        (conjunctTokens_spell rest)

theorem disjunctTokens_spell (items : List Condition) :
    ConditionToken.Spell spelling (disjunctTokens items) (renderDisjuncts spelling items) := by
  cases items with
  | nil => exact List.Forall₂.nil
  | cons item rest =>
      exact List.Forall₂.cons
        (ConditionToken.bracketedIf_sameText spelling (Condition.tokens_sameText item) _)
        (disjunctTokens_spell rest)

end

theorem plainTokens_spell (items : List Condition) :
    ConditionToken.Spell spelling (items.map Condition.tokens) (renderPlain spelling items) := by
  induction items with
  | nil => exact List.Forall₂.nil
  | cons item rest ih => exact List.Forall₂.cons (item.tokens_sameText spelling) ih

end

/-!
# Reading conditions

By induction on the condition. What is not a long conjunction is an operand,
since a disjunction is bracketed everywhere and a negation has its own brackets.
-/

theorem ConditionToken.isOperand_bracketed {tokens : List ConditionToken} {formula : Formula}
    (h : conditionGrammar.IsTerm tokens formula) :
    conditionGrammar.IsOperand (bracketed tokens) formula :=
  h.isText.bracketed

theorem ConditionToken.isTerm_conjunction {parts : List (List ConditionToken)}
    {operands : List Formula} (h : List.Forall₂ conditionGrammar.IsOperand parts operands)
    (hparts : parts ≠ []) :
    conditionGrammar.IsTerm (Token.between .and parts) (.join .and operands) := by
  cases h with
  | nil => exact absurd rfl hparts
  | cons hfirst hrest =>
      cases hrest with
      | nil => exact hfirst.isTerm
      | cons hnext hlater =>
          exact Grammar.isTerm_between rfl (.cons hfirst (.cons hnext hlater)) (by simp)

theorem ConditionToken.isText_disjunction {parts : List (List ConditionToken)}
    {operands : List Formula} (h : List.Forall₂ conditionGrammar.IsTerm parts operands)
    (hparts : parts ≠ []) :
    conditionGrammar.IsText (Token.between .or parts) (.join .or operands) := by
  cases h with
  | nil => exact absurd rfl hparts
  | cons hfirst hrest =>
      cases hrest with
      | nil => exact hfirst.isText
      | cons hnext hlater =>
          exact Grammar.isText_between rfl (.cons hfirst (.cons hnext hlater)) (by simp)

example (a b c : Atom) :
    conditionGrammar.read
        [.operand a, .operator .or, .operand b, .operator .and, .operand c] =
      some (.joined .or (.atom a) (.joined .and (.atom b) (.atom c))) :=
  rfl

/-- A condition may stand where no tighter operator is near, and mostly anywhere. -/
structure Condition.Reads (condition : Condition) : Prop where
  isTerm : conditionGrammar.IsTerm condition.tokens condition.formula
  isOperand : condition.isLongConjunction = false →
    conditionGrammar.IsOperand condition.tokens condition.formula

theorem Condition.Reads.ofOperand {condition : Condition}
    (h : conditionGrammar.IsOperand condition.tokens condition.formula) : condition.Reads where
  isTerm := h.isTerm
  isOperand := fun _ => h

theorem Condition.isLongConjunction_of_not_isConjunction {condition : Condition}
    (h : condition.isConjunction = false) : condition.isLongConjunction = false := by
  cases condition with
  | and items => cases h
  | compare _ _ _ | columnEq _ _ | isNull _ | isNotNull _ | regex _ _ | pathBelow _ _
  | pathEquals _ _ | inList _ _ | inQuery _ _ | or _ | not _ | never => rfl

mutual

theorem Condition.reads (condition : Condition) : condition.Reads := by
  cases condition with
  | and items =>
      match items with
      | [] => exact .ofOperand (Grammar.isOperand_singleton (Atom.constant true))
      | [item] =>
          cases conjunctTokens_reads [item] with
          | cons hitem _ => exact .ofOperand hitem
      | first :: second :: rest =>
          refine ⟨?_, fun hshort => by cases hshort⟩
          exact ConditionToken.isTerm_conjunction (conjunctTokens_reads (first :: second :: rest))
            (List.cons_ne_nil _ _)
  | or items =>
      cases items with
      | nil => exact .ofOperand (Grammar.isOperand_singleton (Atom.constant false))
      | cons item rest =>
          exact .ofOperand (ConditionToken.isText_disjunction
            (disjunctTokens_reads (item :: rest)) (List.cons_ne_nil _ _)).bracketed
  | not operand =>
      have hoperand := ConditionToken.isOperand_bracketed (Condition.reads operand).isTerm
      exact .ofOperand (hoperand.modified ())
  | never => exact .ofOperand (Grammar.isOperand_singleton (Atom.constant false))
  | compare _ _ _ | columnEq _ _ | isNull _ | isNotNull _ | regex _ _ | pathBelow _ _
  | pathEquals _ _ | inList _ _ | inQuery _ _ =>
      exact .ofOperand (Grammar.isOperand_singleton (Atom.test _))

theorem conjunctTokens_reads (items : List Condition) :
    List.Forall₂ conditionGrammar.IsOperand (conjunctTokens items) (formulas items) := by
  cases items with
  | nil => exact List.Forall₂.nil
  | cons item rest =>
      refine List.Forall₂.cons ?_ (conjunctTokens_reads rest)
      have hitem := Condition.reads item
      cases hconjunction : item.isConjunction with
      | false => exact hitem.isOperand (item.isLongConjunction_of_not_isConjunction hconjunction)
      | true => exact ConditionToken.isOperand_bracketed hitem.isTerm

theorem disjunctTokens_reads (items : List Condition) :
    List.Forall₂ conditionGrammar.IsTerm (disjunctTokens items) (formulas items) := by
  cases items with
  | nil => exact List.Forall₂.nil
  | cons item rest =>
      refine List.Forall₂.cons ?_ (disjunctTokens_reads rest)
      have hitem := Condition.reads item
      cases item.isLongConjunction with
      | false => exact hitem.isTerm
      | true => exact (ConditionToken.isOperand_bracketed hitem.isTerm).isTerm

end

/-!
# Conditions of a join

A long conjunction among the conditions of a join is not bracketed, so its items
become items of the whole conjunction.
-/

/-- The operands that a condition without brackets brings into a conjunction. -/
def Condition.spreadTokens : Condition → List (List ConditionToken)
  | .and (first :: second :: rest) => conjunctTokens (first :: second :: rest)
  | condition => [condition.tokens]

def Condition.spreadFormulas : Condition → List Formula
  | .and (first :: second :: rest) => formulas (first :: second :: rest)
  | condition => [condition.formula]

/-- Whether a condition is a conjunction of several items, which it brings in one by one. -/
theorem Condition.spread_cases (condition : Condition) :
    (∃ first second rest, condition = .and (first :: second :: rest)) ∨
      condition.isLongConjunction = false ∧ condition.spreadTokens = [condition.tokens] ∧
        condition.spreadFormulas = [condition.formula] := by
  cases condition with
  | and items =>
      match items with
      | [] | [item] => exact Or.inr ⟨rfl, rfl, rfl⟩
      | first :: second :: rest => exact Or.inl ⟨first, second, rest, rfl⟩
  | compare _ _ _ | columnEq _ _ | isNull _ | isNotNull _ | regex _ _ | pathBelow _ _
  | pathEquals _ _ | inList _ _ | inQuery _ _ | or _ | not _ | never =>
      exact Or.inr ⟨rfl, rfl, rfl⟩

theorem Condition.between_spreadTokens (condition : Condition) :
    condition.spreadTokens ≠ [] ∧ Token.between .and condition.spreadTokens = condition.tokens := by
  rcases condition.spread_cases with ⟨first, second, rest, rfl⟩ | ⟨_, htokens, _⟩
  · exact ⟨List.cons_ne_nil _ _, rfl⟩
  · rw [htokens]
    exact ⟨List.cons_ne_nil _ _, rfl⟩

theorem Condition.spread_reads (condition : Condition) :
    List.Forall₂ conditionGrammar.IsOperand condition.spreadTokens condition.spreadFormulas := by
  rcases condition.spread_cases with ⟨first, second, rest, rfl⟩ | ⟨hshort, htokens, hformulas⟩
  · exact conjunctTokens_reads (first :: second :: rest)
  · rw [htokens, hformulas]
    exact List.Forall₂.cons (condition.reads.isOperand hshort) List.Forall₂.nil

theorem Condition.spreadFormulas_atoms (condition : Condition) :
    condition.spreadFormulas.flatMap Formula.atoms = condition.atoms := by
  rcases condition.spread_cases with ⟨first, second, rest, rfl⟩ | ⟨_, _, hformulas⟩
  · exact formulas_atoms (first :: second :: rest)
  · rw [hformulas, List.flatMap_singleton, condition.formula_atoms]

theorem Condition.spreadFormulas_truth (assigned : Condition → Truth) (condition : Condition)
    (later : Truth) :
    (condition.spreadFormulas.map (Formula.truth assigned)).foldr Truth.and later =
      (condition.truthUnder assigned).and later := by
  have hfold : ∀ truths : List Truth,
      truths.foldr Truth.and later = (truths.foldr Truth.and .yes).and later := by
    intro truths
    induction truths with
    | nil => rfl
    | cons truth rest ih =>
        rw [List.foldr_cons, ih]
        exact (Connective.and.truth_assoc _ _ _).symm
  rcases condition.spread_cases with ⟨first, second, rest, rfl⟩ | ⟨_, _, hformulas⟩
  · rw [hfold]
    exact congrArg (Truth.and · later) (allTruthUnder_formulas assigned (first :: second :: rest))
  · rw [hformulas, List.map_singleton, List.foldr_cons, List.foldr_nil, condition.formula_truth]

theorem plain_reads {items : List Condition} (h : items ≠ []) :
    conditionGrammar.IsTerm (Token.between .and (items.map Condition.tokens))
      (.join .and (items.flatMap Condition.spreadFormulas)) := by
  have htokens : Token.between .and (items.map Condition.tokens) =
      Token.between .and (items.flatMap Condition.spreadTokens) := by
    rw [List.flatMap_def, Token.between_flatten, List.map_map]
    · congr 2
      funext item
      exact item.between_spreadTokens.right.symm
    · intro group hgroup
      rcases List.mem_map.mp hgroup with ⟨item, _, rfl⟩
      exact item.between_spreadTokens.left
  rw [htokens]
  apply ConditionToken.isTerm_conjunction
  · apply List.rel_flatMap (List.forall₂_same.mpr fun _ _ => rfl)
    intro item item' hitem
    subst hitem
    exact item.spread_reads
  · cases items with
    | nil => exact absurd rfl h
    | cons item rest =>
        rw [List.flatMap_cons]
        exact List.append_ne_nil_of_left_ne_nil item.between_spreadTokens.left _

theorem plain_atoms {items : List Condition} (h : items ≠ []) :
    (Formula.join .and (items.flatMap Condition.spreadFormulas)).atoms = allAtoms items := by
  have hne : items.flatMap Condition.spreadFormulas ≠ [] := by
    rcases List.exists_mem_of_ne_nil items h with ⟨item, hitem⟩
    intro hnil
    have hnone := item.spreadFormulas_atoms
    rw [List.flatMap_eq_nil_iff.mp hnil item hitem] at hnone
    exact item.atoms_ne_nil hnone.symm
  rw [Formula.atoms_join hne, List.flatMap_assoc, allAtoms_eq]
  simp only [Condition.spreadFormulas_atoms]

theorem plain_truth (assigned : Condition → Truth) (items : List Condition) :
    (Formula.join .and (items.flatMap Condition.spreadFormulas)).truth assigned =
      allTruthUnder assigned items := by
  rw [Formula.truth_join]
  show (((items.flatMap Condition.spreadFormulas).map (Formula.truth assigned)).foldr
    Truth.and .yes) = _
  induction items with
  | nil => rfl
  | cons item rest ih =>
      rw [List.flatMap_cons, List.map_append, List.foldr_append, ih, item.spreadFormulas_truth,
        allTruthUnder]

/-!
# Texts of conditions
-/

/-- The text has one reading, over the atoms of the condition and with its truth. -/
def Fragment.ReadsAs (text : Fragment) (spelling : Spelling) (condition : Condition) : Prop :=
  ∃ (tokens : List ConditionToken) (formula : Formula),
    SameText spelling.dialect (tokens.flatMap (ConditionToken.render spelling)) text ∧
      conditionGrammar.read tokens = some formula ∧ formula.atoms = condition.atoms ∧
      ∀ assigned : Condition → Truth, formula.truth assigned = condition.truthUnder assigned

theorem Condition.render_readsAs (spelling : Spelling) (condition : Condition) :
    (condition.render spelling).ReadsAs spelling condition :=
  ⟨condition.tokens, condition.formula, condition.tokens_sameText spelling,
    condition.reads.isTerm.isText.read_eq, condition.formula_atoms,
    fun assigned => condition.formula_truth assigned⟩

theorem renderPlain_readsAs (spelling : Spelling) {items : List Condition} (h : items ≠ []) :
    (Fragment.joined " AND " (renderPlain spelling items)).ReadsAs spelling (.and items) := by
  refine ⟨_, _, ?_, (plain_reads h).isText.read_eq, ?_, fun assigned => plain_truth assigned items⟩
  · exact ConditionToken.between_sameText spelling (plainTokens_spell spelling items)
  · rw [plain_atoms h]
    cases items with
    | nil => exact absurd rfl h
    | cons item rest => rfl

theorem renderConjuncts_readsAs (spelling : Spelling) {items : List Condition} (h : items ≠ []) :
    (Fragment.joined " AND " (renderConjuncts spelling items)).ReadsAs spelling (.and items) := by
  cases items with
  | nil => exact absurd rfl h
  | cons first rest => exact Condition.render_readsAs spelling (.and (first :: rest))

/-- The conditions of a select stand after WHERE, and without any there is no WHERE. -/
theorem Select.render_eq (spelling : Spelling) (query : Select) :
    query.render spelling =
      .text (projectionText spelling query.projection ++ sourceText spelling) ::
        (renderJoins spelling query.joins ++
          (if query.conditions = [] then
            []
          else
            .text " WHERE " :: Fragment.joined " AND " (renderConjuncts spelling query.conditions)) ++
          [.text (havingText spelling query.having ++ orderText spelling query.orderBy ++
            spelling.dialect.limitOffset query.limit query.offset)]) := by
  cases query with
  | mk projection joins conditions having orderBy limit offset =>
      cases conditions with
      | nil => rfl
      | cons first rest => rfl

/-- Conditions, the list after WHERE and the list after ON are read with the truth they have, the
last of them as long as there is something in it. -/
theorem connectives_readAs (spelling : Spelling) :
    (∀ condition : Condition, (condition.render spelling).ReadsAs spelling condition) ∧
      (∀ query : Select, query.conditions ≠ [] →
        (∃ before after : Fragment, query.render spelling = before ++ .text " WHERE " ::
          (Fragment.joined " AND " (renderConjuncts spelling query.conditions) ++ after)) ∧
        (Fragment.joined " AND " (renderConjuncts spelling query.conditions)).ReadsAs spelling
          (.and query.conditions)) ∧
      ∀ join : Join, join.conditions ≠ [] →
        (∃ before : String, renderJoin spelling join = .text (before ++ " ON ") ::
          Fragment.joined " AND " (renderPlain spelling join.conditions)) ∧
        (Fragment.joined " AND " (renderPlain spelling join.conditions)).ReadsAs spelling
          (.and join.conditions) := by
  refine ⟨fun condition => condition.render_readsAs spelling, ?_, ?_⟩
  · intro query hconditions
    refine ⟨?_, renderConjuncts_readsAs spelling hconditions⟩
    rw [query.render_eq, if_neg hconditions, List.append_assoc, List.cons_append,
      ← List.cons_append]
    exact ⟨_, _, rfl⟩
  · intro join hconditions
    refine ⟨?_, renderPlain_readsAs spelling hconditions⟩
    cases join with
    | mk source target table kind conditions => exact ⟨_, rfl⟩

/-- The type filter of a select, and the two equations of a join from within a row. -/
theorem typed_select_and_nested_join_readAs :
    let spelling : Spelling := { dialect := .mysql, layout := .standard }
    let query := Select.ofTypes .entityKey .standard [1]
    let join : Join :=
      { source := { index := 1 }, target := { index := 2 }, table := "cities", kind := .left
        conditions := slotJoinConditions .standard (.row { index := 1 }) { index := 2 } }
    (query.conditions.length = 1 ∧
        (Fragment.joined " AND " (renderConjuncts spelling query.conditions)).ReadsAs spelling
          (.and query.conditions)) ∧
      join.conditions.length = 2 ∧
        (Fragment.joined " AND " (renderPlain spelling join.conditions)).ReadsAs spelling
          (.and join.conditions) := by
  intro spelling query join
  rcases connectives_readAs spelling with ⟨_, hselects, hjoins⟩
  exact ⟨⟨rfl, (hselects query (List.cons_ne_nil _ _)).right⟩, rfl,
    (hjoins join (List.cons_ne_nil _ _)).right⟩

/-- Tokens that are written as nothing at all are tests and constants. -/
theorem ConditionToken.eq_operand_of_empty {spelling : Spelling} {token : ConditionToken}
    {later : Fragment} {bindings : Bindings}
    (h : ((token.render spelling ++ later).write spelling.dialect bindings).fst = "") :
    (∃ atom, token = .operand atom) ∧
      ((token.render spelling).write spelling.dialect bindings).fst = "" ∧
      ∃ bindings', (later.write spelling.dialect bindings').fst = "" := by
  rw [Fragment.write_append, String.append_eq_empty_iff] at h
  refine ⟨?_, h.left, ⟨_, h.right⟩⟩
  have hwritten := h.left
  cases token with
  | operand atom => exact ⟨atom, rfl⟩
  | operator connective =>
      cases connective <;>
        simp [render, Connective.separator, Fragment.ofText, Fragment.write] at hwritten
  | modifier modifier => simp [render, Fragment.ofText, Fragment.write] at hwritten
  | opening => simp [render, Fragment.ofText, Fragment.write] at hwritten
  | closing => simp [render, Fragment.ofText, Fragment.write] at hwritten

/-- Nothing is written after ON when the list is empty, and no formula is read from nothing. -/
theorem empty_on_list_is_not_read :
    let spelling : Spelling := { dialect := .sqlite, layout := .standard }
    let join : Join :=
      { source := .root, target := { index := 1 }, table := "names", kind := .inner
        conditions := [] }
    renderJoin spelling join = [.text " JOIN names t1 ON "] ∧
      ¬ (Fragment.joined " AND " (renderPlain spelling join.conditions)).ReadsAs spelling
        (.and join.conditions) := by
  refine ⟨?_, ?_⟩
  · rfl
  · intro h
    rcases h with ⟨tokens, formula, htext, hread, hatoms, _⟩
    cases tokens with
    | nil => cases hread
    | cons first rest =>
        have hempty := congrArg Prod.fst (htext .empty)
        rw [List.flatMap_cons] at hempty
        rcases ConditionToken.eq_operand_of_empty hempty with
          ⟨⟨atom, rfl⟩, hfirst, ⟨bindings, hrest⟩⟩
        cases rest with
        | nil =>
            -- A single atom would have to be the constant, which is written as a number.
            cases hread
            cases hatoms
            simp [ConditionToken.render, Atom.render, Spelling.bool, Dialect.sqlite,
              Dialect.numberedBool, Fragment.write] at hfirst
        | cons second later =>
            rw [List.flatMap_cons] at hrest
            rcases ConditionToken.eq_operand_of_empty hrest with ⟨⟨atom', rfl⟩, _⟩
            cases hread

end SlotQuery
