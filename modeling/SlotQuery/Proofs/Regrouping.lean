import SlotQuery.Proofs.Outcomes
import SlotQuery.Proofs.Parameters

/-!
# Regrouping

How the operands of a conjunction or of a disjunction are grouped makes no
difference to a statement. Groups with the combinator of what surrounds them
leave no trace, because their operands are merged into it, and a group of one
operand is that operand.
-/

namespace SlotQuery

inductive Combinator where
  | and
  | or
deriving DecidableEq, Repr

namespace Combinator

def combined : Combinator → List Predicate → Predicate
  | and, children => .and children
  | or, children => .or children

/-- Negation exchanges the two set operations. -/
def setOp (negated : Bool) : Combinator → SetOp
  | and => if negated then .union else .intersect
  | or => if negated then .intersect else .union

theorem setOp_ne_except (negated : Bool) (combinator : Combinator) :
    combinator.setOp negated ≠ .except := by
  cases combinator <;> cases negated <;> decide

end Combinator

/-- Predicates in groups within groups. No group is empty. -/
inductive Nesting where
  | one (predicate : Predicate)
  | group (first : Nesting) (rest : List Nesting)

namespace Nesting

mutual

/-- The predicates from left to right. -/
def members : Nesting → List Predicate
  | one predicate => [predicate]
  | group first rest => members first ++ allMembers rest

def allMembers : List Nesting → List Predicate
  | [] => []
  | nesting :: rest => members nesting ++ allMembers rest

end

mutual

def predicate (combinator : Combinator) : Nesting → Predicate
  | one predicate => predicate
  | group first rest =>
      combinator.combined (predicate combinator first :: predicates combinator rest)

def predicates (combinator : Combinator) : List Nesting → List Predicate
  | [] => []
  | nesting :: rest => predicate combinator nesting :: predicates combinator rest

end

theorem members_ne_nil (nesting : Nesting) : nesting.members ≠ [] := by
  cases nesting with
  | one predicate => exact List.cons_ne_nil predicate []
  | group first rest => exact List.append_ne_nil_of_left_ne_nil first.members_ne_nil _

end Nesting

def Predicate.negatedTimes : Nat → Predicate → Predicate
  | 0, predicate => predicate
  | n + 1, predicate => .not (negatedTimes n predicate)

/-!
# Merging groups

A filter from several operands brings back all of them when it is merged into
another with its operator.
-/

section

variable {ctx : Context} {op : SetOp}

theorem combine_of_two_le {operands : List Filter} (h : 2 ≤ operands.length) :
    combine ctx op operands = .merged op operands := by
  match operands with
  | [] | [_] => simp at h
  | _ :: _ :: _ => rfl

theorem operandsFor_combine (hop : op ≠ .except) {operands : List Filter} (h : operands ≠ []) :
    (combine ctx op operands).operandsFor op = operands.flatMap (Filter.operandsFor op) := by
  match operands with
  | [] => exact absurd rfl h
  | [operand] => simp [combine]
  | _ :: _ :: _ => simp [combine, Filter.merged, Filter.operandsFor, hop]

theorem merged_groups (hop : op ≠ .except) {groups : List (List Filter)}
    (h : ∀ group ∈ groups, group ≠ []) :
    Filter.merged op (groups.map (combine ctx op)) = .merged op groups.flatten := by
  have hoperands : (groups.map (combine ctx op)).flatMap (Filter.operandsFor op) =
      groups.flatten.flatMap (Filter.operandsFor op) := by
    induction groups with
    | nil => rfl
    | cons group rest ih =>
        rw [List.forall_mem_cons] at h
        rw [List.map_cons, List.flatMap_cons, List.flatten_cons, List.flatMap_append,
          operandsFor_combine hop h.left, ih h.right]
  rw [Filter.merged, Filter.merged, hoperands]

theorem length_le_flatten {groups : List (List Filter)} (h : ∀ group ∈ groups, group ≠ []) :
    groups.length ≤ groups.flatten.length := by
  induction groups with
  | nil => exact Nat.le_refl 0
  | cons group rest ih =>
      rw [List.forall_mem_cons] at h
      have hgroup := List.length_pos_iff.mpr h.left
      have hrest := ih h.right
      rw [List.flatten_cons, List.length_append, List.length_cons]
      omega

theorem combine_groups (hop : op ≠ .except) {groups : List (List Filter)}
    (h : ∀ group ∈ groups, group ≠ []) :
    combine ctx op (groups.map (combine ctx op)) = combine ctx op groups.flatten := by
  match groups with
  | [] => rfl
  | [group] => simp [combine]
  | first :: second :: rest =>
      have hlength : 2 ≤ (first :: second :: rest).flatten.length :=
        Nat.le_trans (by simp) (length_le_flatten h)
      rw [combine_of_two_le (by simp), combine_of_two_le hlength, merged_groups hop h]

end

/-!
# Compiling groups

By induction on the nesting. The operands of the members are kept group by
group, so that each group can be combined on its own and is known not to be
empty.
-/

section

variable {ctx : Context} (negated : Bool) (combinator : Combinator)

theorem compilePredicate_combined (children : List Predicate) :
    compilePredicate ctx negated (combinator.combined children) =
      (compileChildren ctx negated children).map (combine ctx (combinator.setOp negated)) := by
  cases combinator with
  | and | or =>
      rw [Combinator.combined, compilePredicate]
      cases compileChildren ctx negated children <;> rfl

theorem compileChildren_ne_nil {children : List Predicate} {operands : List Filter}
    (hchildren : children ≠ []) (h : compileChildren ctx negated children = .ok operands) :
    operands ≠ [] := by
  cases children with
  | nil => exact absurd rfl hchildren
  | cons child rest =>
      simp only [compileChildren, bind_eq_ok, pure_eq_ok] at h
      rcases h with ⟨operand, _, others, _, hoperands⟩
      rw [← hoperands]
      exact List.cons_ne_nil operand others

/-- The operands of the members, one list for each nesting. -/
def compileGroups (ctx : Context) (negated : Bool) :
    List Nesting → Except CompileError (List (List Filter))
  | [] => .ok []
  | nesting :: rest => do
      let group ← compileChildren ctx negated nesting.members
      let groups ← compileGroups ctx negated rest
      return group :: groups

theorem compileGroups_ne_nil {nestings : List Nesting} {groups : List (List Filter)}
    (h : compileGroups ctx negated nestings = .ok groups) : ∀ group ∈ groups, group ≠ [] := by
  induction nestings generalizing groups with
  | nil =>
      cases h
      intro group hgroup
      cases hgroup
  | cons nesting rest ih =>
      simp only [compileGroups, bind_eq_ok, pure_eq_ok] at h
      rcases h with ⟨group, hgroup, others, hothers, hgroups⟩
      rw [← hgroups, List.forall_mem_cons]
      exact ⟨compileChildren_ne_nil negated nesting.members_ne_nil hgroup, ih hothers⟩

theorem compileChildren_allMembers (nestings : List Nesting) :
    compileChildren ctx negated (Nesting.allMembers nestings) =
      (compileGroups ctx negated nestings).map List.flatten := by
  induction nestings with
  | nil => rfl
  | cons nesting rest ih =>
      rw [Nesting.allMembers, compileChildren_append, compileGroups]
      exact bind_eq_map_bind_of_eq fun group => bind_eq_map_bind ih fun groups => rfl

theorem compilePredicate_group {nestings : List Nesting}
    (h : compileChildren ctx negated (Nesting.predicates combinator nestings) =
      (compileGroups ctx negated nestings).map
        (List.map (combine ctx (combinator.setOp negated)))) :
    compilePredicate ctx negated (combinator.combined (Nesting.predicates combinator nestings)) =
      (compileChildren ctx negated (Nesting.allMembers nestings)).map
        (combine ctx (combinator.setOp negated)) := by
  rw [compilePredicate_combined, h, compileChildren_allMembers]
  cases hgroups : compileGroups ctx negated nestings with
  | error error => rfl
  | ok groups =>
      exact congrArg Except.ok (combine_groups (combinator.setOp_ne_except negated)
        (compileGroups_ne_nil negated hgroups))

theorem compileChildren_predicates_cons {nesting : Nesting} {rest : List Nesting}
    (hnesting : compilePredicate ctx negated (nesting.predicate combinator) =
      (compileChildren ctx negated nesting.members).map
        (combine ctx (combinator.setOp negated)))
    (hrest : compileChildren ctx negated (Nesting.predicates combinator rest) =
      (compileGroups ctx negated rest).map
        (List.map (combine ctx (combinator.setOp negated)))) :
    compileChildren ctx negated (Nesting.predicates combinator (nesting :: rest)) =
      (compileGroups ctx negated (nesting :: rest)).map
        (List.map (combine ctx (combinator.setOp negated))) := by
  rw [Nesting.predicates, compileChildren, compileGroups]
  exact bind_eq_map_bind hnesting fun group => bind_eq_map_bind hrest fun groups => rfl

mutual

theorem compilePredicate_nesting (nesting : Nesting) :
    compilePredicate ctx negated (nesting.predicate combinator) =
      (compileChildren ctx negated nesting.members).map
        (combine ctx (combinator.setOp negated)) := by
  cases nesting with
  | one predicate =>
      rw [Nesting.predicate, Nesting.members, compileChildren]
      cases compilePredicate ctx negated predicate <;> rfl
  | group first rest =>
      exact compilePredicate_group negated combinator
        (compileChildren_predicates_cons negated combinator (compilePredicate_nesting first)
          (compileChildren_nestings rest))

theorem compileChildren_nestings (nestings : List Nesting) :
    compileChildren ctx negated (Nesting.predicates combinator nestings) =
      (compileGroups ctx negated nestings).map
        (List.map (combine ctx (combinator.setOp negated))) := by
  cases nestings with
  | nil => rfl
  | cons nesting rest =>
      exact compileChildren_predicates_cons negated combinator (compilePredicate_nesting nesting)
        (compileChildren_nestings rest)

end

theorem compilePredicate_negatedTimes_congr {predicate predicate' : Predicate}
    (h : ∀ negated, compilePredicate ctx negated predicate =
      compilePredicate ctx negated predicate') (n : Nat) :
    compilePredicate ctx negated (predicate.negatedTimes n) =
      compilePredicate ctx negated (predicate'.negatedTimes n) := by
  induction n generalizing negated with
  | zero => exact h negated
  | succ n ih => exact ih (!negated)

end

/-- Predicates with the same members in the same order have the same statement or the same error,
however one combinator groups them and however often the whole is negated. -/
theorem compile_nested (compiler : Compiler) (request : Request) (combinator : Combinator)
    (n : Nat) {first second : Nesting} (h : first.members = second.members) :
    compiler.compile (request.filter ((first.predicate combinator).negatedTimes n)) =
      compiler.compile (request.filter ((second.predicate combinator).negatedTimes n)) := by
  apply compiler.compile_filter_congr
  intro ctx
  refine compilePredicate_negatedTimes_congr false ?_ n
  intro negated
  rw [compilePredicate_nesting, compilePredicate_nesting, h]

namespace People

def unnamed : Predicate :=
  .propertyNull (.property name)

def tagged (tag : String) : Predicate :=
  .contains (.property tags) (.string tag)

/-- A conjunction in disguise, so it is merged too. -/
def parisianWithout (tag : String) : Predicate :=
  .not (.or [tagged tag, .not (.contains (.property addresses) (livesIn "Paris"))])

def inPairs : Nesting :=
  .group (.group (.one unnamed) [.one (tagged "red")]) [.one (parisianWithout "blue")]

def inChain : Nesting :=
  .group (.one unnamed) [.group (.group (.one (tagged "red")) []) [.one (parisianWithout "blue")]]

end People

theorem regrouped_people_share_statement :
    People.inPairs.members = People.inChain.members ∧
      ∃ statement : Statement,
        People.compiler.compile ((Request.ofType "Person").filter
          ((People.inPairs.predicate .and).negatedTimes 3)) = .ok statement ∧
        People.compiler.compile ((Request.ofType "Person").filter
          ((People.inChain.predicate .and).negatedTimes 3)) = .ok statement := by
  have hmembers : People.inPairs.members = People.inChain.members := rfl
  have hselect : ∃ query, People.compiler.select ((Request.ofType "Person").filter
      ((People.inPairs.predicate .and).negatedTimes 3)) = .ok query := by
    rw [Compiler.select, show (Request.filter _ _).resultType = "Person" from rfl,
      People.contextFor_person]
    exact ⟨_, rfl⟩
  rcases (People.compiler.compile_failAlike_select _).exists_ok_iff.mpr hselect with
    ⟨statement, hstatement⟩
  refine ⟨hmembers, statement, hstatement, ?_⟩
  rw [← compile_nested People.compiler (Request.ofType "Person") .and 3 hmembers]
  exact hstatement

end SlotQuery
