import Mathlib.Data.Set.Basic
import SlotQuery.Proofs.Evaluation

/-!
# Filters as sets

Where each select stands for a set of entities, a filter stands for one as well:
what is in one of its operands, what is in all of them, or what is left of the
first operand when the others are taken away one after the other. Merging
operands into a compound changes neither this set nor the order of the selects.
-/

namespace SlotQuery

variable {Entity : Type}

/-!
# Sets put together by an operator

The operators take any number of sets. No sets have an empty union, and their
intersection holds everything.
-/

namespace SetOp

def combined (op : SetOp) (sets : List (Set Entity)) : Set Entity :=
  match op, sets with
  | .union, sets => {entity | ∃ set ∈ sets, entity ∈ set}
  | .intersect, sets => {entity | ∀ set ∈ sets, entity ∈ set}
  | .except, [] => ∅
  | .except, first :: rest => rest.foldl (fun left set => left \ set) first

theorem mem_combined_union {sets : List (Set Entity)} {entity : Entity} :
    entity ∈ SetOp.union.combined sets ↔ ∃ set ∈ sets, entity ∈ set :=
  Iff.rfl

theorem mem_combined_intersect {sets : List (Set Entity)} {entity : Entity} :
    entity ∈ SetOp.intersect.combined sets ↔ ∀ set ∈ sets, entity ∈ set :=
  Iff.rfl

theorem mem_combined_except_cons {first : Set Entity} {rest : List (Set Entity)}
    {entity : Entity} :
    entity ∈ SetOp.except.combined (first :: rest) ↔
      entity ∈ first ∧ ∀ set ∈ rest, entity ∉ set := by
  show entity ∈ rest.foldl (fun left set => left \ set) first ↔ _
  induction rest generalizing first with
  | nil => simp
  | cons set later ih =>
      rw [List.foldl_cons, ih, Set.mem_sdiff, List.forall_mem_cons, and_assoc]

theorem combined_singleton (op : SetOp) (set : Set Entity) : op.combined [set] = set := by
  ext entity
  cases op with
  | union => simp [mem_combined_union]
  | intersect => simp [mem_combined_intersect]
  | except => simp [mem_combined_except_cons]

/-- Sets may be put together in groups first, unless they are taken away from each other. -/
theorem combined_flatten {op : SetOp} (hop : op ≠ .except) (groups : List (List (Set Entity))) :
    op.combined groups.flatten = op.combined (groups.map op.combined) := by
  ext entity
  cases op with
  | union =>
      simp only [mem_combined_union, List.mem_flatten, List.mem_map, exists_exists_and_eq_and]
      constructor
      · intro h
        rcases h with ⟨set, ⟨group, hgroup, hset⟩, hentity⟩
        exact ⟨group, hgroup, set, hset, hentity⟩
      · intro h
        rcases h with ⟨group, hgroup, set, hset, hentity⟩
        exact ⟨set, ⟨group, hgroup, hset⟩, hentity⟩
  | intersect =>
      simp only [mem_combined_intersect, List.mem_flatten, List.forall_mem_map]
      constructor
      · intro h group hgroup set hset
        exact h set ⟨group, hgroup, hset⟩
      · intro h set hmem
        rcases hmem with ⟨group, hgroup, hset⟩
        exact h group hgroup set hset
  | except => exact absurd rfl hop

end SetOp

/-!
# The set of a filter

Filters are arbitrary trees here, which no compilation needs to have made.
-/

namespace Filter

mutual

def entities (of : Select → Set Entity) : Filter → Set Entity
  | .select query => of query
  | .compound op operands => op.combined (entitySets of operands)

def entitySets (of : Select → Set Entity) : List Filter → List (Set Entity)
  | [] => []
  | operand :: rest => entities of operand :: entitySets of rest

end

theorem entitySets_eq (of : Select → Set Entity) (operands : List Filter) :
    entitySets of operands = operands.map (entities of) := by
  induction operands with
  | nil => rfl
  | cons operand rest ih => rw [entitySets, ih, List.map_cons]

mutual

/-- The selects that are put together, from left to right. -/
def parts : Filter → List Select
  | .select query => [query]
  | .compound _ operands => allParts operands

def allParts : List Filter → List Select
  | [] => []
  | operand :: rest => parts operand ++ allParts rest

end

theorem allParts_eq (operands : List Filter) : allParts operands = operands.flatMap parts := by
  induction operands with
  | nil => rfl
  | cons operand rest ih => rw [allParts, ih, List.flatMap_cons]

/-!
# Merged operands

An operand is merged when it has the operator of the compound and the operator
is associative. All other operands stay as they are.
-/

theorem operandsFor_cases (op : SetOp) (operand : Filter) :
    operandsFor op operand = [operand] ∨
      op ≠ .except ∧ ∃ inner, operand = .compound op inner ∧ operandsFor op operand = inner := by
  cases operand with
  | select query => exact Or.inl rfl
  | compound other inner =>
      by_cases hmerged : other = op ∧ op ≠ .except
      · rcases hmerged with ⟨heq, hop⟩
        subst heq
        exact Or.inr ⟨hop, inner, rfl, if_pos ⟨rfl, hop⟩⟩
      · exact Or.inl (if_neg hmerged)

theorem combined_operandsFor (op : SetOp) (of : Select → Set Entity) (operand : Filter) :
    op.combined ((operandsFor op operand).map (entities of)) = operand.entities of := by
  rcases operandsFor_cases op operand with hsingle | ⟨_, inner, hcompound, hinner⟩
  · rw [hsingle, List.map_singleton, SetOp.combined_singleton]
  · rw [hinner, hcompound, entities, entitySets_eq]

theorem operandsFor_except (operand : Filter) : operandsFor .except operand = [operand] := by
  rcases operandsFor_cases .except operand with hsingle | ⟨hop, _⟩
  · exact hsingle
  · exact absurd rfl hop

theorem flatMap_parts_operandsFor (op : SetOp) (operand : Filter) :
    (operandsFor op operand).flatMap parts = operand.parts := by
  rcases operandsFor_cases op operand with hsingle | ⟨_, inner, hcompound, hinner⟩
  · rw [hsingle, List.flatMap_singleton]
  · rw [hinner, hcompound, parts, allParts_eq]

theorem entities_merged (op : SetOp) (operands : List Filter) (of : Select → Set Entity) :
    (merged op operands).entities of = (Filter.compound op operands).entities of := by
  simp only [merged, entities, entitySets_eq]
  by_cases hop : op = .except
  · -- A difference has no operands of its own merged into it.
    subst hop
    have hsame : operands.flatMap (operandsFor .except) = operands := by
      rw [funext operandsFor_except, List.flatMap_singleton']
    rw [hsame]
  · have hgroups : (operands.flatMap (operandsFor op)).map (entities of) =
        (operands.map fun operand => (operandsFor op operand).map (entities of)).flatten := by
      rw [List.map_flatMap, List.flatMap_def]
    rw [hgroups, SetOp.combined_flatten hop, List.map_map]
    congr 1
    apply List.map_congr_left
    intro operand _
    exact combined_operandsFor op of operand

theorem parts_merged (op : SetOp) (operands : List Filter) :
    (merged op operands).parts = (Filter.compound op operands).parts := by
  simp only [merged, parts, allParts_eq, List.flatMap_assoc, flatMap_parts_operandsFor]

/-- Merging keeps the set of a compound, whatever the selects stand for, and the order of its
selects. -/
theorem merged_keeps_set_and_order (op : SetOp) (operands : List Filter) :
    (∀ (Entity : Type) (of : Select → Set Entity),
        (merged op operands).entities of = (Filter.compound op operands).entities of) ∧
      (merged op operands).parts = (Filter.compound op operands).parts :=
  ⟨fun _ of => entities_merged op operands of, parts_merged op operands⟩

/-!
# Sets in a database

In a database each select stands for the keys that it returns, and each filter
for the keys that it selects.
-/

section

variable {engine : Engine} (db : Database engine) (layout : Layout) (outer : Scope engine)

/-- The keys that a select returns. -/
def keysOf (query : Select) : Set engine.Cell :=
  {key | (Filter.select query).selects db layout outer key = true}

variable {key : engine.Cell}

mutual

theorem selects_iff_mem_entities (filter : Filter) :
    filter.selects db layout outer key = true ↔ key ∈ filter.entities (keysOf db layout outer) := by
  cases filter with
  | select query => rfl
  | compound op operands =>
      cases op with
      | union =>
          rw [selects, anySelects_iff_exists_mem, entities, entitySets_eq,
            SetOp.mem_combined_union]
          simp only [List.mem_map, exists_exists_and_eq_and]
      | intersect =>
          rw [selects, allSelect_iff_forall_mem, entities, entitySets_eq,
            SetOp.mem_combined_intersect, List.forall_mem_map]
      | except =>
          cases operands with
          | nil => simp [selects, firstSelects, entities, entitySets, SetOp.combined]
          | cons first rest =>
              rw [selects, firstSelects, Bool.and_eq_true, Bool.not_eq_true',
                Bool.eq_false_iff, ne_eq, selects_iff_mem_entities first,
                anySelects_iff_exists_mem rest, entities, entitySets, entitySets_eq,
                SetOp.mem_combined_except_cons]
              simp

theorem anySelects_iff_exists_mem (operands : List Filter) :
    anySelects db layout outer key operands = true ↔
      ∃ operand ∈ operands, key ∈ operand.entities (keysOf db layout outer) := by
  cases operands with
  | nil => simp [anySelects]
  | cons operand rest =>
      rw [anySelects, Bool.or_eq_true, selects_iff_mem_entities operand,
        anySelects_iff_exists_mem rest]
      simp only [List.mem_cons, exists_eq_or_imp]

theorem allSelect_iff_forall_mem (operands : List Filter) :
    allSelect db layout outer key operands = true ↔
      ∀ operand ∈ operands, key ∈ operand.entities (keysOf db layout outer) := by
  cases operands with
  | nil => simp [allSelect]
  | cons operand rest =>
      rw [allSelect, Bool.and_eq_true, selects_iff_mem_entities operand,
        allSelect_iff_forall_mem rest, List.forall_mem_cons]

end

theorem selects_merged (op : SetOp) (operands : List Filter) :
    (merged op operands).selects db layout outer key =
      (Filter.compound op operands).selects db layout outer key := by
  rw [Bool.eq_iff_iff, selects_iff_mem_entities, selects_iff_mem_entities, entities_merged]

end

end Filter

end SlotQuery
