import SlotQuery.Proofs.Acceptance
import SlotQuery.Proofs.Reading
import SlotQuery.Proofs.Tables

/-!
# Equality and absence

A scalar is compared with the value of a slot, and the test for null looks at the
same value. A composite is compared with the slots nested in its row, while the
test for null still looks at the row alone. So where each slot has one row, a
property that is equal to a scalar is never null, but one that is equal to a
composite is null whenever its row has no value of its own.
-/

namespace SlotQuery

variable {engine : Engine} {db : Database engine} {ctx : Context}

/-!
# Walks to a slot

Only an association has an entity behind its slot. A walk that stops at the slot
brings no entity along, and one along a path that ends in a property stops there
in any case.
-/

namespace Database

variable {kind : JoinKind}

theorem arrivals_slot_target {steps : List PathStep} {place : Place engine}
    {last arrival : Arrival engine} (hlast : steps = [] → last.target = none)
    (h : arrival ∈ db.arrivals ctx kind .slot steps place last) : arrival.target = none := by
  induction steps generalizing place last with
  | nil =>
      rw [List.mem_singleton.mp h]
      exact hlast rfl
  | cons step rest ih =>
      simp only [arrivals, List.mem_flatMap] at h
      rcases h with ⟨slot, _, harrival⟩
      split at harrival
      · split at harrival
        · rw [List.mem_singleton.mp harrival]
        · rename_i hend
          simp only [List.mem_flatMap] at harrival
          rcases harrival with ⟨entity, _, hrest⟩
          refine ih (fun hnil => absurd ?_ hend) hrest
          rw [hnil]
          rfl
      · exact ih (fun _ => rfl) harrival

theorem arrivals_of_property_leaf (pathEnd : PathEnd) {steps : List PathStep}
    (hsteps : steps ≠ []) (hleaf : (steps.getLast hsteps).isAssociation = false)
    (place : Place engine) (last : Arrival engine) :
    db.arrivals ctx kind pathEnd steps place last =
      db.arrivals ctx kind .slot steps place last := by
  induction steps generalizing place last with
  | nil => exact absurd rfl hsteps
  | cons step rest ih =>
      cases rest with
      | nil =>
          rw [List.getLast_singleton] at hleaf
          simp only [arrivals, hleaf, Bool.false_eq_true, if_false]
      | cons next others =>
          rw [List.getLast_cons (List.cons_ne_nil next others)] at hleaf
          have hrest := ih (List.cons_ne_nil next others) hleaf
          rw [arrivals, arrivals]
          simp only [hrest, List.isEmpty_cons, Bool.false_and]

end Database

/-!
# One slot for each path

With one row in each slot along a path, all ways lead to the same row of the last
slot. Several entities may stand behind one slot, but their keys are equal, so
they have the same slots.
-/

namespace Database

theorem targets_equal_keys {layout : Layout} {slot entity entity' : Row engine}
    (h : entity ∈ db.targets layout slot) (h' : entity' ∈ db.targets layout slot) :
    (engine.equal (entity layout.entityKeyColumn) (entity' layout.entityKeyColumn)).isYes =
      true :=
  Engine.equal_trans (List.mem_filter.mp h).right
    (Engine.equal_symm (List.mem_filter.mp h').right)

/-- An outer walk goes on in the same way from every entity behind a slot. -/
theorem arrivals_targets_congr {kind : JoinKind} {pathEnd : PathEnd} {steps : List PathStep}
    {slot entity entity' : Row engine} {last last' : Arrival engine} (hsteps : steps ≠ [])
    (h : entity ∈ JoinKind.left.continues (db.targets ctx.layout slot))
    (h' : entity' ∈ JoinKind.left.continues (db.targets ctx.layout slot)) :
    db.arrivals ctx kind pathEnd steps (.entity (entity ctx.layout.entityKeyColumn)) last =
      db.arrivals ctx kind pathEnd steps (.entity (entity' ctx.layout.entityKeyColumn)) last' := by
  cases htargets : db.targets ctx.layout slot with
  | nil =>
      rw [htargets] at h h'
      rw [List.mem_singleton.mp h, List.mem_singleton.mp h']
      cases steps with
      | nil => exact absurd rfl hsteps
      | cons step rest => rfl
  | cons first others =>
      rw [htargets] at h h'
      have hmem : entity ∈ db.targets ctx.layout slot := htargets ▸ h
      have hmem' : entity' ∈ db.targets ctx.layout slot := htargets ▸ h'
      exact arrivals_congr hsteps (targets_equal_keys hmem hmem')

end Database

namespace Database.SingleAlong

variable {pathEnd : PathEnd}

theorem slot_eq {steps : List PathStep} {place : Place engine} {last left right : Arrival engine}
    (h : db.SingleAlong ctx steps place)
    (hleft : left ∈ db.arrivals ctx .left pathEnd steps place last)
    (hright : right ∈ db.arrivals ctx .left pathEnd steps place last) :
    left.slot = right.slot := by
  induction steps generalizing place last with
  | nil => rw [List.mem_singleton.mp hleft, List.mem_singleton.mp hright]
  | cons step rest ih =>
      rcases h with ⟨hlength, hrows⟩
      rcases JoinKind.left_continues_eq_singleton hlength with ⟨slot, hmem, hslot⟩
      simp only [arrivals, hslot, List.flatMap_cons, List.flatMap_nil, List.append_nil]
        at hleft hright
      by_cases hassociation : step.isAssociation = true
      · simp only [if_pos hassociation] at hrows hleft hright
        split at hleft
        · rename_i hend
          rw [if_pos hend] at hright
          rw [List.mem_singleton.mp hleft, List.mem_singleton.mp hright]
        · rename_i hend
          rw [if_neg hend] at hright
          simp only [List.mem_flatMap] at hleft hright
          rcases hleft with ⟨entity, hentity, hleft⟩
          rcases hright with ⟨entity', hentity', hright⟩
          -- The two may have gone on to different entities, but not from different slots.
          by_cases hrest : rest = []
          · subst hrest
            rw [List.mem_singleton.mp hleft, List.mem_singleton.mp hright]
          · rw [arrivals_targets_congr hrest hentity' hentity] at hright
            exact ih (of_continues_target hmem hentity hrows) hleft hright
      · simp only [if_neg hassociation] at hrows hleft hright
        exact ih (of_continues_row hmem hrows) hleft hright

/-- At the end of a path to a property there is one value, wherever the walk stops. -/
theorem value_of_property_leaf {path : Path} {key : engine.Cell} {left right : Arrival engine}
    (h : db.SingleAlong ctx path.steps (.entity (some key)))
    (hleaf : path.leaf.isAssociation = false)
    (hleft : left ∈ db.reach ctx .left pathEnd path key)
    (hright : right ∈ db.reach ctx .left .slot path key) :
    left.value ctx.layout = right.slot ctx.layout.valueColumn := by
  rw [reach, arrivals_of_property_leaf pathEnd path.steps_ne_nil hleaf] at hleft
  have htarget : left.target = none :=
    arrivals_slot_target (fun hnil => absurd hnil path.steps_ne_nil) hleft
  rw [Arrival.value, htarget, h.slot_eq hleft hright]

end Database.SingleAlong

/-!
# Selected as equal and as null
-/

section

variable {path : Path} {value : Value} {key : engine.Cell}

/-- A test for a scalar and the test for null do not both find what they look for. -/
theorem scalarTest_nullTest_exclusive {op : ComparisonOp}
    (h : db.SingleAlong ctx path.steps (.entity (some key)))
    (hleaf : path.leaf.isAssociation = false)
    (hequal : (Predicate.scalarTest engine op path value).Answers db ctx key true)
    (hnull : (Predicate.nullTest engine path .isNull).Answers db ctx key true) : False := by
  rcases hequal with ⟨left, hleft, hpasses⟩
  rcases hnull with ⟨right, hright, hnone⟩
  have hvalue : left.value ctx.layout = right.value ctx.layout :=
    (h.value_of_property_leaf hleaf hleft hright).trans
      (h.value_of_property_leaf hleaf hright hright).symm
  have hmissing : right.value ctx.layout = none := Option.isNone_iff_eq_none.mp hnone
  rw [hvalue, hmissing] at hpasses
  cases hpasses

/-- The test for null succeeds where the row that matches the composite has no value. -/
theorem exists_match_and_nullTest_iff
    (h : db.SingleAlong ctx path.steps (.entity (some key)))
    (hleaf : path.leaf.isAssociation = false) :
    (∃ arrival ∈ db.reach ctx .inner .slot path key, arrival.slot.Matches db ctx value) ∧
        (Predicate.nullTest engine path .isNull).Answers db ctx key true ↔
      ∃ arrival ∈ db.reach ctx .inner .slot path key,
        arrival.slot.Matches db ctx value ∧ arrival.slot ctx.layout.valueColumn = none := by
  constructor
  · intro hboth
    rcases hboth with ⟨⟨arrival, harrival, hmatches⟩, other, hother, hnone⟩
    refine ⟨arrival, harrival, hmatches, ?_⟩
    rw [← h.value_of_property_leaf hleaf hother (Database.mem_left_of_mem_inner harrival)]
    exact Option.isNone_iff_eq_none.mp hnone
  · intro hrow
    rcases hrow with ⟨arrival, harrival, hmatches, hnone⟩
    have hleft := Database.mem_left_of_mem_inner harrival
    refine ⟨⟨arrival, harrival, hmatches⟩, arrival, hleft, ?_⟩
    have hvalue := h.value_of_property_leaf hleaf hleft hleft
    exact Option.isNone_iff_eq_none.mpr (hvalue.trans hnone)

/-- An entity with one row in each slot along the path is selected as equal to a value other than
null and also as null exactly when the value is a composite and the row that matches it has no
value of its own. -/
theorem equal_and_null_select {equal : Filter} (hleaf : path.leaf.isAssociation = false)
    (hvalue : value ≠ .null)
    (h : compilePredicate ctx false (.comparison .eq path value) = .ok equal) :
    ∃ null, compilePredicate ctx false (.propertyNull path) = .ok null ∧
      ∀ (db : Database engine) (outer : Scope engine) (key : engine.Cell),
        db.SingleAlong ctx path.steps (.entity (some key)) →
          (equal.selects db ctx.layout outer key = true ∧
              null.selects db ctx.layout outer key = true ↔
            value.isComposite = true ∧ db.inUniverse ctx key = true ∧
              ∃ arrival ∈ db.reach ctx .inner .slot path key,
                arrival.slot.Matches db ctx value ∧
                  arrival.slot ctx.layout.valueColumn = none) := by
  have hslots : path.HasSlots ctx.schema := (exists_compileComparison_iff.mp ⟨equal, h⟩).left
  rcases exists_compileNullTest_iff.mpr hslots with ⟨null, hnull⟩
  refine ⟨null, hnull, ?_⟩
  intro db outer key hsingle
  rw [compileNullTest_selects outer key hnull]
  cases value with
  | null => exact absurd rfl hvalue
  | list items => cases h
  | composite fields =>
      have hpositive : (false != (ComparisonOp.eq == .ne)) = false := rfl
      rw [compileCompositeComparison_selects outer key h,
        ← exists_match_and_nullTest_iff hsingle hleaf]
      simp only [hpositive, iff_true, Value.isComposite, true_and]
      constructor
      · intro hboth
        exact ⟨hboth.left.left, hboth.left.right, hboth.right.right⟩
      · intro hboth
        exact ⟨⟨hboth.left, hboth.right.left⟩, hboth.left, hboth.right.right⟩
  | bool b | int n | float x | string s | instant t =>
      rw [compileScalarComparison_selects outer key h]
      simp only [Value.isComposite, Bool.false_eq_true, false_and, iff_false]
      intro hboth
      exact scalarTest_nullTest_exclusive hsingle hleaf hboth.left.right hboth.right.right

end

/-!
# A home in Paris

The row of Alice's home has no value. Her city stands in a row inside it.
-/

namespace People

def home : QualifiedName := { typeName := "Person", member := "home" }

def homeContext : Context :=
  { context with schema :=
      { schema with slots := [(home, { table := "homes", collectionDepth := 0 }),
          (city, { table := "cities", collectionDepth := 0 })] } }

def homes : Database Datum.engine :=
  .ofTables
    [("entities", [entityRow 1 "alice"]),
      ("entity_types", [typeRow 1]),
      ("homes", [[("entity_pk", .number 1), ("qname_id", .number 10)]]),
      ("cities", [nestedRow 1 10 "Paris"])]

end People

/-- Alice's home is equal to one in Paris, and it is null. -/
theorem home_in_paris_is_null :
    ∃ equal null : Filter,
      compilePredicate People.homeContext false
        (.comparison .eq (.property People.home) (People.livesIn "Paris")) = .ok equal ∧
      compilePredicate People.homeContext false
        (.propertyNull (.property People.home)) = .ok null ∧
      Predicate.SingleValued People.homes People.homeContext People.alice
        (.comparison .eq (.property People.home) (People.livesIn "Paris")) ∧
      equal.selects People.homes .standard .nothing People.alice = true ∧
      null.selects People.homes .standard .nothing People.alice = true :=
  ⟨_, _, rfl, rfl,
    ⟨⟨List.length_filter_le _ _, fun _ _ => trivial⟩,
      fun _ _ => ⟨List.length_filter_le _ _, trivial, trivial⟩⟩,
    by decide, by decide⟩

theorem home_in_paris_has_no_value :
    ∃ arrival ∈ People.homes.reach People.homeContext .inner .slot (.property People.home)
        People.alice,
      arrival.slot.Matches People.homes People.homeContext (People.livesIn "Paris") ∧
        arrival.slot People.homeContext.layout.valueColumn = none := by
  have hcompile : ∃ equal null : Filter,
      compilePredicate People.homeContext false
        (.comparison .eq (.property People.home) (People.livesIn "Paris")) = .ok equal ∧
      compilePredicate People.homeContext false
        (.propertyNull (.property People.home)) = .ok null ∧
      equal.selects People.homes .standard .nothing People.alice = true ∧
      null.selects People.homes .standard .nothing People.alice = true :=
    ⟨_, _, rfl, rfl, by decide, by decide⟩
  rcases hcompile with ⟨equal, null, hequal, hnull, halice, halice'⟩
  rcases @equal_and_null_select Datum.engine _ _ _ _ rfl Value.noConfusion hequal with
    ⟨null', hnull', hselects⟩
  rw [hnull] at hnull'
  cases hnull'
  have hsingle : People.homes.SingleAlong People.homeContext [.property People.home]
      (.entity (some People.alice)) :=
    ⟨List.length_filter_le _ _, fun _ _ => trivial⟩
  exact ((hselects People.homes .nothing People.alice hsingle).mp ⟨halice, halice'⟩).right.right

end SlotQuery
