import SlotQuery.Proofs.Acceptance
import SlotQuery.Proofs.Tables

/-!
# Containing each and containing all

Looking for all of several values counts different elements that one of them
matches. With scalars the count cannot be reached unless each value is there;
with composites several elements may match one value and make up for another.
-/

namespace SlotQuery

variable {engine : Engine} {db : Database engine} {ctx : Context} {path : Path}
  {values : List Value} {filter : Filter}

/-!
# Each value on its own

Where all of several values can be looked for, each one can be looked for too.
-/

theorem exists_compileContains {negated : Bool} (hvalues : values ≠ [])
    (h : compileContainsAll ctx path values negated = .ok filter) {value : Value}
    (hvalue : value ∈ values) : ∃ part, compileContains ctx path value false = .ok part := by
  simp only [compileContainsAll, List.isEmpty_eq_false_iff.mpr hvalues, Bool.false_eq_true,
    if_false, bind_eq_ok] at h
  rcases h with ⟨_, hcheck, positive, heach, _⟩
  rcases exists_compileEach_iff.mp ⟨positive, heach⟩ with ⟨⟨hslots, helements⟩, hadmits⟩
  have hchecked := (exists_checkElements_iff path).mp ⟨_, hcheck⟩ value hvalue
  exact exists_compileContains_iff.mpr
    ⟨hslots, helements, Path.mayHold_iff.mpr ⟨hchecked, hadmits value hvalue⟩⟩

/-- The filters of the single values, side by side. -/
theorem exists_parts {negated : Bool} (hvalues : values ≠ [])
    (h : compileContainsAll ctx path values negated = .ok filter) :
    ∃ part : Value → Filter, ∀ value ∈ values,
      compileContains ctx path value false = .ok (part value) := by
  refine (Classical.skolem (p := fun value part =>
    value ∈ values → compileContains ctx path value false = .ok part)).mp ?_
  intro value
  by_cases hvalue : value ∈ values
  · rcases exists_compileContains hvalues h hvalue with ⟨part, hpart⟩
    exact ⟨part, fun _ => hpart⟩
  · exact ⟨filter, fun hmem => absurd hmem hvalue⟩

theorem hasDistinct_composites_iff (hcomposite : values.any Value.isComposite = true)
    (key : engine.Cell) :
    (engine.HasDistinct values.length fun cell =>
        ∃ element ∈ db.elements ctx path key,
          (∃ value ∈ values, element.Matches db ctx value) ∧
          element.counted ctx values = some cell) ↔
      engine.HasDistinct values.length fun cell =>
        ∃ element ∈ db.elements ctx path key,
          (∃ value ∈ values, element.Matches db ctx value) ∧
          element.slot ctx.layout.collectionPathColumn = some cell := by
  simp only [Arrival.counted, hcomposite, if_true]

/-- Of a list with composites, all are contained only with each one, unless positions of other
elements make up for a value that no element matches. -/
theorem containsAll_composites_selects (hcomposite : values.any Value.isComposite = true)
    (h : compilePredicate ctx false (.containsAll path values) = .ok filter) :
    ∃ part : Value → Filter,
      (∀ value ∈ values, compilePredicate ctx false (.contains path value) = .ok (part value)) ∧
      ∀ (db : Database engine) (outer : Scope engine) (key : engine.Cell),
        (filter.selects db ctx.layout outer key = true →
          ∀ value ∈ values, (part value).selects db ctx.layout outer key = true) ↔
        (db.inUniverse ctx key = true →
          (engine.HasDistinct values.length fun cell =>
            ∃ element ∈ db.elements ctx path key,
              (∃ value ∈ values, element.Matches db ctx value) ∧
              element.slot ctx.layout.collectionPathColumn = some cell) →
          ∀ value ∈ values, ∃ element ∈ db.elements ctx path key,
            element.Matches db ctx value) := by
  have hvalues : values ≠ [] := by
    intro hnil
    rw [hnil] at hcomposite
    cases hcomposite
  simp only [compilePredicate] at h ⊢
  rcases exists_parts hvalues h with ⟨part, hpart⟩
  refine ⟨part, hpart, ?_⟩
  intro db outer key
  have hselects : filter.selects db ctx.layout outer key = true ↔ _ :=
    compileContainsAll_selects outer key hvalues h
  simp only [iff_true] at hselects
  rw [hselects, hasDistinct_composites_iff hcomposite, and_imp]
  apply forall_congr'
  intro huniverse
  apply forall_congr'
  intro _
  apply forall₂_congr
  intro value hvalue
  rw [compileContains_selects outer key (hpart value hvalue)]
  simp [huniverse]

theorem paris_and_oslo_selects_alice :
    ∃ filter part : Filter,
      compilePredicate People.context false (.containsAll (.property People.addresses)
        [People.livesIn "Paris", People.livesIn "Oslo"]) = .ok filter ∧
      compilePredicate People.context false
        (.contains (.property People.addresses) (People.livesIn "Oslo")) = .ok part ∧
      filter.selects People.database .standard .nothing People.alice = true ∧
      part.selects People.database .standard .nothing People.alice = false :=
  ⟨_, _, rfl, rfl, by decide, by decide⟩

theorem two_positions_make_up_for_oslo :
    ¬ (People.database.inUniverse People.context People.alice = true →
      (Datum.engine.HasDistinct 2 fun cell =>
        ∃ element ∈ People.database.elements People.context (.property People.addresses)
            People.alice,
          (∃ value ∈ [People.livesIn "Paris", People.livesIn "Oslo"],
            element.Matches People.database People.context value) ∧
          element.slot "collection_path" = some cell) →
      ∀ value ∈ [People.livesIn "Paris", People.livesIn "Oslo"],
        ∃ element ∈ People.database.elements People.context (.property People.addresses)
            People.alice,
          element.Matches People.database People.context value) := by
  have hcompile : ∃ filter, compilePredicate People.context false
      (.containsAll (.property People.addresses)
        [People.livesIn "Paris", People.livesIn "Oslo"]) = .ok filter ∧
      filter.selects People.database .standard .nothing People.alice = true :=
    ⟨_, rfl, by decide⟩
  rcases hcompile with ⟨filter, hfilter, halice⟩
  rcases @containsAll_composites_selects Datum.engine _ _ _ _ (by decide) hfilter with
    ⟨part, hpart, hselects⟩
  have hoslo := hpart (People.livesIn "Oslo") (by simp)
  have hmissed : ∃ filter, compilePredicate People.context false
      (.contains (.property People.addresses) (People.livesIn "Oslo")) = .ok filter ∧
      filter.selects People.database .standard .nothing People.alice = false :=
    ⟨_, rfl, by decide⟩
  rcases hmissed with ⟨missed, hcompiled, hnot⟩
  rw [hcompiled] at hoslo
  intro hall
  have hselected := (hselects People.database .nothing People.alice).mpr hall halice
    (People.livesIn "Oslo") (by simp)
  rw [← Except.ok.inj hoslo] at hselected
  exact Bool.false_ne_true (hnot.symm.trans hselected)

/-- Where no value has matches at two positions, the count leaves out no value. -/
theorem matched_of_single_positions {elements : List (Arrival engine)}
    (hsingle : ∀ value ∈ values, ∀ element ∈ elements, ∀ other ∈ elements,
      element.Matches db ctx value → other.Matches db ctx value →
        element.slot ctx.layout.collectionPathColumn = other.slot ctx.layout.collectionPathColumn)
    (h : engine.HasDistinct values.length fun cell =>
      ∃ element ∈ elements, (∃ value ∈ values, element.Matches db ctx value) ∧
        element.slot ctx.layout.collectionPathColumn = some cell)
    {value : Value} (hvalue : value ∈ values) :
    ∃ element ∈ elements, element.Matches db ctx value := by
  apply Classical.byContradiction
  intro hmissing
  -- Each value stands for the one position of its matches, and this value for none.
  have hposition : ∀ other : Value, ∃ position : Option engine.Cell, other ∈ values →
      (∀ element ∈ elements, element.Matches db ctx other →
        element.slot ctx.layout.collectionPathColumn = position) ∧
      ((¬ ∃ element ∈ elements, element.Matches db ctx other) → position = none) := by
    intro other
    by_cases hmatched : ∃ first ∈ elements, first.Matches db ctx other
    · rcases hmatched with ⟨first, hfirst, hmatches⟩
      refine ⟨first.slot ctx.layout.collectionPathColumn, fun hother => ⟨?_, ?_⟩⟩
      · intro element helement hmatches'
        exact hsingle other hother element helement first hfirst hmatches' hmatches
      · intro hnone
        exact absurd ⟨first, hfirst, hmatches⟩ hnone
    · refine ⟨none, fun _ => ⟨?_, fun _ => rfl⟩⟩
      intro element helement hmatches
      exact absurd ⟨element, helement, hmatches⟩ hmatched
  rcases Classical.skolem.mp hposition with ⟨position, hposition⟩
  have hshort := List.length_filterMap_lt_length_iff_exists.mpr
    ⟨value, hvalue, (hposition value hvalue).right hmissing⟩
  have hlong : values.length ≤ (values.filterMap position).length := by
    apply h.le_of_covered
    intro cell hcell
    rcases hcell with ⟨element, helement, ⟨matched, hmatched, hmatches⟩, hcell⟩
    refine ⟨cell, List.mem_filterMap.mpr ⟨matched, hmatched, ?_⟩, Engine.same_refl cell⟩
    rw [← (hposition matched hmatched).left element helement hmatches]
    exact hcell
  omega

end SlotQuery
