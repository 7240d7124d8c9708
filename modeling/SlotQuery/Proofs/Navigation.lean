import SlotQuery.Proofs.Evaluation

/-!
# Rows along a path

The same walk that a chain of joins makes, told in terms of rows: from an entity
or from a row to the rows of a slot that belong to it, and from a row of an
association to the entities that it refers to. An outer walk goes on without a
row where it finds none.
-/

namespace SlotQuery

/-- Where the rows of a slot are looked for: with an entity, or inside a row. -/
inductive Place (engine : Engine) where
  | entity (key : Option engine.Cell)
  | row (around : Row engine)

/-- What a path has led to: the row of its last slot, and the entity when the walk went on to it. -/
structure Arrival (engine : Engine) where
  slot : Row engine
  target : Option (Row engine)

section

variable {engine : Engine}

def Place.owns (layout : Layout) (place : Place engine) (row : Row engine) : Bool :=
  match place with
  | .entity key => (engine.equal (row layout.entityKeyColumn) key).isYes
  | .row around =>
      (engine.equal (row layout.entityKeyColumn) (around layout.entityKeyColumn)).isYes &&
        (engine.equal (row layout.parentColumn) (around layout.rowIdColumn)).isYes

namespace Database

def slotRows (db : Database engine) (ctx : Context) (place : Place engine)
    (name : QualifiedName) : List (Row engine) :=
  match ctx.schema.slot? name with
  | some info => (db.rows info.table).filter (place.owns ctx.layout)
  | none => []

def targets (db : Database engine) (layout : Layout) (slot : Row engine) : List (Row engine) :=
  (db.rows layout.entityTable).filter fun entity =>
    (engine.equal (entity layout.entityKeyColumn) (slot layout.valueColumn)).isYes

/-- Every way along the steps, each with what it leads to. -/
def arrivals (db : Database engine) (ctx : Context) (kind : JoinKind) (pathEnd : PathEnd) :
    List PathStep → Place engine → Arrival engine → List (Arrival engine)
  | [], _, last => [last]
  | step :: rest, place, _ =>
      (kind.continues (db.slotRows ctx place step.name)).flatMap fun slot =>
        if step.isAssociation then
          if rest.isEmpty && pathEnd == .slot then
            [{ slot := slot, target := none }]
          else
            (kind.continues (db.targets ctx.layout slot)).flatMap fun entity =>
              arrivals db ctx kind pathEnd rest (.entity (entity ctx.layout.entityKeyColumn))
                { slot := slot, target := some entity }
        else
          arrivals db ctx kind pathEnd rest (.row slot) { slot := slot, target := none }

/-- Every way along a path from the entity with the key. -/
def reach (db : Database engine) (ctx : Context) (kind : JoinKind) (pathEnd : PathEnd)
    (path : Path) (key : engine.Cell) : List (Arrival engine) :=
  db.arrivals ctx kind pathEnd path.steps (.entity (some key))
    { slot := Row.missing, target := none }

end Database

/-- The identity of the entity that was reached, else the value of the slot. -/
def Arrival.value (layout : Layout) (arrival : Arrival engine) : Option engine.Cell :=
  match arrival.target with
  | some entity => entity layout.entityIdentityColumn
  | none => arrival.slot layout.valueColumn

/-!
# The first step

Where a walk starts with is forgotten after one step, and entities with equal
keys have the same rows.
-/

theorem Place.owns_congr {layout : Layout} {left right : Option engine.Cell}
    (h : (engine.equal left right).isYes = true) :
    Place.owns layout (.entity left) = Place.owns layout (.entity right) := by
  funext row
  exact Engine.equal_congr_right _ h

theorem Database.arrivals_congr {db : Database engine} {ctx : Context} {kind : JoinKind}
    {pathEnd : PathEnd} {steps : List PathStep} {left right : Option engine.Cell}
    {last last' : Arrival engine} (hsteps : steps ≠ [])
    (h : (engine.equal left right).isYes = true) :
    db.arrivals ctx kind pathEnd steps (.entity left) last =
      db.arrivals ctx kind pathEnd steps (.entity right) last' := by
  cases steps with
  | nil => exact absurd rfl hsteps
  | cons step rest =>
      have hrows : db.slotRows ctx (.entity left) step.name =
          db.slotRows ctx (.entity right) step.name := by
        simp only [Database.slotRows, Place.owns_congr h]
      simp only [Database.arrivals, hrows]

/-!
# Outer walks

An outer walk always leads somewhere. Where it leads to a value, it has found a
row at every step, so an inner walk leads there too.
-/

theorem JoinKind.left_continues_ne_nil (found : List (Row engine)) :
    JoinKind.left.continues found ≠ [] := by
  cases found <;> simp [JoinKind.continues]

theorem JoinKind.mem_left_continues {found : List (Row engine)} {row : Row engine}
    (h : row ∈ JoinKind.left.continues found) : row ∈ found ∨ row = Row.missing := by
  cases found with
  | nil => exact Or.inr (List.mem_singleton.mp h)
  | cons first rest => exact Or.inl h

theorem JoinKind.mem_left_continues_of_mem {found : List (Row engine)} {row : Row engine}
    (h : row ∈ found) : row ∈ JoinKind.left.continues found := by
  cases found with
  | nil => cases h
  | cons first rest => exact h

@[simp] theorem JoinKind.inner_continues (found : List (Row engine)) :
    JoinKind.inner.continues found = found := by
  cases found <;> rfl

/-- A place where no slot has rows, because it was not found itself. -/
inductive Place.IsLost : Place engine → Prop where
  | entity : Place.IsLost (.entity none)
  | row : Place.IsLost (.row Row.missing)

theorem Place.IsLost.slotRows_eq_nil {place : Place engine} (h : place.IsLost)
    (db : Database engine) (ctx : Context) (name : QualifiedName) :
    db.slotRows ctx place name = [] := by
  unfold Database.slotRows
  cases ctx.schema.slot? name with
  | none => rfl
  | some info =>
      apply List.filter_eq_nil_iff.mpr
      intro row _
      cases h with
      | entity => simp [Place.owns]
      | row => simp [Place.owns, Row.missing]

theorem Database.targets_missing (db : Database engine) (layout : Layout) :
    db.targets layout Row.missing = [] := by
  apply List.filter_eq_nil_iff.mpr
  intro entity _
  simp [Row.missing]

namespace Database

variable {db : Database engine} {ctx : Context} {pathEnd : PathEnd}

theorem arrivals_left_ne_nil (steps : List PathStep) (place : Place engine)
    (last : Arrival engine) : db.arrivals ctx .left pathEnd steps place last ≠ [] := by
  induction steps generalizing place last with
  | nil => simp [arrivals]
  | cons step rest ih =>
      intro h
      rw [arrivals, List.flatMap_eq_nil_iff] at h
      rcases List.exists_mem_of_ne_nil _ (JoinKind.left_continues_ne_nil
        (db.slotRows ctx place step.name)) with ⟨slot, hslot⟩
      have hrest := h slot hslot
      split at hrest
      · split at hrest
        · cases hrest
        · rw [List.flatMap_eq_nil_iff] at hrest
          rcases List.exists_mem_of_ne_nil _ (JoinKind.left_continues_ne_nil
            (db.targets ctx.layout slot)) with ⟨entity, hentity⟩
          exact ih _ _ (hrest entity hentity)
      · exact ih _ _ hrest

theorem value_eq_none_of_isLost {steps : List PathStep} {place : Place engine}
    {last arrival : Arrival engine} (hplace : place.IsLost)
    (hlast : last.value ctx.layout = none)
    (h : arrival ∈ db.arrivals ctx .left pathEnd steps place last) :
    arrival.value ctx.layout = none := by
  induction steps generalizing place last with
  | nil =>
      rw [List.mem_singleton.mp h]
      exact hlast
  | cons step rest ih =>
      simp only [arrivals, hplace.slotRows_eq_nil, JoinKind.continues, List.flatMap_cons,
        List.flatMap_nil, List.append_nil, targets_missing] at h
      split at h
      · split at h
        · rw [List.mem_singleton.mp h]
          rfl
        · exact ih Place.IsLost.entity rfl h
      · exact ih Place.IsLost.row rfl h

theorem mem_inner_of_mem_left {steps : List PathStep} {place : Place engine}
    {last arrival : Arrival engine}
    (h : arrival ∈ db.arrivals ctx .left pathEnd steps place last)
    (hvalue : arrival.value ctx.layout ≠ none) :
    arrival ∈ db.arrivals ctx .inner pathEnd steps place last := by
  induction steps generalizing place last with
  | nil => exact h
  | cons step rest ih =>
      simp only [arrivals, JoinKind.inner_continues, List.mem_flatMap] at h ⊢
      rcases h with ⟨slot, hslot, harrival⟩
      rcases JoinKind.mem_left_continues hslot with hfound | hmissing
      · refine ⟨slot, hfound, ?_⟩
        split at harrival
        · rename_i hassociation
          rw [if_pos hassociation]
          split at harrival
          · rename_i hend
            rw [if_pos hend]
            exact harrival
          · rename_i hend
            rw [if_neg hend]
            simp only [List.mem_flatMap] at harrival ⊢
            rcases harrival with ⟨entity, hentity, hrest⟩
            rcases JoinKind.mem_left_continues hentity with hfound' | hmissing'
            · exact ⟨entity, hfound', ih hrest⟩
            · subst hmissing'
              exact absurd (value_eq_none_of_isLost Place.IsLost.entity rfl hrest) hvalue
        · rename_i hassociation
          rw [if_neg hassociation]
          exact ih harrival
      · -- Nothing was found here, so nothing is found later either.
        subst hmissing
        refine absurd ?_ hvalue
        split at harrival
        · split at harrival
          · rw [List.mem_singleton.mp harrival]
            rfl
          · simp only [targets_missing, JoinKind.continues, List.flatMap_cons, List.flatMap_nil,
              List.append_nil] at harrival
            exact value_eq_none_of_isLost Place.IsLost.entity rfl harrival
        · exact value_eq_none_of_isLost Place.IsLost.row rfl harrival

theorem mem_left_of_mem_inner {steps : List PathStep} {place : Place engine}
    {last arrival : Arrival engine}
    (h : arrival ∈ db.arrivals ctx .inner pathEnd steps place last) :
    arrival ∈ db.arrivals ctx .left pathEnd steps place last := by
  induction steps generalizing place last with
  | nil => exact h
  | cons step rest ih =>
      simp only [arrivals, JoinKind.inner_continues, List.mem_flatMap] at h ⊢
      rcases h with ⟨slot, hslot, harrival⟩
      refine ⟨slot, JoinKind.mem_left_continues_of_mem hslot, ?_⟩
      split at harrival
      · rename_i hassociation
        rw [if_pos hassociation]
        split at harrival
        · rename_i hend
          rw [if_pos hend]
          exact harrival
        · rename_i hend
          rw [if_neg hend]
          simp only [List.mem_flatMap] at harrival ⊢
          rcases harrival with ⟨entity, hentity, hrest⟩
          exact ⟨entity, JoinKind.mem_left_continues_of_mem hentity, ih hrest⟩
      · rename_i hassociation
        rw [if_neg hassociation]
        exact ih harrival

/-- A test that a missing value fails does not see the difference between the two walks. -/
theorem exists_inner_iff_left {steps : List PathStep} {place : Place engine}
    {last : Arrival engine} (test : Option engine.Cell → Bool) (htest : test none = false) :
    (∃ arrival ∈ db.arrivals ctx .inner pathEnd steps place last,
        test (arrival.value ctx.layout) = true) ↔
      ∃ arrival ∈ db.arrivals ctx .left pathEnd steps place last,
        test (arrival.value ctx.layout) = true := by
  constructor
  · intro h
    rcases h with ⟨arrival, harrival, hpasses⟩
    exact ⟨arrival, mem_left_of_mem_inner harrival, hpasses⟩
  · intro h
    rcases h with ⟨arrival, harrival, hpasses⟩
    refine ⟨arrival, mem_inner_of_mem_left harrival ?_, hpasses⟩
    intro hnone
    rw [hnone, htest] at hpasses
    cases hpasses

end Database

end

end SlotQuery
