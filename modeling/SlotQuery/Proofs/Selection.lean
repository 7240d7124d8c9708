import SlotQuery.Proofs.Joins

/-!
# What a leaf selects

The filter of a leaf is one select: the entities of the requested types, the
joins along a path, and conditions on the tables that were reached. Its rows are
the ways along the path, taken from each entity of the universe.
-/

namespace SlotQuery

variable {engine : Engine} {db : Database engine} {ctx : Context}

/-!
# The universe

The entities of the requested types. An entity is known by its key, so entity
rows with equal keys count as one.
-/

namespace Database

/-- Whether the key belongs to an entity of one of the requested types. -/
def inUniverse (db : Database engine) (ctx : Context) (key : engine.Cell) : Bool :=
  (db.rows ctx.layout.entityTable).any fun entity =>
    (engine.equal (entity ctx.layout.entityKeyColumn) (some key)).isYes &&
      (db.rows ctx.layout.typeTable).any fun membership =>
        (engine.equal (membership ctx.layout.entityKeyColumn)
          (entity ctx.layout.entityKeyColumn)).isYes &&
        (membership ctx.layout.typeIdColumn).any fun cell =>
          ctx.typeIds.any fun id => engine.same cell (engine.ofTypeId id)

end Database

def Context.typeFilter (ctx : Context) : Condition :=
  .inList { qualifier := .types, name := ctx.layout.typeIdColumn } ctx.typeIds

/-- A source of a select that belongs to the key and passes the filter on types. -/
structure Context.StartsAt (ctx : Context) (db : Database engine) (outer : Scope engine)
    (key : engine.Cell) (source : Scope engine) : Prop where
  mem : source ∈ Select.sources db ctx.layout outer
  typed : (Condition.truth db ctx.layout source ctx.typeFilter).isYes = true
  key : (engine.equal (Select.entityKey ctx.layout source) (some key)).isYes = true

theorem Select.mem_sources_iff {layout : Layout} {outer source : Scope engine} :
    source ∈ Select.sources db layout outer ↔
      ∃ entity ∈ db.rows layout.entityTable, ∃ membership ∈ db.rows layout.typeTable,
        (engine.equal (membership layout.entityKeyColumn)
          (entity layout.entityKeyColumn)).isYes = true ∧
        source = (outer.bind (.table .root) entity).bind .types membership := by
  simp only [Select.sources, List.mem_flatMap, List.mem_map, List.mem_filter]
  constructor
  · intro h
    rcases h with ⟨entity, hentity, membership, ⟨hmembership, hequal⟩, hsource⟩
    exact ⟨entity, hentity, membership, hmembership, hequal, hsource.symm⟩
  · intro h
    rcases h with ⟨entity, hentity, membership, hmembership, hequal, hsource⟩
    exact ⟨entity, hentity, membership, ⟨hmembership, hequal⟩, hsource.symm⟩

theorem Select.entityKey_source (layout : Layout) (outer : Scope engine)
    (entity membership : Row engine) :
    Select.entityKey layout ((outer.bind (.table .root) entity).bind .types membership) =
      entity layout.entityKeyColumn := by
  have hne : Qualifier.table .root ≠ .types := by
    intro heq
    cases heq
  simp [Select.entityKey, Scope.read_column, Scope.bind_of_ne _ _ hne]

theorem Context.truth_typeFilter (ctx : Context) (scope : Scope engine) :
    (Condition.truth db ctx.layout scope ctx.typeFilter).isYes =
      (scope .types ctx.layout.typeIdColumn).any fun cell =>
        ctx.typeIds.any fun id => engine.same cell (engine.ofTypeId id) := by
  simp only [Context.typeFilter, Condition.truth, Truth.isYes_ofTest]
  rfl

theorem Context.exists_startsAt_iff (outer : Scope engine) {key : engine.Cell} :
    (∃ source, ctx.StartsAt db outer key source) ↔ db.inUniverse ctx key = true := by
  simp only [Database.inUniverse, List.any_eq_true, Bool.and_eq_true]
  constructor
  · intro h
    rcases h with ⟨source, hmem, htyped, hkey⟩
    rcases Select.mem_sources_iff.mp hmem with
      ⟨entity, hentity, membership, hmembership, hequal, hsource⟩
    subst hsource
    rw [Select.entityKey_source] at hkey
    rw [Context.truth_typeFilter, Scope.bind_self] at htyped
    exact ⟨entity, hentity, hkey, membership, hmembership, hequal, htyped⟩
  · intro h
    rcases h with ⟨entity, hentity, hkey, membership, hmembership, hequal, htyped⟩
    refine ⟨(outer.bind (.table .root) entity).bind .types membership, ?_, ?_, ?_⟩
    · exact Select.mem_sources_iff.mpr
        ⟨entity, hentity, membership, hmembership, hequal, rfl⟩
    · rw [Context.truth_typeFilter, Scope.bind_self]
      exact htyped
    · rw [Select.entityKey_source]
      exact hkey

/-!
# Selects over joins

The key and the type of a row are those of its source, whatever was joined.
-/

/-- A select of entities with these joins, conditions and counted column. -/
def Context.selectWith (ctx : Context) (joins : List Join) (conditions : List Condition)
    (having : Option Having) : Select :=
  { ctx.allEntities.query with
    joins := joins
    conditions := ctx.typeFilter :: conditions
    having := having }

/-- No join of a list binds the table of the entity itself. -/
def Join.SpareRoot (joins : List Join) : Prop :=
  ∀ join ∈ joins, 1 ≤ join.target.index

theorem Join.SpareRoot.entityKey {joins : List Join} (h : Join.SpareRoot joins)
    {source scope : Scope engine}
    (hscope : scope ∈ Join.extendAll db ctx.layout source joins) :
    Select.entityKey ctx.layout scope = Select.entityKey ctx.layout source := by
  have hroot : scope (.table .root) = source (.table .root) := by
    apply Join.extendAll_frame hscope
    intro join hjoin heq
    have hindex := h join hjoin
    rw [← Qualifier.table.inj heq] at hindex
    exact absurd hindex (by decide)
  simp only [Select.entityKey, Scope.read_column, hroot]

theorem Context.mem_group_selectWith_iff {outer scope : Scope engine} {key : engine.Cell}
    {joins : List Join} {conditions : List Condition} {having : Option Having}
    (hjoins : Join.SpareRoot joins) :
    scope ∈ Select.group ctx.layout key
        (Select.scopes db ctx.layout outer (ctx.selectWith joins conditions having)) ↔
      ∃ source, ctx.StartsAt db outer key source ∧
        scope ∈ Join.extendAll db ctx.layout source joins ∧
        (Condition.allTruth db ctx.layout scope conditions).isYes = true := by
  have hscopes : Select.scopes db ctx.layout outer (ctx.selectWith joins conditions having) =
      ((Select.sources db ctx.layout outer).flatMap fun source =>
        Join.extendAll db ctx.layout source joins).filter fun scope =>
          (Condition.allTruth db ctx.layout scope (ctx.typeFilter :: conditions)).isYes := by
    simp only [Context.selectWith, Select.scopes]
  simp only [hscopes, Select.group, List.mem_filter, List.mem_flatMap, Condition.allTruth,
    Truth.isYes_and, Bool.and_eq_true]
  constructor
  · intro h
    rcases h with ⟨⟨⟨source, hsource, hscope⟩, htyped, hconditions⟩, hkey⟩
    refine ⟨source, ⟨hsource, ?_, ?_⟩, hscope, hconditions⟩
    · rw [Context.truth_typeFilter, Join.extendAll_types hscope] at htyped
      rw [Context.truth_typeFilter]
      exact htyped
    · rw [hjoins.entityKey hscope] at hkey
      exact hkey
  · intro h
    rcases h with ⟨source, ⟨hsource, htyped, hkey⟩, hscope, hconditions⟩
    refine ⟨⟨⟨source, hsource, hscope⟩, ?_, hconditions⟩, ?_⟩
    · rw [Context.truth_typeFilter] at htyped
      rw [Context.truth_typeFilter, Join.extendAll_types hscope]
      exact htyped
    · rw [hjoins.entityKey hscope]
      exact hkey

theorem Context.selects_selectWith_iff {outer : Scope engine} {key : engine.Cell}
    {joins : List Join} {conditions : List Condition} (hjoins : Join.SpareRoot joins) :
    (Filter.select (ctx.selectWith joins conditions none)).selects db ctx.layout outer key =
        true ↔
      ∃ source, ctx.StartsAt db outer key source ∧
        ∃ scope ∈ Join.extendAll db ctx.layout source joins,
          (Condition.allTruth db ctx.layout scope conditions).isYes = true := by
  have hselects : (Filter.select (ctx.selectWith joins conditions none)).selects db ctx.layout
      outer key = !(Select.group ctx.layout key
        (Select.scopes db ctx.layout outer (ctx.selectWith joins conditions none))).isEmpty := by
    simp only [Filter.selects, Select.keepsGroup, Context.selectWith]
  rw [hselects, Bool.not_eq_true', List.isEmpty_eq_false_iff_exists_mem]
  simp only [Context.mem_group_selectWith_iff hjoins]
  constructor
  · intro h
    rcases h with ⟨scope, source, hsource, hscope, hconditions⟩
    exact ⟨source, hsource, scope, hscope, hconditions⟩
  · intro h
    rcases h with ⟨source, hsource, scope, hscope, hconditions⟩
    exact ⟨scope, source, hsource, hscope, hconditions⟩

/-- What the rows of each source come down to, the select comes down to within the universe. -/
theorem Context.selects_of_scopes {outer : Scope engine} {key : engine.Cell} {joins : List Join}
    {conditions : List Condition} {found : Prop} (hjoins : Join.SpareRoot joins)
    (h : ∀ source, ctx.StartsAt db outer key source →
      ((∃ scope ∈ Join.extendAll db ctx.layout source joins,
        (Condition.allTruth db ctx.layout scope conditions).isYes = true) ↔ found)) :
    (Filter.select (ctx.selectWith joins conditions none)).selects db ctx.layout outer key =
        true ↔
      db.inUniverse ctx key = true ∧ found := by
  rw [Context.selects_selectWith_iff hjoins, ← Context.exists_startsAt_iff outer]
  constructor
  · intro hselects
    rcases hselects with ⟨source, hsource, hscope⟩
    exact ⟨⟨source, hsource⟩, (h source hsource).mp hscope⟩
  · intro huniverse
    rcases huniverse with ⟨⟨source, hsource⟩, hfound⟩
    exact ⟨source, hsource, (h source hsource).mpr hfound⟩

/-- With a count that is at least one, enough distinct cells are all that is asked for. -/
theorem Context.selects_having_iff {outer : Scope engine} {key : engine.Cell}
    {joins : List Join} {conditions : List Condition} {having : Having}
    (hjoins : Join.SpareRoot joins) (hmin : 0 < having.min) :
    (Filter.select (ctx.selectWith joins conditions (some having))).selects db ctx.layout
        outer key = true ↔
      engine.HasDistinct having.min fun cell =>
        ∃ source, ctx.StartsAt db outer key source ∧
          ∃ scope ∈ Join.extendAll db ctx.layout source joins,
            (Condition.allTruth db ctx.layout scope conditions).isYes = true ∧
            scope.read having.column = some cell := by
  have hselects : (Filter.select (ctx.selectWith joins conditions (some having))).selects db
      ctx.layout outer key = Select.keepsGroup (some having) (Select.group ctx.layout key
        (Select.scopes db ctx.layout outer
          (ctx.selectWith joins conditions (some having)))) := by
    simp only [Filter.selects, Context.selectWith]
  rw [hselects]
  simp only [Select.keepsGroup, Bool.and_eq_true, Bool.not_eq_true', decide_eq_true_eq,
    Engine.le_distinctCount_iff, List.mem_filterMap, Context.mem_group_selectWith_iff hjoins]
  constructor
  · intro h
    apply h.right.mono
    intro cell hcell
    rcases hcell with ⟨scope, ⟨source, hsource, hscope, hconditions⟩, hread⟩
    exact ⟨source, hsource, scope, hscope, hconditions, hread⟩
  · intro h
    constructor
    · rcases h.exists hmin with ⟨cell, source, hsource, scope, hscope, hconditions, _⟩
      apply List.isEmpty_eq_false_iff_exists_mem.mpr
      exact ⟨scope, (Context.mem_group_selectWith_iff hjoins).mpr
        ⟨source, hsource, hscope, hconditions⟩⟩
    · apply h.mono
      intro cell hcell
      rcases hcell with ⟨source, hsource, scope, hscope, hconditions, hread⟩
      exact ⟨scope, ⟨source, hsource, hscope, hconditions⟩, hread⟩

/-!
# Leaves on one path
-/

theorem Draft.Grows.spareRoot {draft draft' : Draft} {joins : List Join}
    (h : draft.Grows joins draft') (hpos : 1 ≤ draft.nextIndex) : Join.SpareRoot joins := by
  intro join hjoin
  exact Nat.le_trans hpos (h.fresh join hjoin).left

theorem Context.allEntities_settled (ctx : Context) : ctx.allEntities.Settled 0 :=
  fun _ _ => rfl

theorem Context.follow_spec (db : Database engine) {path : Path} {kind : JoinKind}
    {pathEnd : PathEnd} {reached : Reached} {draft : Draft}
    (h : ctx.allEntities.follow ctx path kind pathEnd = .ok (reached, draft)) :
    ∃ joins, ctx.allEntities.Grows joins draft ∧ reached.IsLatest draft ∧
      ∀ (outer : Scope engine) (key : engine.Cell) (source : Scope engine),
        ctx.StartsAt db outer key source →
          (Join.extendAll db ctx.layout source joins).map reached.arrival =
            db.reach ctx kind pathEnd path key := by
  have hlatest : Reached.IsLatest { slot := Alias.root, target := none } ctx.allEntities :=
    fun _ => ⟨rfl, ctx.allEntities_settled⟩
  rcases Draft.followSteps_spec db h Nat.one_pos ctx.allEntities_settled hlatest with
    ⟨joins, hgrows, hlatest', hmap⟩
  refine ⟨joins, hgrows, hlatest', ?_⟩
  intro outer key source hsource
  rw [hmap source]
  exact Database.arrivals_congr path.steps_ne_nil hsource.key

/-- A condition on the column that a path leads to tests where the path leads. -/
theorem Context.selects_leaf_iff {path : Path} {kind : JoinKind} {pathEnd : PathEnd}
    {reached : Reached} {draft : Draft}
    (h : ctx.allEntities.follow ctx path kind pathEnd = .ok (reached, draft))
    {condition : Condition} (test : Option engine.Cell → Bool)
    (hcondition : ∀ scope : Scope engine,
      (Condition.truth db ctx.layout scope condition).isYes =
        test (scope.read (reached.valueColumn ctx)))
    (outer : Scope engine) (key : engine.Cell) :
    (Filter.select (draft.addCondition condition).query).selects db ctx.layout outer key =
        true ↔
      db.inUniverse ctx key = true ∧ ∃ arrival ∈ db.reach ctx kind pathEnd path key,
        test (arrival.value ctx.layout) = true := by
  rcases Context.follow_spec db h with ⟨joins, hgrows, _, hmap⟩
  have hquery : (draft.addCondition condition).query =
      ctx.selectWith joins [condition] none := by
    simp only [Draft.addCondition, hgrows.query]
    rfl
  rw [hquery]
  apply Context.selects_of_scopes (hgrows.spareRoot (Nat.le_refl _))
  intro source hsource
  have htest : ∀ scope : Scope engine,
      (Condition.allTruth db ctx.layout scope [condition]).isYes =
        test ((reached.arrival scope).value ctx.layout) := by
    intro scope
    rw [← Reached.read_valueColumn, ← hcondition, Condition.allTruth, Condition.allTruth,
      Truth.and_yes]
  simp only [← hmap outer key source hsource, htest, List.mem_map]
  constructor
  · intro h
    rcases h with ⟨scope, hscope, hpasses⟩
    exact ⟨reached.arrival scope, ⟨scope, hscope, rfl⟩, hpasses⟩
  · intro h
    rcases h with ⟨_, ⟨scope, hscope, rfl⟩, hpasses⟩
    exact ⟨scope, hscope, hpasses⟩

end SlotQuery
