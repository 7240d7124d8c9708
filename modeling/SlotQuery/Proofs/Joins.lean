import SlotQuery.Proofs.Navigation

/-!
# Joins along a path

The joins that a path adds to a draft reach exactly the rows that the path leads
to. A draft gives out table numbers in order and remembers joins by the row they
start from, so a walk from a row that nothing was joined to yet adds every join
anew.
-/

namespace SlotQuery

/-!
# Successful compilations
-/

theorem bind_eq_ok {ε α β : Type} {first : Except ε α} {next : α → Except ε β} {result : β} :
    (first >>= next) = .ok result ↔ ∃ value, first = .ok value ∧ next value = .ok result := by
  cases first with
  | error error => simp [bind, Except.bind]
  | ok value => simp [bind, Except.bind]

theorem pure_eq_ok {ε α : Type} {value result : α} :
    (pure value : Except ε α) = .ok result ↔ value = result := by
  simp [pure, Except.pure]

theorem ensure_eq_ok {holds : Bool} {error : CompileError} {result : Unit} :
    ensure holds error = .ok result ↔ holds = true := by
  cases holds <;> simp [ensure]

theorem Context.slotInfo_eq_ok {ctx : Context} {name : QualifiedName} {info : SlotInfo} :
    ctx.slotInfo name = .ok info ↔ ctx.schema.slot? name = some info := by
  unfold Context.slotInfo
  cases ctx.schema.slot? name with
  | none => simp
  | some found => simp

/-!
# Single joins

A slot that is asked for again is found in the draft. Otherwise one join is
added, which extends a scope by the rows of the slot that belong to its origin.
-/

def slotJoin (ctx : Context) (origin : Origin) (target : Alias) (info : SlotInfo)
    (kind : JoinKind) : Join :=
  { source := origin.occurrence
    target := target
    table := info.table
    kind := kind
    conditions := slotJoinConditions ctx.layout origin target }

def targetJoin (ctx : Context) (slot target : Alias) (kind : JoinKind) : Join :=
  { source := slot
    target := target
    table := ctx.layout.entityTable
    kind := kind
    conditions := [.columnEq (target.column ctx.layout.entityKeyColumn)
      (slot.column ctx.layout.valueColumn)] }

/-- The table that a join starts from. -/
def JoinKey.source : JoinKey → Alias
  | .slot row _ => row
  | .target row => row

namespace Draft

/-- The number that is given out next. -/
def next (draft : Draft) : Alias :=
  { index := draft.nextIndex }

def withJoin (draft : Draft) (key : JoinKey) (join : Join) : Draft :=
  draft.takeAlias.snd.addJoin key join

theorem withJoin_known?_self (draft : Draft) (key : JoinKey) (join : Join) :
    (draft.withJoin key join).known? key = some join.target := by
  simp [withJoin, known?, addJoin, takeAlias]

theorem withJoin_known?_of_ne {draft : Draft} {key other : JoinKey} (join : Join)
    (h : other ≠ key) : (draft.withJoin key join).known? other = draft.known? other := by
  have hbeq : (other == key) = false := by simp [h]
  simp [withJoin, known?, addJoin, takeAlias, List.lookup_cons, hbeq]

/-- One join after another is found again, or added with the next number. -/
theorem joinSlot_cases {ctx : Context} {origin : Origin} {name : QualifiedName} {kind : JoinKind}
    {draft draft' : Draft} {slot : Alias}
    (h : draft.joinSlot ctx origin name kind = .ok (slot, draft')) :
    (draft.known? (.slot origin.occurrence name) = some slot ∧ draft' = draft) ∨
      (draft.known? (.slot origin.occurrence name) = none ∧
        ∃ info, ctx.schema.slot? name = some info ∧ slot = draft.next ∧
          draft' = draft.withJoin (.slot origin.occurrence name)
            (slotJoin ctx origin draft.next info kind)) := by
  cases hknown : draft.known? (.slot origin.occurrence name) with
  | some found =>
      simp only [joinSlot, hknown, Except.ok.injEq, Prod.mk.injEq] at h
      rcases h with ⟨hslot, hdraft⟩
      exact Or.inl ⟨congrArg some hslot, hdraft.symm⟩
  | none =>
      simp only [joinSlot, hknown, bind_eq_ok, pure_eq_ok, Context.slotInfo_eq_ok] at h
      rcases h with ⟨info, hinfo, hresult⟩
      cases hresult
      exact Or.inr ⟨rfl, info, hinfo, rfl, rfl⟩

theorem joinTarget_eq {ctx : Context} {slot : Alias} {kind : JoinKind} {draft : Draft}
    (h : draft.known? (.target slot) = none) :
    draft.joinTarget ctx slot kind =
      (draft.next, draft.withJoin (.target slot) (targetJoin ctx slot draft.next kind)) := by
  unfold joinTarget
  simp only [h]
  rfl

/-- Nothing was joined yet to a table with this number or a later one. -/
def Settled (draft : Draft) (index : Nat) : Prop :=
  ∀ key : JoinKey, index ≤ key.source.index → draft.known? key = none

theorem Settled.mono {draft : Draft} {index later : Nat} (h : draft.Settled index)
    (hle : index ≤ later) : draft.Settled later :=
  fun key hkey => h key (Nat.le_trans hle hkey)

theorem Settled.withJoin {draft : Draft} {index : Nat} {key : JoinKey} (join : Join)
    (h : draft.Settled index) (hkey : key.source.index < index) :
    (draft.withJoin key join).Settled index := by
  intro other hother
  have hne : other ≠ key := by
    intro heq
    rw [heq] at hother
    omega
  rw [withJoin_known?_of_ne join hne]
  exact h other hother

end Draft

section

variable {engine : Engine} {db : Database engine} {ctx : Context}

/-- The place that an origin stands for, given the rows of the tables. -/
def Origin.place (layout : Layout) (scope : Scope engine) : Origin → Place engine
  | .entity occurrence => .entity (scope.read (occurrence.column layout.entityKeyColumn))
  | .row occurrence => .row (scope (.table occurrence))

def Reached.arrival (scope : Scope engine) (reached : Reached) : Arrival engine :=
  { slot := scope (.table reached.slot)
    target := reached.target.map fun entity => scope (.table entity) }

theorem Reached.read_valueColumn (scope : Scope engine) (reached : Reached) :
    scope.read (reached.valueColumn ctx) = (reached.arrival scope).value ctx.layout := by
  cases reached with
  | mk slot target => cases target <;> rfl

theorem Scope.read_column (scope : Scope engine) (occurrence : Alias) (name : String) :
    scope.read (occurrence.column name) = scope (.table occurrence) name :=
  rfl

theorem Scope.bind_table_of_ne {occurrence other : Alias} (scope : Scope engine)
    (row : Row engine) (h : other ≠ occurrence) :
    scope.bind (.table occurrence) row (.table other) = scope (.table other) := by
  apply Scope.bind_of_ne
  intro heq
  cases heq
  exact h rfl

theorem extend_slotJoin {origin : Origin} {target : Alias} {name : QualifiedName}
    {info : SlotInfo} (kind : JoinKind) (scope : Scope engine)
    (hinfo : ctx.schema.slot? name = some info) (hne : origin.occurrence ≠ target) :
    Join.extend db ctx.layout scope (slotJoin ctx origin target info kind) =
      (kind.continues (db.slotRows ctx (origin.place ctx.layout scope) name)).map fun row =>
        scope.bind (.table target) row := by
  have hfound : ∀ row : Row engine,
      (Condition.allTruth db ctx.layout (scope.bind (.table target) row)
        (slotJoinConditions ctx.layout origin target)).isYes =
        (origin.place ctx.layout scope).owns ctx.layout row := by
    intro row
    have hsource := Scope.bind_table_of_ne scope row hne
    cases origin with
    | entity occurrence =>
        simp only [Origin.occurrence] at hsource
        simp [slotJoinConditions, Origin.isNested, Condition.allTruth, Condition.truth,
          Origin.occurrence, Origin.place, Place.owns, Scope.read_column, hsource]
    | row occurrence =>
        simp only [Origin.occurrence] at hsource
        simp [slotJoinConditions, Origin.isNested, Condition.allTruth, Condition.truth,
          Origin.occurrence, Origin.place, Place.owns, Scope.read_column, hsource]
  simp only [slotJoin, Join.extend, hfound, Database.slotRows, hinfo]

theorem extend_targetJoin {slot target : Alias} (kind : JoinKind) (scope : Scope engine)
    (hne : slot ≠ target) :
    Join.extend db ctx.layout scope (targetJoin ctx slot target kind) =
      (kind.continues (db.targets ctx.layout (scope (.table slot)))).map fun row =>
        scope.bind (.table target) row := by
  simp only [targetJoin, Join.extend, Condition.allTruth, Condition.truth, Truth.and_yes,
    Scope.read_column, Scope.bind_self, Scope.bind_table_of_ne scope _ hne, Database.targets]

/-!
# Drafts that grow

Compiling adds joins at the end of a draft, each with a number of its own, and
leaves the rest of the query alone.
-/

structure Draft.Grows (draft : Draft) (joins : List Join) (draft' : Draft) : Prop where
  query : draft'.query = { draft.query with joins := draft.query.joins ++ joins }
  le : draft.nextIndex ≤ draft'.nextIndex
  fresh : ∀ join ∈ joins, draft.nextIndex ≤ join.target.index ∧
    join.target.index < draft'.nextIndex

namespace Draft.Grows

theorem refl (draft : Draft) : draft.Grows [] draft where
  query := by cases draft.query; simp
  le := Nat.le_refl _
  fresh := by simp

theorem trans {draft middle draft' : Draft} {joins later : List Join}
    (h : draft.Grows joins middle) (h' : middle.Grows later draft') :
    draft.Grows (joins ++ later) draft' where
  query := by rw [h'.query, h.query]; simp
  le := Nat.le_trans h.le h'.le
  fresh := by
    intro join hjoin
    have hle := h.le
    have hle' := h'.le
    rcases List.mem_append.mp hjoin with hfirst | hlater
    · have hbounds := h.fresh join hfirst
      omega
    · have hbounds := h'.fresh join hlater
      omega

theorem withJoin (draft : Draft) (key : JoinKey) {join : Join}
    (htarget : join.target = draft.next) : draft.Grows [join] (draft.withJoin key join) where
  query := rfl
  le := Nat.le_succ _
  fresh := by
    intro other hother
    rw [List.mem_singleton.mp hother, htarget]
    exact ⟨Nat.le_refl _, Nat.lt_succ_self _⟩

/-- Tables that the draft had are not touched by what was added. -/
theorem frame {draft draft' : Draft} {joins : List Join} (h : draft.Grows joins draft')
    {scope extended : Scope engine}
    (hextended : extended ∈ Join.extendAll db ctx.layout scope joins) {occurrence : Alias}
    (hold : occurrence.index < draft.nextIndex) :
    extended (.table occurrence) = scope (.table occurrence) := by
  apply Join.extendAll_frame hextended
  intro join hjoin heq
  cases heq
  have hbounds := h.fresh join hjoin
  omega

end Draft.Grows

theorem Join.extendAll_types {scope extended : Scope engine} {joins : List Join}
    (h : extended ∈ Join.extendAll db ctx.layout scope joins) :
    extended .types = scope .types := by
  apply Join.extendAll_frame h
  intro join _ heq
  cases heq

/-!
# Whole paths

By induction on the steps. Each step starts from a table that nothing was joined
to yet, and ends at one with a later number.
-/

/-- What one join from a table without joins does: it binds the latest table. -/
structure Draft.Binds (draft : Draft) (db : Database engine) (ctx : Context)
    (rows : Scope engine → List (Row engine)) (occurrence : Alias) (draft' : Draft) : Prop where
  exists_join : ∃ join, draft.Grows [join] draft' ∧ ∀ scope,
    Join.extend db ctx.layout scope join =
      (rows scope).map fun row => scope.bind (.table occurrence) row
  fresh : draft.nextIndex ≤ occurrence.index
  next : draft'.nextIndex = occurrence.index + 1
  settled : draft'.Settled occurrence.index

theorem Draft.joinSlot_binds (db : Database engine) {kind : JoinKind} {origin : Origin}
    {name : QualifiedName} {draft draft' : Draft} {slot : Alias}
    (h : draft.joinSlot ctx origin name kind = .ok (slot, draft'))
    (horigin : origin.occurrence.index < draft.nextIndex)
    (hsettled : draft.Settled origin.occurrence.index) :
    draft.Binds db ctx
      (fun scope => kind.continues (db.slotRows ctx (origin.place ctx.layout scope) name))
      slot draft' := by
  rcases joinSlot_cases h with ⟨hknown, _⟩ | ⟨_, info, hinfo, hslot, hdraft⟩
  · rw [hsettled _ (Nat.le_refl _)] at hknown
    cases hknown
  · subst hslot hdraft
    constructor
    · refine ⟨_, Grows.withJoin draft _ rfl, ?_⟩
      intro scope
      apply extend_slotJoin kind scope hinfo
      intro heq
      rw [heq] at horigin
      exact Nat.lt_irrefl _ horigin
    · exact Nat.le_refl _
    · rfl
    · exact (hsettled.mono (Nat.le_of_lt horigin)).withJoin _ horigin

theorem Draft.joinTarget_binds (db : Database engine) (ctx : Context) (kind : JoinKind)
    {draft : Draft} {slot : Alias}
    (hslot : slot.index < draft.nextIndex) (hsettled : draft.Settled slot.index) :
    draft.Binds db ctx
      (fun scope => kind.continues (db.targets ctx.layout (scope (.table slot))))
      (draft.joinTarget ctx slot kind).fst (draft.joinTarget ctx slot kind).snd := by
  rw [joinTarget_eq (hsettled (.target slot) (Nat.le_refl _))]
  constructor
  · refine ⟨_, Grows.withJoin draft _ rfl, ?_⟩
    intro scope
    apply extend_targetJoin kind scope
    intro heq
    rw [heq] at hslot
    exact Nat.lt_irrefl _ hslot
  · exact Nat.le_refl _
  · rfl
  · exact (hsettled.mono (Nat.le_of_lt hslot)).withJoin _ hslot

/-- A slot where a walk has stopped is the latest table, and nothing was joined to it yet. -/
def Reached.IsLatest (reached : Reached) (draft : Draft) : Prop :=
  reached.target = none →
    draft.nextIndex = reached.slot.index + 1 ∧ draft.Settled reached.slot.index

theorem Reached.IsLatest.addCondition {reached : Reached} {draft : Draft}
    (h : reached.IsLatest draft) (condition : Condition) :
    reached.IsLatest (draft.addCondition condition) :=
  h

theorem Draft.followSteps_spec (db : Database engine) {kind : JoinKind} {pathEnd : PathEnd}
    {steps : List PathStep} {origin : Origin} {reached reached' : Reached} {draft draft' : Draft}
    (h : draft.followSteps ctx kind pathEnd steps origin reached = .ok (reached', draft'))
    (horigin : origin.occurrence.index < draft.nextIndex)
    (hsettled : draft.Settled origin.occurrence.index) (hlatest : reached.IsLatest draft) :
    ∃ joins, draft.Grows joins draft' ∧ reached'.IsLatest draft' ∧
      ∀ scope : Scope engine,
        (Join.extendAll db ctx.layout scope joins).map reached'.arrival =
          db.arrivals ctx kind pathEnd steps (origin.place ctx.layout scope)
            (reached.arrival scope) := by
  induction steps generalizing origin reached draft with
  | nil =>
      cases h
      refine ⟨[], Grows.refl _, hlatest, ?_⟩
      intro scope
      simp [Join.extendAll, Database.arrivals]
  | cons step rest ih =>
      simp only [followSteps, bind_eq_ok] at h
      rcases h with ⟨⟨slot, middle⟩, hslot, hrest⟩
      have hbinds := joinSlot_binds db hslot horigin hsettled
      rcases hbinds.exists_join with ⟨join, hgrows, hextend⟩
      have hnext := hbinds.next
      simp only at hrest
      split at hrest
      · rename_i hassociation
        split at hrest
        · rename_i hend
          cases hrest
          refine ⟨[join], hgrows, fun _ => ⟨hnext, hbinds.settled⟩, ?_⟩
          intro scope
          rw [Join.extendAll_singleton, hextend, List.map_map, List.map_eq_flatMap]
          simp [Database.arrivals, hassociation, hend, Reached.arrival]
        · rename_i hend
          have hbinds' := joinTarget_binds db ctx kind
            (by omega : slot.index < middle.nextIndex) hbinds.settled
          rcases hbinds'.exists_join with ⟨join', hgrows', hextend'⟩
          have hnext' := hbinds'.next
          rcases ih hrest (by simp only [Origin.occurrence]; omega) hbinds'.settled
            (by intro hnone; cases hnone) with ⟨joins, hlater, hlatest', hmap⟩
          refine ⟨_, hgrows.trans (hgrows'.trans hlater), hlatest', ?_⟩
          intro scope
          have hfresh := hbinds'.fresh
          have hne : slot ≠ (middle.joinTarget ctx slot kind).fst := by
            intro heq
            rw [← heq] at hfresh
            omega
          simp only [List.singleton_append, Join.extendAll, hextend, hextend', Database.arrivals,
            List.map_flatMap, hmap, List.flatMap_map, hassociation, hend]
          simp [Origin.place, Reached.arrival, Scope.read_column, Scope.bind_table_of_ne _ _ hne]
      · rename_i hassociation
        rcases ih hrest (by simp only [Origin.occurrence]; omega) hbinds.settled
          (fun _ => ⟨hnext, hbinds.settled⟩) with ⟨joins, hlater, hlatest', hmap⟩
        refine ⟨_, hgrows.trans hlater, hlatest', ?_⟩
        intro scope
        simp only [List.singleton_append, Join.extendAll, hextend, Database.arrivals,
          List.map_flatMap, hmap, List.flatMap_map, hassociation]
        simp [Origin.place, Reached.arrival]

end

/-!
# Where paths end

A walk ends at an entity when its last step is an association that is followed
to its end. Otherwise it ends at a slot.
-/

section

variable {ctx : Context}

theorem Draft.target_eq_none_iff {kind : JoinKind} {pathEnd : PathEnd} {steps : List PathStep}
    {origin : Origin} {reached reached' : Reached} {draft draft' : Draft}
    (h : draft.followSteps ctx kind pathEnd steps origin reached = .ok (reached', draft'))
    (hsteps : steps ≠ []) :
    reached'.target = none ↔
      (steps.getLast hsteps).isAssociation = false ∨ pathEnd = .slot := by
  induction steps generalizing origin reached draft with
  | nil => exact absurd rfl hsteps
  | cons step rest ih =>
      simp only [followSteps, bind_eq_ok] at h
      rcases h with ⟨⟨slot, middle⟩, _, hrest⟩
      cases rest with
      | nil =>
          rw [List.getLast_singleton]
          split at hrest
          · cases pathEnd with
            | slot =>
                cases hrest
                exact iff_of_true rfl (Or.inr rfl)
            | entity =>
                rename_i hassociation
                cases hrest
                simp [hassociation]
          · rename_i hassociation
            cases hrest
            exact iff_of_true rfl (Or.inl (Bool.eq_false_iff.mpr hassociation))
      | cons next later =>
          rw [List.getLast_cons (List.cons_ne_nil next later)]
          split at hrest
          · simp only [List.isEmpty_cons, Bool.false_and, Bool.false_eq_true, if_false] at hrest
            exact ih hrest _
          · exact ih hrest _

end

/-!
# Which paths can be followed

All slots of the path have to be in the schema, and no more is needed. What was
joined before does not matter, since it is in the schema as well.
-/

section

variable {ctx : Context}

/-- Only slots of the schema were joined so far. -/
def Draft.IsNamed (draft : Draft) (ctx : Context) : Prop :=
  ∀ (row : Alias) (name : QualifiedName) (child : Alias),
    draft.known? (.slot row name) = some child → ∃ info, ctx.schema.slot? name = some info

theorem Draft.joinSlot_isNamed {origin : Origin} {name : QualifiedName} {kind : JoinKind}
    {draft draft' : Draft} {slot : Alias} (hnamed : draft.IsNamed ctx)
    (h : draft.joinSlot ctx origin name kind = .ok (slot, draft')) :
    (∃ info, ctx.schema.slot? name = some info) ∧ draft'.IsNamed ctx := by
  rcases joinSlot_cases h with ⟨hknown, hdraft⟩ | ⟨_, info, hinfo, _, hdraft⟩
  · subst hdraft
    exact ⟨hnamed _ _ _ hknown, hnamed⟩
  · refine ⟨⟨info, hinfo⟩, ?_⟩
    intro row other child hknown
    by_cases hkey : JoinKey.slot row other = .slot origin.occurrence name
    · cases hkey
      exact ⟨info, hinfo⟩
    · rw [hdraft, withJoin_known?_of_ne _ hkey] at hknown
      exact hnamed _ _ _ hknown

theorem Draft.joinTarget_isNamed {kind : JoinKind} {draft : Draft} {slot : Alias}
    (hnamed : draft.IsNamed ctx) : (draft.joinTarget ctx slot kind).snd.IsNamed ctx := by
  cases hknown : draft.known? (.target slot) with
  | some found =>
      simp only [joinTarget, hknown]
      exact hnamed
  | none =>
      rw [joinTarget_eq hknown]
      intro row other child hslot
      rw [withJoin_known?_of_ne _ (by intro heq; cases heq)] at hslot
      exact hnamed _ _ _ hslot

theorem Draft.exists_joinSlot_eq_ok {name : QualifiedName}
    (h : ∃ info, ctx.schema.slot? name = some info) (origin : Origin) (draft : Draft)
    (kind : JoinKind) : ∃ result, draft.joinSlot ctx origin name kind = .ok result := by
  rcases h with ⟨info, hinfo⟩
  simp only [joinSlot]
  split
  · exact ⟨_, rfl⟩
  · exact ⟨_, bind_eq_ok.mpr ⟨info, Context.slotInfo_eq_ok.mpr hinfo, rfl⟩⟩

theorem Draft.followSteps_isNamed {kind : JoinKind} {pathEnd : PathEnd} {steps : List PathStep}
    {origin : Origin} {reached reached' : Reached} {draft draft' : Draft}
    (hnamed : draft.IsNamed ctx)
    (h : draft.followSteps ctx kind pathEnd steps origin reached = .ok (reached', draft')) :
    (∀ step ∈ steps, ∃ info, ctx.schema.slot? step.name = some info) ∧ draft'.IsNamed ctx := by
  induction steps generalizing origin reached draft with
  | nil =>
      cases h
      exact ⟨by simp, hnamed⟩
  | cons step rest ih =>
      simp only [followSteps, bind_eq_ok] at h
      rcases h with ⟨⟨slot, middle⟩, hslot, hrest⟩
      rcases joinSlot_isNamed hnamed hslot with ⟨hinfo, hnamed'⟩
      have hlater : (∀ later ∈ rest, ∃ info, ctx.schema.slot? later.name = some info) ∧
          draft'.IsNamed ctx := by
        split at hrest
        · split at hrest
          · rename_i hend
            rw [Bool.and_eq_true, List.isEmpty_iff] at hend
            cases hrest
            exact ⟨by simp [hend.left], hnamed'⟩
          · exact ih (joinTarget_isNamed hnamed') hrest
        · exact ih hnamed' hrest
      refine ⟨?_, hlater.right⟩
      intro later hmem
      cases hmem with
      | head => exact hinfo
      | tail _ hmem => exact hlater.left later hmem

theorem Draft.exists_followSteps_eq_ok {steps : List PathStep}
    (h : ∀ step ∈ steps, ∃ info, ctx.schema.slot? step.name = some info) (kind : JoinKind)
    (pathEnd : PathEnd) (origin : Origin) (reached : Reached) (draft : Draft) :
    ∃ result, draft.followSteps ctx kind pathEnd steps origin reached = .ok result := by
  induction steps generalizing origin reached draft with
  | nil => exact ⟨_, rfl⟩
  | cons step rest ih =>
      rcases exists_joinSlot_eq_ok (h step List.mem_cons_self) origin draft kind with
        ⟨⟨slot, middle⟩, hslot⟩
      have hrest := ih fun later hmem => h later (List.mem_cons_of_mem _ hmem)
      simp only [followSteps, bind_eq_ok]
      by_cases hassociation : step.isAssociation = true
      · by_cases hend : (rest.isEmpty && pathEnd == .slot) = true
        · exact ⟨_, (slot, middle), hslot, by simp only [if_pos hassociation, if_pos hend]; rfl⟩
        · rcases hrest (.entity (middle.joinTarget ctx slot kind).fst)
            { slot := slot, target := some (middle.joinTarget ctx slot kind).fst }
            (middle.joinTarget ctx slot kind).snd with ⟨result, hresult⟩
          exact ⟨result, (slot, middle), hslot,
            by simp only [if_pos hassociation, if_neg hend]; exact hresult⟩
      · rcases hrest (.row slot) { slot := slot, target := none } middle with ⟨result, hresult⟩
        exact ⟨result, (slot, middle), hslot, by simp only [if_neg hassociation]; exact hresult⟩

theorem Context.allEntities_isNamed (ctx : Context) : ctx.allEntities.IsNamed ctx := by
  intro row name child hknown
  cases hknown

theorem Context.exists_follow_iff (path : Path) (kind : JoinKind) (pathEnd : PathEnd) :
    (∃ result, ctx.allEntities.follow ctx path kind pathEnd = .ok result) ↔
      ∀ step ∈ path.steps, ∃ info, ctx.schema.slot? step.name = some info := by
  constructor
  · intro h
    rcases h with ⟨⟨reached, draft⟩, hfollow⟩
    exact (Draft.followSteps_isNamed ctx.allEntities_isNamed hfollow).left
  · intro h
    exact Draft.exists_followSteps_eq_ok h kind pathEnd _ _ _

end

end SlotQuery
