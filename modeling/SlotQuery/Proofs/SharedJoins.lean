import SlotQuery.Proofs.Isolation
import SlotQuery.Proofs.Tables
import SlotQuery.Proofs.VisitedStops

/-!
# Shared joins

Paths that are followed one after the other in a fresh draft share their joins as
far as they begin alike, and no further. Each of them reads the same column
through the same joins as it would alone, with other numbers for the tables.
-/

namespace SlotQuery

open Stop

/-!
# Steps that share a slot
-/

/-- The paths name the same slots up to this step, and agree on which steps before it are
associations. -/
def Path.SharesStep (path other : Path) (i j : Nat) : Prop :=
  i = j ∧
    (path.steps.take (i + 1)).map PathStep.name = (other.steps.take (j + 1)).map PathStep.name ∧
      (path.steps.take i).map PathStep.isAssociation =
        (other.steps.take j).map PathStep.isAssociation

namespace Stop

theorem length_visits (number : Stop → Alias) (place : Stop) (steps : List PathStep) :
    (place.visits number steps).length = steps.length := by
  induction steps generalizing place with
  | nil => rfl
  | cons step rest ih => simp [visits, ih]

theorem getElem?_visits (number : Stop → Alias) (place : Stop) (steps : List PathStep) (i : Nat) :
    (place.visits number steps)[i]? =
      steps[i]?.map ((place.after ((steps.take i).flatMap PathStep.hops)).visit number) := by
  induction steps generalizing place i with
  | nil => rfl
  | cons step rest ih =>
      cases i with
      | zero => rfl
      | succ i =>
          simp only [visits, List.getElem?_cons_succ, List.take_succ_cons, List.flatMap_cons,
            after_append, ih]

theorem slot_mem_along {steps : List PathStep} {i : Nat} {step : PathStep} (place : Stop)
    (h : steps[i]? = some step) :
    (place.after ((steps.take i).flatMap PathStep.hops)).next (.slot step.name) ∈
      place.along (steps.flatMap PathStep.hops) := by
  rcases List.getElem?_eq_some_iff.mp h with ⟨hlt, hstep⟩
  have hsplit : steps = steps.take i ++ step :: steps.drop (i + 1) := by
    rw [← hstep, List.getElem_cons_drop, List.take_append_drop]
  have hflat : steps.flatMap PathStep.hops = (steps.take i).flatMap PathStep.hops ++
      (step.hops ++ (steps.drop (i + 1)).flatMap PathStep.hops) := by
    rw [← List.flatMap_cons, ← List.flatMap_append, ← hsplit]
  rw [hflat, along_append, List.mem_append]
  exact Or.inr List.mem_cons_self

theorem after_take_eq_iff {path other : Path} {i j : Nat} {step step' : PathStep}
    (h : path.steps[i]? = some step) (h' : other.steps[j]? = some step') :
    (start.after ((path.steps.take i).flatMap PathStep.hops)).next (.slot step.name) =
        (start.after ((other.steps.take j).flatMap PathStep.hops)).next (.slot step'.name) ↔
      path.SharesStep other i j := by
  rcases List.getElem?_eq_some_iff.mp h with ⟨hlt, hstep⟩
  rcases List.getElem?_eq_some_iff.mp h' with ⟨hlt', hstep'⟩
  have hnames : (path.steps.take (i + 1)).map PathStep.name =
        (other.steps.take (j + 1)).map PathStep.name ↔
      (path.steps.take i).map PathStep.name = (other.steps.take j).map PathStep.name ∧
        step.name = step'.name := by
    rw [← List.take_append_getElem hlt, ← List.take_append_getElem hlt', hstep, hstep',
      List.map_append, List.map_append, List.map_singleton, List.map_singleton,
      List.append_singleton_inj]
  rw [Stop.next.injEq, Hop.slot.injEq, after_start_eq_iff, Path.SharesStep, hnames]
  constructor
  · intro heq
    have hlength := congrArg List.length heq.left.left
    simp only [List.length_map, List.length_take] at hlength
    exact ⟨by omega, ⟨heq.left.left, heq.right⟩, heq.left.right⟩
  · intro hshares
    exact ⟨⟨hshares.right.left.left, hshares.right.right⟩, hshares.right.left.right⟩

/-- Two steps join the same table exactly when the paths begin alike. -/
theorem slots_eq_iff {visited : List Stop} {path other : Path} {i j : Nat}
    {reached reached' : Reached} (hpath : ∀ stop ∈ path.stops, stop ∈ visited)
    (h : (path.visits (number visited))[i]? = some reached)
    (h' : (other.visits (number visited))[j]? = some reached') :
    reached.slot = reached'.slot ↔ path.SharesStep other i j := by
  rw [Path.visits, getElem?_visits, Option.map_eq_some_iff] at h h'
  rcases h with ⟨step, hstep, hreached⟩
  rcases h' with ⟨step', hstep', hreached'⟩
  rw [← after_take_eq_iff hstep hstep', ← hreached, ← hreached']
  exact number_inj (mem_tables.mpr (Or.inr (hpath _ (slot_mem_along start hstep))))

end Stop

/-!
# Paths alone

Alone, a path has a table for each of its own stops. Giving these the numbers
that they have among the stops of all paths turns the joins into those that lead
to the end of the path.
-/

def Reached.renamed (rename : Alias → Alias) (reached : Reached) : Reached :=
  { slot := rename reached.slot, target := reached.target.map rename }

theorem Reached.valueColumn_renamed (ctx : Context) (rename : Alias → Alias)
    (reached : Reached) :
    (reached.renamed rename).valueColumn ctx = (reached.valueColumn ctx).renamed rename := by
  cases reached with
  | mk slot target => cases target <;> rfl

theorem Reached.last_map_renamed {rename : Alias → Alias} (h : rename Alias.root = Alias.root)
    (seen : List Reached) :
    Reached.last (seen.map (Reached.renamed rename)) = (Reached.last seen).renamed rename := by
  have hstart : Reached.renamed rename { slot := Alias.root, target := none } =
      { slot := Alias.root, target := none } := by
    simp [renamed, h]
  rw [last, last]
  nth_rewrite 1 [← hstart]
  exact List.getLastD_map

namespace Stop

theorem map_renamed_visits (rename : Alias → Alias) (number : Stop → Alias) (place : Stop)
    (steps : List PathStep) :
    (place.visits number steps).map (Reached.renamed rename) =
      place.visits (fun stop => rename (number stop)) steps := by
  induction steps generalizing place with
  | nil => rfl
  | cons step rest ih =>
      rw [visits, visits, List.map_cons, ih]
      cases h : step.isAssociation <;> simp [visit, Reached.renamed, h]

theorem origin_last_visit (number : Stop → Alias) (place : Stop) (step : PathStep)
    (rest : List PathStep) (reached : Reached) :
    ((place.visits number (step :: rest)).getLastD reached).origin =
      (place.after ((step :: rest).flatMap PathStep.hops)).origin number := by
  rw [visits, List.getLastD_cons, List.flatMap_cons, after_append]
  induction rest generalizing place step with
  | nil => exact origin_visit number place step
  | cons next later ih =>
      rw [visits, List.getLastD_cons, List.flatMap_cons, after_append]
      exact ih (place.after step.hops) next

end Stop

/-- The table that a path ends at is that of its last stop. -/
theorem Path.occurrence_reached (path : Path) (number : Stop → Alias) :
    (path.reached number).origin.occurrence = number (start.after path.hops) := by
  rw [reached, visits, Reached.last]
  cases hsteps : path.steps with
  | nil => exact absurd hsteps path.steps_ne_nil
  | cons step rest => rw [Path.hops, hsteps, origin_last_visit, occurrence_origin]

theorem Path.stops_eq_trail (path : Path) : (start.after path.hops).trail = path.stops := by
  rw [trail_after]
  rfl

theorem Path.end_mem_tables {path : Path} {visited : List Stop}
    (h : ∀ stop ∈ path.stops, stop ∈ visited) : start.after path.hops ∈ tables visited := by
  have hend := after_mem (start_mem_tables []) path.hops
  rw [List.nil_append, mem_tables] at hend
  exact mem_tables.mpr (hend.imp_right (h _))

namespace Draft.Marks

variable {ctx : Context} {kind : JoinKind} {base : Select} {draft : Draft} {visited : List Stop}
  {path : Path}

/-- The joins that lead to the end of a path are those of its stops. -/
theorem chainTo_end (h : draft.Marks ctx kind base visited)
    (hvisited : ∀ stop ∈ path.stops, stop ∈ visited) :
    (draft.query.chainTo (path.reached (number visited)).origin.occurrence).map some =
      path.stops.map (Stop.join ctx kind (number visited)) := by
  rw [Select.chainTo, path.occurrence_reached, ← path.stops_eq_trail]
  exact chain_eq_trail h.laid (fun stop hstop _ _ heq => (number_inj hstop).mp heq) h.joins
    (Path.end_mem_tables hvisited)

theorem map_renamed_joins (h : draft.Marks ctx kind base visited) {rename : Alias → Alias}
    {number' : Stop → Alias}
    (hrename : ∀ stop ∈ tables visited, rename (number visited stop) = number' stop) :
    (draft.query.joins.map (Join.renamed rename)).map some =
      visited.eraseDups.map (Stop.join ctx kind number') := by
  calc
    (draft.query.joins.map (Join.renamed rename)).map some =
        (draft.query.joins.map some).map (Option.map (Join.renamed rename)) := by
      simp only [List.map_map, Function.comp_def, Option.map_some]
    _ = visited.eraseDups.map (Stop.join ctx kind fun stop => rename (number visited stop)) := by
      rw [h.joins, List.map_map]
      exact List.map_congr_left fun stop _ => map_renamed_join rename (number visited) stop
    _ = visited.eraseDups.map (Stop.join ctx kind number') := by
      apply List.map_congr_left
      intro stop hstop
      exact h.laid.join_congr hrename (List.mem_eraseDups.mp hstop)

end Draft.Marks

/-- With other numbers for its tables, a draft of one path has the joins that lead to the end
of the path in a query. -/
structure Draft.RenamesTo (ctx : Context) (rename : Alias → Alias) (alone : Draft)
    (reached : Reached) (query : Select) (reached' : Reached) : Prop where
  root : rename Alias.root = Alias.root
  injective : ∀ occurrence other : Alias, occurrence.index < alone.nextIndex →
    other.index < alone.nextIndex → rename occurrence = rename other → occurrence = other
  valueColumn : (reached.valueColumn ctx).renamed rename = reached'.valueColumn ctx
  joins : alone.query.joins.map (Join.renamed rename) =
    query.chainTo reached'.origin.occurrence

theorem Draft.IsFresh.follow_renamesTo {ctx : Context} {kind : JoinKind} {fresh draft : Draft}
    {base : Select} {visited : List Stop} {path : Path} (hfresh : fresh.IsFresh)
    (hslots : path.HasSlots ctx.schema) (h : draft.Marks ctx kind base visited)
    (hvisited : ∀ stop ∈ path.stops, stop ∈ visited) :
    ∃ rename reached alone, fresh.follow ctx path kind .entity = .ok (reached, alone) ∧
      alone.RenamesTo ctx rename reached draft.query (path.reached (number visited)) := by
  rcases (hfresh.marks ctx kind).follow hslots with ⟨alone, hfollow, hmarks⟩
  rw [List.nil_append] at hfollow hmarks
  have hrename : ∀ stop ∈ tables path.stops,
      renumber path.stops visited (number path.stops stop) = number visited stop :=
    fun stop hstop => renumber_number visited hstop
  have hroot : renumber path.stops visited Alias.root = Alias.root := by
    have hstart := hrename start (start_mem_tables _)
    rwa [number_start, number_start] at hstart
  refine ⟨renumber path.stops visited, _, alone, hfollow, hroot, ?injective, ?valueColumn,
    ?joins⟩
  case injective =>
    intro occurrence other hlt hlt' heq
    rw [hmarks.next] at hlt hlt'
    refine renumber_inj hmarks.laid ?_ hlt hlt' heq
    intro stop hstop
    exact mem_tables.mpr ((mem_tables.mp hstop).imp_right (hvisited stop))
  case valueColumn =>
    have hvisits : (path.visits (number path.stops)).map
        (Reached.renamed (renumber path.stops visited)) = path.visits (number visited) := by
      rw [Path.visits, map_renamed_visits]
      apply visits_congr
      intro stop hstop
      exact hrename stop (mem_tables.mpr (Or.inr hstop))
    rw [← Reached.valueColumn_renamed, Path.reached, Path.reached, ← hvisits,
      Reached.last_map_renamed hroot]
  case joins =>
    apply List.map_injective_iff.mpr fun _ _ heq => Option.some.inj heq
    rw [hmarks.map_renamed_joins hrename, h.chainTo_end hvisited, path.eraseDups_stops]

/-!
# Many paths

The joins are those of the stops of all paths, each added where it is first used.
A step has its table in common with the steps of other paths that come to the same
stop, and with no others.
-/

/-- What following paths one after the other comes to, with one list of what was reached for
each path. -/
structure Draft.SharesJoins (ctx : Context) (kind : JoinKind) (paths : List Path) (draft : Draft)
    (visits : List (List Reached)) (draft' : Draft) : Prop where
  followed : draft.followAll ctx kind paths =
    .ok (visits.map Reached.last, draft')
  numbered : visits = paths.map fun path => path.visits (number (paths.flatMap Path.stops))
  complete : visits.map List.length = paths.map fun path => path.steps.length
  shared : ∀ {path other : Path} {seen seen' : List Reached}, (path, seen) ∈ paths.zip visits →
    (other, seen') ∈ paths.zip visits → ∀ {i j : Nat} {reached reached' : Reached},
      seen[i]? = some reached → seen'[j]? = some reached' →
        (reached.slot = reached'.slot ↔ path.SharesStep other i j)
  query : draft'.query = { draft.query with joins := draft'.query.joins }
  joins : draft'.query.joins.map some = (paths.flatMap Path.stops).eraseDups.map
    (Stop.join ctx kind (number (paths.flatMap Path.stops)))
  alone : ∀ {path : Path} {seen : List Reached}, (path, seen) ∈ paths.zip visits →
    ∀ fresh : Draft, fresh.IsFresh → ∃ rename reached alone,
      fresh.follow ctx path kind .entity = .ok (reached, alone) ∧
        alone.RenamesTo ctx rename reached draft'.query (.last seen)

/-- Joins are shared exactly as far as paths begin alike. -/
theorem joins_are_shared_by_beginnings {ctx : Context} (kind : JoinKind) {paths : List Path}
    {draft : Draft} (hfresh : draft.IsFresh) (hslots : ∀ path ∈ paths, path.HasSlots ctx.schema) :
    ∃ visits draft', draft.visitAll ctx kind paths = .ok (visits, draft') ∧
      draft.SharesJoins ctx kind paths visits draft' := by
  rcases (hfresh.marks ctx kind).visitAll hslots with ⟨draft', hvisit, hmarks⟩
  rw [List.nil_append] at hvisit hmarks
  refine ⟨_, draft', hvisit, ?_⟩
  have hzip : ∀ {path : Path} {seen : List Reached},
      (path, seen) ∈ paths.zip (paths.map fun path =>
        path.visits (number (paths.flatMap Path.stops))) →
      path ∈ paths ∧ seen = path.visits (number (paths.flatMap Path.stops)) := by
    intro path seen hmem
    have hpairs : (path, seen) ∈ paths.map fun path =>
        (path, path.visits (number (paths.flatMap Path.stops))) := by
      rwa [← List.zip_map', List.map_id']
    rcases List.mem_map.mp hpairs with ⟨found, hfound, heq⟩
    cases heq
    exact ⟨hfound, rfl⟩
  constructor
  case followed => exact Draft.followAll_of_visitAll hvisit
  case numbered => rfl
  case complete => simp [Path.visits, length_visits]
  case shared =>
    intro path other seen seen' hseen hseen' i j reached reached' h h'
    rcases hzip hseen with ⟨hpath, rfl⟩
    rcases hzip hseen' with ⟨_, rfl⟩
    exact slots_eq_iff (fun stop hstop => List.mem_flatMap.mpr ⟨path, hpath, hstop⟩) h h'
  case query => exact hmarks.query
  case joins => exact hmarks.joins
  case alone =>
    intro path seen hseen fresh hfresh'
    rcases hzip hseen with ⟨hpath, rfl⟩
    exact hfresh'.follow_renamesTo (hslots path hpath) hmarks
      fun stop hstop => List.mem_flatMap.mpr ⟨path, hpath, hstop⟩

namespace People

/-- Two ways on from an address, of which one is taken twice, and one that goes further. -/
def addressPaths : List Path :=
  [(Path.property addresses).thenProperty city,
    (Path.association addresses).thenProperty name,
    (Path.property addresses).thenProperty city,
    ((Path.association addresses).thenProperty addresses).thenProperty city]

theorem addressPaths_hasSlots : ∀ path ∈ addressPaths, path.HasSlots context.schema := by
  have hfound : ∀ path ∈ addressPaths, ∀ step ∈ path.steps,
      (context.schema.slot? step.name).isSome = true := by decide
  intro path hpath step hstep
  exact Option.isSome_iff_exists.mp (hfound path hpath step hstep)

/-- An association and a property of the same name share their slot, and nothing after it. -/
theorem visits_addressPaths :
    (context.allEntities.visitAll context .left addressPaths).map
        (fun result => result.fst.map fun seen => seen.map fun reached => reached.slot.index) =
      .ok [[1, 2], [1, 4], [1, 2], [1, 5, 6]] :=
  rfl

end People

theorem addressPaths_share_joins :
    People.context.allEntities.IsFresh ∧
      (∀ path ∈ People.addressPaths, path.HasSlots People.context.schema) ∧
      ∃ visits draft',
        People.context.allEntities.visitAll People.context .left People.addressPaths =
          .ok (visits, draft') ∧
        visits.map (fun seen => seen.map fun reached => reached.slot.index) =
          [[1, 2], [1, 4], [1, 2], [1, 5, 6]] ∧
        People.context.allEntities.SharesJoins People.context .left People.addressPaths visits
          draft' := by
  have hfresh : People.context.allEntities.IsFresh := ⟨rfl, rfl, rfl⟩
  rcases joins_are_shared_by_beginnings .left hfresh People.addressPaths_hasSlots with
    ⟨visits, draft', hvisit, hshares⟩
  have hslots := People.visits_addressPaths
  rw [hvisit] at hslots
  exact ⟨hfresh, People.addressPaths_hasSlots, visits, draft', hvisit, Except.ok.inj hslots,
    hshares⟩

/-!
# Sort keys

The outer select follows the paths of its sort keys in this way. Its joins are
those of their stops, and what it returns for a path is read where the path ends.
-/

def sortPaths (orders : List OrderBy) : List Path :=
  orders.filterMap fun order =>
    match order.key with
    | .identity => none
    | .path path => some path

/-- Sort keys are added to the select without touching its joins. -/
theorem Draft.Marks.addOrder {ctx : Context} {kind : JoinKind} {base : Select} {draft : Draft}
    {visited : List Stop} (h : draft.Marks ctx kind base visited) (column : Column)
    (order : SortOrder) :
    (draft.addOrder column order).Marks ctx kind
      { base with orderBy := base.orderBy ++ [(column, order)] } visited where
  laid := h.laid
  next := h.next
  query := by
    show { draft.query with orderBy := draft.query.orderBy ++ [(column, order)] } = _
    rw [h.query]
    rfl
  joins := h.joins
  known := h.known
  settled := h.settled

theorem Draft.Marks.addSortKeys {ctx : Context} {base : Select} {orders : List OrderBy}
    {draft draft' : Draft} {visited : List Stop} {extra : List Column}
    (h : draft.Marks ctx .left base visited)
    (hslots : ∀ path ∈ sortPaths orders, path.HasSlots ctx.schema)
    (hkeys : draft.addSortKeys ctx orders = .ok (extra, draft')) :
    (∃ base', draft'.Marks ctx .left base' (visited ++ (sortPaths orders).flatMap Path.stops)) ∧
      extra = (sortPaths orders).map fun path =>
        (path.reached (number (visited ++ (sortPaths orders).flatMap Path.stops))).valueColumn
          ctx := by
  induction orders generalizing draft visited extra base with
  | nil =>
      cases hkeys
      refine ⟨⟨base, ?_⟩, rfl⟩
      simpa [sortPaths] using h
  | cons first rest ih =>
      rcases addSortKeys_cons_cases hkeys with ⟨order, hfirst, hrest⟩ |
        ⟨path, order, reached, middle, later, hfirst, hfollow, hrest, hextra⟩
      · subst hfirst
        exact ih (h.addOrder _ order) hslots hrest
      · subst hfirst hextra
        have hpaths : sortPaths ({ key := .path path, order := order } :: rest) =
            path :: sortPaths rest := rfl
        rw [hpaths] at hslots ⊢
        rcases h.follow (hslots path List.mem_cons_self) with ⟨found, hfound, hmarks⟩
        rw [hfollow] at hfound
        cases hfound
        rcases ih (hmarks.addOrder _ order)
          (fun other hother => hslots other (List.mem_cons_of_mem _ hother)) hrest with
          ⟨⟨base', hmarks'⟩, hlater⟩
        rw [List.flatMap_cons, ← List.append_assoc, List.map_cons, path.reached_append,
          ← hlater]
        exact ⟨⟨base', hmarks'⟩, rfl⟩

theorem sortPaths_hasSlots {schema : Schema} {orders : List OrderBy}
    (h : ∀ order ∈ orders, order.IsSortable schema) :
    ∀ path ∈ sortPaths orders, path.HasSlots schema := by
  intro path hpath
  rcases List.mem_filterMap.mp hpath with ⟨order, horder, hkey⟩
  have hsortable := h order horder
  cases hcase : order.key with
  | identity => simp [hcase] at hkey
  | path found =>
      simp only [hcase, Option.some.injEq] at hkey
      simp only [OrderBy.IsSortable, hcase, hkey] at hsortable
      exact fun step hstep => (hsortable step hstep).hasSlot

theorem Request.outerSelect_joins (request : Request) (ctx : Context) (extra : List Column)
    (draft : Draft) : (request.outerSelect ctx extra draft).joins = draft.query.joins := by
  unfold outerSelect
  split <;> rfl

/-- A sorted select has one join for each stop of its sort keys, and returns what they are
read from. -/
theorem assemble_sorted {ctx : Context} {request : Request} {filter : Option Filter}
    {query : Select} (hrows : request.countOnly = false)
    (h : assemble ctx request filter = .ok query) :
    query.joins.map some = ((sortPaths request.orderBy).flatMap Path.stops).eraseDups.map
        (Stop.join ctx .left (number ((sortPaths request.orderBy).flatMap Path.stops))) ∧
      query.projection = .entities ((sortPaths request.orderBy).map fun path =>
        (path.reached (number ((sortPaths request.orderBy).flatMap Path.stops))).valueColumn
          ctx) := by
  rcases (assemble_rows_iff hrows).mp h with ⟨extra, draft, hkeys, hquery⟩
  have hslots := sortPaths_hasSlots (Draft.exists_addSortKeys_iff.mp ⟨_, hkeys⟩)
  have hmarks := (outerDraft_isFresh ctx (.entities []) filter).marks ctx .left
  rcases hmarks.addSortKeys hslots hkeys with ⟨⟨base, hmarks'⟩, hextra⟩
  rw [List.nil_append] at hmarks' hextra
  rw [← hquery, Request.outerSelect_joins, ← hextra]
  exact ⟨hmarks'.joins, rfl⟩

end SlotQuery
