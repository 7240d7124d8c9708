import SlotQuery.Proofs.Stops

/-!
# Visited stops

A draft has one table for each stop that was visited in it, numbered where the
stop came up first. It remembers each of them by the table before it and the hop
between the two, so a stop that comes up again is found and not joined again.
-/

namespace SlotQuery

open Stop

/-!
# Walks step by step

A walk that goes on to entities is told by what each of its steps has reached.
-/

/-- Where the step after this one starts. -/
def Reached.origin (reached : Reached) : Origin :=
  match reached.target with
  | some entity => .entity entity
  | none => .row reached.slot

/-- What the last step has reached. Before the first step this is the queried entity. -/
def Reached.last (seen : List Reached) : Reached :=
  seen.getLastD { slot := Alias.root, target := none }

namespace Draft

def visit (ctx : Context) (kind : JoinKind) (step : PathStep) (origin : Origin) (draft : Draft) :
    Except CompileError (Reached × Draft) := do
  let (slot, draft) ← draft.joinSlot ctx origin step.name kind
  if step.isAssociation then
    let (entity, draft) := draft.joinTarget ctx slot kind
    return ({ slot := slot, target := some entity }, draft)
  else
    return ({ slot := slot, target := none }, draft)

def visitSteps (ctx : Context) (kind : JoinKind) :
    List PathStep → Origin → Draft → Except CompileError (List Reached × Draft)
  | [], _, draft => .ok ([], draft)
  | step :: rest, origin, draft => do
      let (reached, draft) ← draft.visit ctx kind step origin
      let (later, draft) ← visitSteps ctx kind rest reached.origin draft
      return (reached :: later, draft)

/-- Visits the steps of one path after the other in the same draft. -/
def visitAll (ctx : Context) (kind : JoinKind) :
    List Path → Draft → Except CompileError (List (List Reached) × Draft)
  | [], draft => .ok ([], draft)
  | path :: rest, draft => do
      let (visits, draft) ← draft.visitSteps ctx kind path.steps (.entity Alias.root)
      let (later, draft) ← visitAll ctx kind rest draft
      return (visits :: later, draft)

/-- Follows one path after the other in the same draft, as for sort keys. -/
def followAll (ctx : Context) (kind : JoinKind) :
    List Path → Draft → Except CompileError (List Reached × Draft)
  | [], draft => .ok ([], draft)
  | path :: rest, draft => do
      let (reached, draft) ← draft.follow ctx path kind .entity
      let (later, draft) ← followAll ctx kind rest draft
      return (reached :: later, draft)

variable {ctx : Context} {kind : JoinKind}

theorem followSteps_cons (step : PathStep) (rest : List PathStep) (origin : Origin)
    (reached : Reached) (draft : Draft) :
    draft.followSteps ctx kind .entity (step :: rest) origin reached =
      draft.visit ctx kind step origin >>= fun (reached, draft) =>
        draft.followSteps ctx kind .entity rest reached.origin reached := by
  simp only [followSteps, visit]
  cases draft.joinSlot ctx origin step.name kind with
  | error error => rfl
  | ok result =>
      cases h : step.isAssociation with
      | true => simp [bind, Except.bind, pure, Except.pure, Reached.origin]
      | false => simp [bind, Except.bind, pure, Except.pure, Reached.origin]

/-- Following a path comes to where the last of its steps has led. -/
theorem followSteps_of_visitSteps {steps : List PathStep} {origin : Origin} {draft draft' : Draft}
    {visits : List Reached} (h : draft.visitSteps ctx kind steps origin = .ok (visits, draft'))
    (reached : Reached) :
    draft.followSteps ctx kind .entity steps origin reached =
      .ok (visits.getLastD reached, draft') := by
  induction steps generalizing origin draft visits reached with
  | nil =>
      cases h
      rfl
  | cons step rest ih =>
      simp only [visitSteps, bind_eq_ok, pure_eq_ok] at h
      rcases h with ⟨⟨first, middle⟩, hfirst, ⟨later, last⟩, hlater, hresult⟩
      cases hresult
      rw [followSteps_cons, bind_eq_ok]
      refine ⟨_, hfirst, ?_⟩
      rw [List.getLastD_cons]
      exact ih hlater first

theorem followAll_of_visitAll {paths : List Path} {draft draft' : Draft}
    {visits : List (List Reached)} (h : draft.visitAll ctx kind paths = .ok (visits, draft')) :
    draft.followAll ctx kind paths =
      .ok (visits.map Reached.last, draft') := by
  induction paths generalizing draft visits with
  | nil =>
      cases h
      rfl
  | cons path rest ih =>
      simp only [visitAll, bind_eq_ok, pure_eq_ok] at h
      rcases h with ⟨⟨first, middle⟩, hfirst, ⟨later, last⟩, hlater, hresult⟩
      cases hresult
      simp only [followAll, bind_eq_ok, pure_eq_ok]
      exact ⟨_, followSteps_of_visitSteps hfirst _, _, ih hlater, rfl⟩

end Draft

/-!
# Drafts and stops

What each visited stop has left in the draft. One more join, at a stop that was
not visited yet, keeps this for the longer list of stops.
-/

def Hop.key (source : Alias) : Hop → JoinKey
  | slot name => .slot source name
  | entity => .target source

theorem Hop.key_source (source : Alias) (hop : Hop) : (hop.key source).source = source := by
  cases hop <;> rfl

theorem Hop.key_inj {source source' : Alias} {hop hop' : Hop} :
    hop.key source = hop'.key source' ↔ source = source' ∧ hop = hop' := by
  cases hop <;> cases hop' <;> simp [key]

/-- The draft has a join for each stop that was visited, and no other joins. -/
structure Draft.Marks (ctx : Context) (kind : JoinKind) (base : Select) (draft : Draft)
    (visited : List Stop) : Prop where
  laid : Laid visited
  next : draft.nextIndex = (tables visited).length
  query : draft.query = { base with joins := draft.query.joins }
  joins : draft.query.joins.map some =
    visited.eraseDups.map (Stop.join ctx kind (number visited))
  known : ∀ before ∈ tables visited, ∀ hop : Hop,
    draft.known? (hop.key (number visited before)) =
      if before.next hop ∈ visited then some (number visited (before.next hop)) else none
  settled : draft.Settled draft.nextIndex

namespace Draft.Marks

variable {ctx : Context} {kind : JoinKind} {base : Select} {draft : Draft} {visited : List Stop}
  {before : Stop} {hop : Hop}

/-- A stop that was visited already is not joined again. -/
theorem again (h : draft.Marks ctx kind base visited) (hmem : before.next hop ∈ visited) :
    draft.Marks ctx kind base (visited ++ [before.next hop]) where
  laid := h.laid.concat hop (h.laid.before_mem hmem)
  next := by rw [tables_concat_of_mem hmem, h.next]
  query := h.query
  joins := by
    rw [eraseDups_concat, if_pos hmem, number_concat_of_mem hmem, h.joins]
  known := by
    intro other hother hop'
    rw [tables_concat_of_mem hmem] at hother
    have hiff : other.next hop' ∈ visited ++ [before.next hop] ↔ other.next hop' ∈ visited := by
      constructor
      · intro hin
        rcases List.mem_append.mp hin with hold | hlast
        · exact hold
        · rwa [List.mem_singleton.mp hlast]
      · exact List.mem_append_left _
    simp only [number_concat_of_mem hmem, hiff]
    exact h.known other hother hop'
  settled := h.settled

theorem next_eq (h : draft.Marks ctx kind base visited) (hnew : before.next hop ∉ visited) :
    draft.next = number (visited ++ [before.next hop]) (before.next hop) := by
  rw [number_concat_self hnew, Draft.next, h.next]

theorem withJoin (h : draft.Marks ctx kind base visited) (hbefore : before ∈ tables visited)
    (hnew : before.next hop ∉ visited) {join : Join}
    (hjoin : (before.next hop).join ctx kind (number (visited ++ [before.next hop])) =
      some join) :
    (draft.withJoin (hop.key (number visited before)) join).Marks ctx kind base
      (visited ++ [before.next hop]) where
  laid := h.laid.concat hop hbefore
  next := by
    rw [tables_concat_of_notMem hnew, List.length_append, List.length_singleton, ← h.next]
    rfl
  query := by
    show { draft.query with joins := draft.query.joins ++ [join] } = _
    rw [h.query]
    rfl
  joins := by
    have hold : visited.eraseDups.map
        (Stop.join ctx kind (number (visited ++ [before.next hop]))) =
          visited.eraseDups.map (Stop.join ctx kind (number visited)) := by
      apply List.map_congr_left
      intro stop hstop
      exact h.laid.join_congr (fun other hother => number_append hother _)
        (List.mem_eraseDups.mp hstop)
    rw [eraseDups_concat, if_neg hnew, List.map_append, List.map_singleton, hjoin, hold, ← h.joins]
    exact List.map_append
  known := by
    have hlt : (number visited before).index < draft.nextIndex := by
      rw [h.next]
      exact number_lt hbefore
    have htarget : join.target = draft.next :=
      (source_and_target_of_join hjoin).right.trans (h.next_eq hnew).symm
    intro other hother hop'
    rw [tables_concat_of_notMem hnew, List.mem_append, List.mem_singleton] at hother
    -- From the tables that were there only the new join is new; from its own table there is none.
    rcases hother with hother | hlast
    · rw [number_append hother]
      by_cases hsame : other.next hop' = before.next hop
      · cases hsame
        rw [Draft.withJoin_known?_self, htarget, h.next_eq hnew, if_pos (by simp)]
      · have hkey : hop'.key (number visited other) ≠ hop.key (number visited before) := by
          rw [Ne, Hop.key_inj, number_inj hother]
          intro heq
          exact hsame (by rw [heq.left, heq.right])
        rw [Draft.withJoin_known?_of_ne join hkey, h.known other hother hop']
        simp only [List.mem_append, List.mem_singleton, hsame, or_false]
        split
        · rename_i hmem
          rw [number_append (next_mem_tables.mpr hmem)]
        · rfl
    · subst hlast
      rw [← h.next_eq hnew]
      have hkey : hop'.key draft.next ≠ hop.key (number visited before) := by
        rw [Ne, Hop.key_inj]
        intro heq
        rw [← heq.left] at hlt
        exact Nat.lt_irrefl _ hlt
      rw [Draft.withJoin_known?_of_ne join hkey, if_neg (h.laid.notMem_beyond hnew hop')]
      apply h.settled
      rw [Hop.key_source]
      exact Nat.le_refl _
  settled := by
    have hlt : (hop.key (number visited before)).source.index < draft.nextIndex := by
      rw [Hop.key_source, h.next]
      exact number_lt hbefore
    exact (h.settled.mono (Nat.le_succ _)).withJoin join (Nat.lt_succ_of_lt hlt)

end Draft.Marks

/-!
# One step

What a step has reached, and where the next one starts, depends only on the stop
that it starts from and on the numbers of the tables.
-/

namespace Stop

def origin (number : Stop → Alias) (place : Stop) : Origin :=
  if place.isNested then .row (number place) else .entity (number place)

def visit (number : Stop → Alias) (place : Stop) (step : PathStep) : Reached :=
  let slot := place.next (.slot step.name)
  { slot := number slot
    target := if step.isAssociation then some (number (slot.next .entity)) else none }

def visits (number : Stop → Alias) : Stop → List PathStep → List Reached
  | _, [] => []
  | place, step :: rest => place.visit number step :: visits number (place.after step.hops) rest

end Stop

def Path.visits (path : Path) (number : Stop → Alias) : List Reached :=
  start.visits number path.steps

/-- Where a path ends. -/
def Path.reached (path : Path) (number : Stop → Alias) : Reached :=
  .last (path.visits number)

namespace Stop

theorem occurrence_origin (number : Stop → Alias) (place : Stop) :
    (place.origin number).occurrence = number place := by
  unfold origin
  split <;> rfl

theorem origin_congr {number number' : Stop → Alias} {place : Stop}
    (h : number place = number' place) : place.origin number = place.origin number' := by
  simp only [origin, h]

theorem origin_start (visited : List Stop) :
    start.origin (number visited) = .entity Alias.root := by
  show Origin.entity (number visited start) = _
  rw [number_start]

theorem origin_visit (number : Stop → Alias) (place : Stop) (step : PathStep) :
    (place.visit number step).origin = (place.after step.hops).origin number := by
  cases h : step.isAssociation <;>
    simp [visit, Reached.origin, origin, after, PathStep.hops, isNested, h]

theorem join_slot_eq {ctx : Context} {kind : JoinKind} {name : QualifiedName} {info : SlotInfo}
    (hinfo : ctx.schema.slot? name = some info) (number : Stop → Alias) (place : Stop) :
    (place.next (.slot name)).join ctx kind number =
      some (slotJoin ctx (place.origin number) (number (place.next (.slot name))) info kind) := by
  cases h : place.isNested <;>
    simp [join, hinfo, slotJoin, slotJoinConditions, origin, Origin.occurrence, Origin.isNested, h]

theorem join_entity_eq (ctx : Context) (kind : JoinKind) (number : Stop → Alias) (place : Stop) :
    (place.next .entity).join ctx kind number =
      some (targetJoin ctx (number place) (number (place.next .entity)) kind) :=
  rfl

end Stop

namespace Draft.Marks

variable {ctx : Context} {kind : JoinKind} {base : Select} {draft : Draft} {visited : List Stop}
  {place : Stop}

theorem joinSlot (h : draft.Marks ctx kind base visited) (hplace : place ∈ tables visited)
    {name : QualifiedName} (hslot : ctx.schema.HasSlot name) :
    ∃ draft' : Draft, draft.joinSlot ctx (place.origin (number visited)) name kind =
        .ok (number (visited ++ [place.next (.slot name)]) (place.next (.slot name)), draft') ∧
      draft'.Marks ctx kind base (visited ++ [place.next (.slot name)]) := by
  rcases exists_joinSlot_eq_ok hslot (place.origin (number visited)) draft kind with
    ⟨⟨slot, draft'⟩, hresult⟩
  have hknown := h.known place hplace (.slot name)
  rw [Hop.key, ← occurrence_origin (number visited)] at hknown
  rcases joinSlot_cases hresult with ⟨hsome, hdraft⟩ | ⟨hnone, info, hinfo, hslot, hdraft⟩
  · rw [hsome] at hknown
    split at hknown
    · rename_i hmem
      cases hknown
      rw [number_concat_of_mem hmem, hresult, hdraft]
      exact ⟨draft, rfl, h.again hmem⟩
    · cases hknown
  · rw [hnone] at hknown
    split at hknown
    · cases hknown
    · rename_i hnew
      have hjoin : (place.next (.slot name)).join ctx kind
          (number (visited ++ [place.next (.slot name)])) =
            some (slotJoin ctx (place.origin (number visited)) draft.next info kind) := by
        rw [join_slot_eq hinfo, origin_congr (number_append hplace _), h.next_eq hnew]
      have hmarks := h.withJoin hplace hnew hjoin
      rw [Hop.key, ← occurrence_origin (number visited)] at hmarks
      rw [hresult, hslot, hdraft, h.next_eq hnew]
      rw [h.next_eq hnew] at hmarks
      exact ⟨_, rfl, hmarks⟩

theorem joinTarget (h : draft.Marks ctx kind base visited) (hplace : place ∈ tables visited) :
    ∃ draft' : Draft, draft.joinTarget ctx (number visited place) kind =
        (number (visited ++ [place.next .entity]) (place.next .entity), draft') ∧
      draft'.Marks ctx kind base (visited ++ [place.next .entity]) := by
  have hknown := h.known place hplace .entity
  by_cases hmem : place.next .entity ∈ visited
  · rw [if_pos hmem, Hop.key] at hknown
    refine ⟨draft, ?_, h.again hmem⟩
    simp only [Draft.joinTarget, hknown, number_concat_of_mem hmem]
  · rw [if_neg hmem] at hknown
    have hjoin : (place.next .entity).join ctx kind (number (visited ++ [place.next .entity])) =
        some (targetJoin ctx (number visited place) draft.next kind) := by
      rw [join_entity_eq, number_append hplace, h.next_eq hmem]
    refine ⟨_, ?_, h.withJoin hplace hmem hjoin⟩
    rw [joinTarget_eq hknown, h.next_eq hmem]
    rfl

theorem visit (h : draft.Marks ctx kind base visited) (hplace : place ∈ tables visited)
    {step : PathStep} (hslot : ctx.schema.HasSlot step.name) :
    ∃ draft' : Draft, draft.visit ctx kind step (place.origin (number visited)) =
        .ok (place.visit (number (visited ++ place.along step.hops)) step, draft') ∧
      draft'.Marks ctx kind base (visited ++ place.along step.hops) := by
  rcases h.joinSlot hplace hslot with ⟨middle, hmiddle, hmarks⟩
  have hlast := mem_tables_concat visited (place.next (.slot step.name))
  cases hassociation : step.isAssociation with
  | false =>
      have halong : place.along step.hops = [place.next (.slot step.name)] := by
        simp [PathStep.hops, hassociation, along]
      rw [halong]
      refine ⟨middle, ?_, hmarks⟩
      simp only [Draft.visit, bind_eq_ok]
      refine ⟨_, hmiddle, ?_⟩
      simp only [hassociation, Bool.false_eq_true, if_false, Stop.visit]
      rfl
  | true =>
      rcases hmarks.joinTarget hlast with ⟨draft', htarget, hmarks'⟩
      have halong : place.along step.hops = [place.next (.slot step.name)] ++
          [(place.next (.slot step.name)).next .entity] := by
        simp [PathStep.hops, hassociation, along]
      rw [halong, ← List.append_assoc]
      refine ⟨draft', ?_, hmarks'⟩
      simp only [Draft.visit, bind_eq_ok]
      refine ⟨_, hmiddle, ?_⟩
      simp only [hassociation, if_true, htarget, Stop.visit, number_append hlast]
      rfl

end Draft.Marks

/-!
# Whole runs

By induction on the steps, and then on the paths. What a step has reached keeps
its numbers when later steps add more tables.
-/

namespace Stop

theorem after_mem {visited : List Stop} {place : Stop} (h : place ∈ tables visited)
    (hops : List Hop) : place.after hops ∈ tables (visited ++ place.along hops) := by
  induction hops generalizing visited place with
  | nil => exact mem_tables_append h []
  | cons hop rest ih =>
      have hrest := ih (mem_tables_concat visited (place.next hop))
      rwa [List.append_assoc, List.singleton_append] at hrest

theorem visit_congr {number number' : Stop → Alias} {place : Stop} {step : PathStep}
    (h : ∀ stop ∈ place.along step.hops, number stop = number' stop) :
    place.visit number step = place.visit number' step := by
  cases hassociation : step.isAssociation with
  | false =>
      simp only [PathStep.hops, hassociation, along, Bool.false_eq_true, if_false,
        List.forall_mem_singleton] at h
      simp [visit, hassociation, h]
  | true =>
      simp only [PathStep.hops, hassociation, along, if_true, List.forall_mem_cons] at h
      simp [visit, hassociation, h.left, h.right.left]

theorem visits_congr {number number' : Stop → Alias} {place : Stop} {steps : List PathStep}
    (h : ∀ stop ∈ place.along (steps.flatMap PathStep.hops), number stop = number' stop) :
    place.visits number steps = place.visits number' steps := by
  induction steps generalizing place with
  | nil => rfl
  | cons step rest ih =>
      rw [List.flatMap_cons, along_append, List.forall_mem_append] at h
      rw [visits, visits, visit_congr h.left, ih h.right]

end Stop

/-- What was reached keeps its numbers. -/
theorem Path.visits_append (path : Path) (visited later : List Stop) :
    path.visits (number (visited ++ path.stops ++ later)) =
      path.visits (number (visited ++ path.stops)) := by
  apply visits_congr
  intro stop hstop
  exact number_append (mem_tables.mpr (Or.inr (List.mem_append_right _ hstop))) later

theorem Path.reached_append (path : Path) (visited later : List Stop) :
    path.reached (number (visited ++ path.stops ++ later)) =
      path.reached (number (visited ++ path.stops)) :=
  congrArg Reached.last (path.visits_append visited later)

namespace Draft.Marks

variable {ctx : Context} {kind : JoinKind} {base : Select} {draft : Draft} {visited : List Stop}
  {place : Stop}

theorem visitSteps (h : draft.Marks ctx kind base visited) (hplace : place ∈ tables visited)
    {steps : List PathStep} (hslots : ∀ step ∈ steps, ctx.schema.HasSlot step.name) :
    ∃ draft' : Draft, draft.visitSteps ctx kind steps (place.origin (number visited)) =
        .ok (place.visits (number (visited ++ place.along (steps.flatMap PathStep.hops))) steps,
          draft') ∧
      draft'.Marks ctx kind base (visited ++ place.along (steps.flatMap PathStep.hops)) := by
  induction steps generalizing place visited draft with
  | nil =>
      refine ⟨draft, rfl, ?_⟩
      simpa [along] using h
  | cons step rest ih =>
      rcases h.visit hplace (hslots step List.mem_cons_self) with ⟨middle, hvisit, hmarks⟩
      rcases ih hmarks (after_mem hplace step.hops)
        (fun later hlater => hslots later (List.mem_cons_of_mem _ hlater)) with
        ⟨draft', hrest, hmarks'⟩
      rw [List.flatMap_cons, along_append, ← List.append_assoc]
      refine ⟨draft', ?_, hmarks'⟩
      have hkept : place.visit (number (visited ++ place.along step.hops)) step =
          place.visit (number ((visited ++ place.along step.hops) ++
            (place.after step.hops).along (rest.flatMap PathStep.hops))) step := by
        apply visit_congr
        intro stop hstop
        exact (number_append (mem_tables.mpr (Or.inr (List.mem_append_right _ hstop))) _).symm
      rw [← origin_visit _ place step] at hrest
      simp only [Draft.visitSteps, bind_eq_ok, pure_eq_ok]
      refine ⟨_, hvisit, _, hrest, ?_⟩
      rw [hkept]
      rfl

theorem visitPath (h : draft.Marks ctx kind base visited) {path : Path}
    (hslots : path.HasSlots ctx.schema) :
    ∃ draft' : Draft, draft.visitSteps ctx kind path.steps (.entity Alias.root) =
        .ok (path.visits (number (visited ++ path.stops)), draft') ∧
      draft'.Marks ctx kind base (visited ++ path.stops) := by
  rw [← origin_start visited]
  exact h.visitSteps (start_mem_tables visited) hslots

theorem follow (h : draft.Marks ctx kind base visited) {path : Path}
    (hslots : path.HasSlots ctx.schema) :
    ∃ draft' : Draft, draft.follow ctx path kind .entity =
        .ok (path.reached (number (visited ++ path.stops)), draft') ∧
      draft'.Marks ctx kind base (visited ++ path.stops) := by
  rcases h.visitPath hslots with ⟨draft', hvisit, hmarks⟩
  exact ⟨draft', followSteps_of_visitSteps hvisit _, hmarks⟩

theorem visitAll (h : draft.Marks ctx kind base visited) {paths : List Path}
    (hslots : ∀ path ∈ paths, path.HasSlots ctx.schema) :
    ∃ draft' : Draft, draft.visitAll ctx kind paths =
        .ok (paths.map fun path => path.visits (number (visited ++ paths.flatMap Path.stops)),
          draft') ∧
      draft'.Marks ctx kind base (visited ++ paths.flatMap Path.stops) := by
  induction paths generalizing visited draft with
  | nil =>
      refine ⟨draft, rfl, ?_⟩
      simpa using h
  | cons path rest ih =>
      rcases h.visitPath (hslots path List.mem_cons_self) with ⟨middle, hvisit, hmarks⟩
      rcases ih hmarks (fun later hlater => hslots later (List.mem_cons_of_mem _ hlater)) with
        ⟨draft', hrest, hmarks'⟩
      rw [List.flatMap_cons, ← List.append_assoc]
      refine ⟨draft', ?_, hmarks'⟩
      simp only [Draft.visitAll, bind_eq_ok, pure_eq_ok]
      refine ⟨_, hvisit, _, hrest, ?_⟩
      rw [List.map_cons, path.visits_append]

end Draft.Marks

/-!
# Fresh drafts

A fresh draft has the entity table and nothing else, so no stop was visited.
-/

structure Draft.IsFresh (draft : Draft) : Prop where
  next : draft.nextIndex = 1
  known : draft.known = []
  joins : draft.query.joins = []

theorem outerDraft_isFresh (ctx : Context) (projection : Projection) (filter : Option Filter) :
    (outerDraft ctx projection filter).IsFresh := by
  cases filter <;> exact ⟨rfl, rfl, rfl⟩

theorem Draft.IsFresh.marks {draft : Draft} (h : draft.IsFresh) (ctx : Context)
    (kind : JoinKind) : draft.Marks ctx kind draft.query [] where
  laid := .nil
  next := h.next
  query := by cases draft.query; rfl
  joins := by simp [h.joins]
  known := by
    intro before _ hop
    simp [Draft.known?, h.known]
  settled := by
    intro key _
    simp [Draft.known?, h.known]

end SlotQuery
