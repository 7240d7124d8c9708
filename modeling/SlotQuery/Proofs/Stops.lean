import Mathlib.Data.List.Induction
import Mathlib.Data.List.Nodup
import SlotQuery.Proofs.Acceptance

/-!
# Stops

A path stops at the slot of each step, and after an association at the entity it
refers to. Every stop is a table of the select. Paths that begin alike have their
first stops in common, so the tables of many paths are numbered by listing the
stops of all of them, each where it comes up first.
-/

namespace SlotQuery

inductive Hop where
  /-- From a row to one of its slots. -/
  | slot (name : QualifiedName)
  /-- From the row of an association to the entity that it refers to. -/
  | entity
deriving DecidableEq, Repr, Inhabited

/-- A table, told apart by the hops that lead to it from the queried entity. -/
inductive Stop where
  | start
  | next (before : Stop) (hop : Hop)
deriving DecidableEq, Repr, Inhabited

def PathStep.hops (step : PathStep) : List Hop :=
  .slot step.name :: if step.isAssociation then [.entity] else []

namespace Stop

/-- Slots are nested in the rows of slots, not in entities. -/
def isNested : Stop → Bool
  | next _ (.slot _) => true
  | next _ .entity | start => false

def after (place : Stop) (hops : List Hop) : Stop :=
  hops.foldl next place

/-- The stops on the way, one for each hop. -/
def along (place : Stop) : List Hop → List Stop
  | [] => []
  | hop :: rest => place.next hop :: along (place.next hop) rest

/-- The stops from the queried entity up to a stop. -/
def trail : Stop → List Stop
  | start => []
  | next before hop => trail before ++ [next before hop]

@[simp]
theorem after_nil (place : Stop) : place.after [] = place :=
  rfl

theorem after_append (place : Stop) (hops more : List Hop) :
    place.after (hops ++ more) = (place.after hops).after more :=
  List.foldl_append

theorem along_append (place : Stop) (hops more : List Hop) :
    place.along (hops ++ more) = place.along hops ++ (place.after hops).along more := by
  induction hops generalizing place with
  | nil => rfl
  | cons hop rest ih =>
      show place.next hop :: along (place.next hop) (rest ++ more) = _
      rw [ih]
      rfl

theorem trail_after (place : Stop) (hops : List Hop) :
    (place.after hops).trail = place.trail ++ place.along hops := by
  induction hops generalizing place with
  | nil => exact (List.append_nil _).symm
  | cons hop rest ih =>
      show ((place.next hop).after rest).trail = _
      rw [ih]
      simp [trail, along]

def depth : Stop → Nat
  | start => 0
  | next before _ => before.depth + 1

theorem map_depth_along (place : Stop) (hops : List Hop) :
    (place.along hops).map depth = List.range' (place.depth + 1) hops.length := by
  induction hops generalizing place with
  | nil => rfl
  | cons hop rest ih =>
      simp only [along, List.map_cons, List.length_cons, List.range'_succ, ih]
      rfl

/-- No path comes to the same stop twice. -/
theorem nodup_along (place : Stop) (hops : List Hop) : (place.along hops).Nodup := by
  apply List.Nodup.of_map depth
  rw [map_depth_along]
  exact List.nodup_range'

theorem next_ne_self (place : Stop) (hop : Hop) : place.next hop ≠ place := by
  intro h
  have hdepth := congrArg depth h
  simp [depth] at hdepth

end Stop

namespace Path

def hops (path : Path) : List Hop :=
  path.steps.flatMap PathStep.hops

def stops (path : Path) : List Stop :=
  Stop.start.along path.hops

end Path

/-!
# Steps in common

A stop is known from the steps that lead to it, as far as they have different
names or are followed to an entity or not.
-/

namespace Stop

theorem after_hops_eq_iff {place other : Stop} {step step' : PathStep} :
    place.after step.hops = other.after step'.hops ↔
      place = other ∧ step.name = step'.name ∧ step.isAssociation = step'.isAssociation := by
  cases h : step.isAssociation <;> cases h' : step'.isAssociation <;>
    simp [after, PathStep.hops, h, h']

theorem after_hops_ne_start (place : Stop) (step : PathStep) :
    place.after step.hops ≠ start := by
  cases h : step.isAssociation <;> simp [after, PathStep.hops, h]

theorem after_concat (place : Stop) (steps : List PathStep) (step : PathStep) :
    place.after ((steps ++ [step]).flatMap PathStep.hops) =
      (place.after (steps.flatMap PathStep.hops)).after step.hops := by
  rw [List.flatMap_append, after_append, List.flatMap_singleton]

theorem after_start_eq_iff {steps others : List PathStep} :
    start.after (steps.flatMap PathStep.hops) = start.after (others.flatMap PathStep.hops) ↔
      steps.map PathStep.name = others.map PathStep.name ∧
        steps.map PathStep.isAssociation = others.map PathStep.isAssociation := by
  induction steps using List.reverseRecOn generalizing others with
  | nil =>
      cases others using List.reverseRecOn with
      | nil => simp
      | append_singleton others step =>
          rw [after_concat]
          have hne := after_hops_ne_start (start.after (others.flatMap PathStep.hops)) step
          simpa using hne.symm
  | append_singleton steps step ih =>
      cases others using List.reverseRecOn with
      | nil =>
          rw [after_concat]
          have hne := after_hops_ne_start (start.after (steps.flatMap PathStep.hops)) step
          simpa using hne
      | append_singleton others step' =>
          rw [after_concat, after_concat, after_hops_eq_iff, ih]
          simp only [List.map_append, List.map_singleton, List.append_singleton_inj]
          exact ⟨fun h => ⟨⟨h.left.left, h.right.left⟩, h.left.right, h.right.right⟩,
            fun h => ⟨⟨h.left.left, h.right.left⟩, h.left.right, h.right.right⟩⟩

end Stop

/-!
# Numbers of tables

The queried entity has the first number. A number that was given out does not
change when more stops are visited.
-/

theorem eraseDups_concat {α : Type} [DecidableEq α] (l : List α) (a : α) :
    (l ++ [a]).eraseDups = if a ∈ l then l.eraseDups else l.eraseDups ++ [a] := by
  rw [List.eraseDups_append]
  by_cases h : a ∈ l
  · simp [List.removeAll, h]
  · simp [List.removeAll, h, List.eraseDups_cons]

theorem eraseDups_of_nodup {α : Type} [DecidableEq α] {l : List α} (h : l.Nodup) :
    l.eraseDups = l := by
  induction l using List.reverseRecOn with
  | nil => rfl
  | append_singleton l a ih =>
      have hparts := List.nodup_append.mp h
      have ha : a ∉ l := fun hmem => hparts.right.right a hmem a List.mem_cons_self rfl
      rw [eraseDups_concat, if_neg ha, ih hparts.left]

theorem Path.eraseDups_stops (path : Path) : path.stops.eraseDups = path.stops :=
  eraseDups_of_nodup (Stop.nodup_along _ _)

namespace Stop

/-- The tables of a select, in order, when these stops were visited one after the other. -/
def tables (visited : List Stop) : List Stop :=
  .start :: visited.eraseDups

def number (visited : List Stop) (stop : Stop) : Alias :=
  { index := (tables visited).idxOf stop }

variable {visited : List Stop} {stop other before : Stop} {hop : Hop}

theorem mem_tables : stop ∈ tables visited ↔ stop = start ∨ stop ∈ visited := by
  rw [tables, List.mem_cons, List.mem_eraseDups]

theorem next_mem_tables : before.next hop ∈ tables visited ↔ before.next hop ∈ visited := by
  simp [mem_tables]

theorem start_mem_tables (visited : List Stop) : start ∈ tables visited :=
  List.mem_cons_self

theorem tables_append (visited later : List Stop) :
    tables (visited ++ later) = tables visited ++ (later.removeAll visited).eraseDups := by
  rw [tables, tables, List.eraseDups_append, List.cons_append]

theorem mem_tables_append (h : stop ∈ tables visited) (later : List Stop) :
    stop ∈ tables (visited ++ later) := by
  rw [tables_append]
  exact List.mem_append_left _ h

theorem mem_tables_concat (visited : List Stop) (stop : Stop) :
    stop ∈ tables (visited ++ [stop]) :=
  mem_tables.mpr (Or.inr (List.mem_append_right _ List.mem_cons_self))

theorem tables_concat_of_mem (h : stop ∈ visited) :
    tables (visited ++ [stop]) = tables visited := by
  rw [tables, tables, eraseDups_concat, if_pos h]

theorem tables_concat_of_notMem (h : stop ∉ visited) :
    tables (visited ++ [stop]) = tables visited ++ [stop] := by
  rw [tables, tables, eraseDups_concat, if_neg h, List.cons_append]

theorem number_start (visited : List Stop) : number visited start = Alias.root := by
  simp [number, tables, Alias.root]

theorem number_lt (h : stop ∈ tables visited) :
    (number visited stop).index < (tables visited).length :=
  List.idxOf_lt_length_of_mem h

theorem number_inj (h : stop ∈ tables visited) :
    number visited stop = number visited other ↔ stop = other := by
  simp only [number, Alias.mk.injEq]
  exact List.idxOf_inj h

theorem number_append (h : stop ∈ tables visited) (later : List Stop) :
    number (visited ++ later) stop = number visited stop := by
  simp only [number, tables_append, List.idxOf_append_of_mem h]

theorem number_concat_of_mem (h : stop ∈ visited) :
    number (visited ++ [stop]) = number visited := by
  funext other
  rw [number, number, tables_concat_of_mem h]

theorem number_concat_self (h : before.next hop ∉ visited) :
    number (visited ++ [before.next hop]) (before.next hop) =
      { index := (tables visited).length } := by
  have hnot : before.next hop ∉ tables visited := mt next_mem_tables.mp h
  simp [number, tables_concat_of_notMem h, List.idxOf_append_of_notMem hnot]

/-- Each stop was visited after the one that it is reached from. -/
inductive Laid : List Stop → Prop where
  | nil : Laid []
  | concat {visited : List Stop} {before : Stop} (hop : Hop) (laid : Laid visited)
      (mem : before ∈ tables visited) : Laid (visited ++ [before.next hop])

theorem Laid.nodup_tables (h : Laid visited) : (tables visited).Nodup := by
  induction h with
  | nil => exact List.nodup_singleton _
  | @concat visited before hop _ _ ih =>
      by_cases hmem : before.next hop ∈ visited
      · rw [tables_concat_of_mem hmem]
        exact ih
      · rw [tables_concat_of_notMem hmem, ← List.concat_eq_append]
        exact ih.concat (mt next_mem_tables.mp hmem)

theorem Laid.before_mem (h : Laid visited) (hmem : before.next hop ∈ visited) :
    before ∈ tables visited := by
  induction h with
  | nil => cases hmem
  | concat last _ hbefore ih =>
      apply mem_tables_append
      rcases List.mem_append.mp hmem with hearlier | hlast
      · exact ih hearlier
      · cases List.mem_singleton.mp hlast
        exact hbefore

/-- Nothing was reached yet from a stop that is visited for the first time. -/
theorem Laid.notMem_beyond (h : Laid visited) (hnew : before.next hop ∉ visited) (hop' : Hop) :
    (before.next hop).next hop' ∉ visited ++ [before.next hop] := by
  rw [List.mem_append, List.mem_singleton]
  intro hmem
  rcases hmem with hearlier | heq
  · exact hnew (next_mem_tables.mp (h.before_mem hearlier))
  · exact next_ne_self _ _ heq

end Stop

/-!
# Joins between stops

An entity is joined on its key with the value of the association. A slot is
joined on the key of the entity, and within the row of another slot on that row
as well.
-/

namespace Stop

variable {ctx : Context} {kind : JoinKind}

/-- The join that leads to a stop, for any numbering of the tables. -/
def join (ctx : Context) (kind : JoinKind) (number : Stop → Alias) : Stop → Option Join
  | start => none
  | next before (.slot name) =>
      let source := number before
      let target := number (before.next (.slot name))
      let sameEntity := Condition.columnEq (target.column ctx.layout.entityKeyColumn)
        (source.column ctx.layout.entityKeyColumn)
      let sameRow := Condition.columnEq (target.column ctx.layout.parentColumn)
        (source.column ctx.layout.rowIdColumn)
      (ctx.schema.slot? name).map fun info =>
        { source := source
          target := target
          table := info.table
          kind := kind
          conditions := if before.isNested then [sameEntity, sameRow] else [sameEntity] }
  | next before .entity =>
      let source := number before
      let target := number (before.next .entity)
      some
        { source := source
          target := target
          table := ctx.layout.entityTable
          kind := kind
          conditions := [.columnEq (target.column ctx.layout.entityKeyColumn)
            (source.column ctx.layout.valueColumn)] }

theorem source_and_target_of_join {number : Stop → Alias} {before : Stop} {hop : Hop}
    {join : Join} (h : (before.next hop).join ctx kind number = some join) :
    join.source = number before ∧ join.target = number (before.next hop) := by
  cases hop with
  | slot name =>
      simp only [Stop.join, Option.map_eq_some_iff] at h
      rcases h with ⟨info, _, hjoin⟩
      rw [← hjoin]
      exact ⟨rfl, rfl⟩
  | entity =>
      simp only [Stop.join, Option.some.injEq] at h
      rw [← h]
      exact ⟨rfl, rfl⟩

/-- The joins of the visited stops use no other numbers than those of their tables. -/
theorem Laid.join_congr {visited : List Stop} (h : Laid visited) {number number' : Stop → Alias}
    (hnumber : ∀ stop ∈ tables visited, number stop = number' stop) {stop : Stop}
    (hstop : stop ∈ visited) : stop.join ctx kind number = stop.join ctx kind number' := by
  cases stop with
  | start => rfl
  | next before hop =>
      have hbefore := hnumber before (h.before_mem hstop)
      have hnext := hnumber (before.next hop) (next_mem_tables.mpr hstop)
      cases hop <;> simp only [join, hbefore, hnext]

end Stop

/-!
# Chains of joins

The joins that lead to a table are found backwards, from the latest join to the
first one. When joins follow the stops, they are those of its trail.
-/

/-- The joins that lead to a table. The latest join is given first. -/
def Join.chain : List Join → Alias → List Join
  | [], _ => []
  | latest :: earlier, occurrence =>
      if latest.target = occurrence then
        chain earlier latest.source ++ [latest]
      else
        chain earlier occurrence

def Select.chainTo (query : Select) (occurrence : Alias) : List Join :=
  Join.chain query.joins.reverse occurrence

theorem chain_eq_trail {ctx : Context} {kind : JoinKind} {visited : List Stop}
    (hlaid : Stop.Laid visited) {number : Stop → Alias}
    (hnumber : ∀ stop ∈ Stop.tables visited, ∀ other ∈ Stop.tables visited,
      number stop = number other → stop = other) {joins : List Join}
    (hjoins : joins.map some = visited.eraseDups.map (Stop.join ctx kind number)) {stop : Stop}
    (hstop : stop ∈ Stop.tables visited) :
    (Join.chain joins.reverse (number stop)).map some =
      stop.trail.map (Stop.join ctx kind number) := by
  induction hlaid generalizing joins stop with
  | nil =>
      have hstart : stop = .start := by simpa [Stop.tables] using hstop
      have hnone : joins = [] := by simpa using hjoins
      subst hstart hnone
      rfl
  | @concat visited before hop hlaid hbefore ih =>
      by_cases hmem : before.next hop ∈ visited
      · rw [Stop.tables_concat_of_mem hmem] at hnumber hstop
        rw [eraseDups_concat, if_pos hmem] at hjoins
        exact ih hnumber hjoins hstop
      · rw [eraseDups_concat, if_neg hmem, List.map_append, List.map_singleton,
          List.map_eq_append_iff] at hjoins
        rcases hjoins with ⟨earlier, last, hsplit, hearlier, hlast⟩
        rcases List.map_eq_singleton_iff.mp hlast with ⟨latest, hlatest, hjoin⟩
        subst hsplit hlatest
        rcases Stop.source_and_target_of_join hjoin.symm with ⟨hsource, htarget⟩
        have hold : ∀ {stop}, stop ∈ Stop.tables visited →
            (Join.chain earlier.reverse (number stop)).map some =
              stop.trail.map (Stop.join ctx kind number) :=
          ih (fun stop hstop other hother => hnumber stop (Stop.mem_tables_append hstop _) other
            (Stop.mem_tables_append hother _)) hearlier
        rw [List.reverse_append, List.reverse_singleton, List.singleton_append, Join.chain,
          hsource, htarget]
        -- The numbers differ, so only the latest join leads to the latest stop.
        by_cases heq : stop = before.next hop
        · subst heq
          rw [if_pos rfl, List.map_append, hold hbefore, List.map_singleton, hjoin, Stop.trail,
            List.map_append, List.map_singleton]
        · have hne : number (before.next hop) ≠ number stop := by
            intro hnumbers
            exact heq (hnumber _ (Stop.mem_tables_concat _ _) stop hstop hnumbers).symm
          rw [if_neg hne]
          rw [Stop.tables_concat_of_notMem hmem, List.mem_append, List.mem_singleton] at hstop
          exact hold (hstop.resolve_right heq)

/-!
# Renamed tables
-/

def Column.renamed (rename : Alias → Alias) (column : Column) : Column :=
  match column.qualifier with
  | .table occurrence => (rename occurrence).column column.name
  | .word _ => column

/-- Paths join on equalities alone, so no other condition has to be renamed. -/
def Condition.renamed (rename : Alias → Alias) : Condition → Condition
  | .columnEq left right => .columnEq (left.renamed rename) (right.renamed rename)
  | other => other

def Join.renamed (rename : Alias → Alias) (join : Join) : Join :=
  { source := rename join.source
    target := rename join.target
    table := join.table
    kind := join.kind
    conditions := join.conditions.map (Condition.renamed rename) }

namespace Stop

variable {ctx : Context} {kind : JoinKind}

theorem map_renamed_join (rename : Alias → Alias) (number : Stop → Alias) (stop : Stop) :
    (stop.join ctx kind number).map (Join.renamed rename) =
      stop.join ctx kind fun stop => rename (number stop) := by
  cases stop with
  | start => rfl
  | next before hop =>
      cases hop with
      | slot name =>
          simp only [join, Option.map_map]
          congr 1
          funext info
          simp only [Function.comp, Join.renamed]
          split <;> rfl
      | entity => rfl

/-- The number that the table of a number has among other tables. -/
def renumber (visited visited' : List Stop) (occurrence : Alias) : Alias :=
  match (tables visited)[occurrence.index]? with
  | some stop => number visited' stop
  | none => occurrence

theorem renumber_number {visited : List Stop} (visited' : List Stop) {stop : Stop}
    (h : stop ∈ tables visited) :
    renumber visited visited' (number visited stop) = number visited' stop := by
  have hfound : (tables visited)[(number visited stop).index]? = some stop := by
    simp only [number]
    exact List.getElem?_idxOf h
  simp only [renumber, hfound]

theorem renumber_inj {visited visited' : List Stop} (hlaid : Laid visited)
    (hmem : ∀ stop ∈ tables visited, stop ∈ tables visited') {occurrence other : Alias}
    (h : occurrence.index < (tables visited).length) (h' : other.index < (tables visited).length)
    (heq : renumber visited visited' occurrence = renumber visited visited' other) :
    occurrence = other := by
  simp only [renumber, List.getElem?_eq_getElem h, List.getElem?_eq_getElem h'] at heq
  rw [number_inj (hmem _ (List.getElem_mem h)), hlaid.nodup_tables.getElem_inj_iff] at heq
  exact congrArg Alias.mk heq

end Stop

end SlotQuery
