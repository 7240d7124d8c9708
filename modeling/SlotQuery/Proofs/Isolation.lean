import Mathlib.Data.List.Forall2
import SlotQuery.Proofs.Construction
import SlotQuery.Proofs.Parameters

/-!
# Selects on their own

All selects of a statement are closed, so none of them looks at a table of the
select around it, although all of them use the same numbers. A closed filter
stands for the same keys wherever it stands.
-/

namespace SlotQuery

variable {engine : Engine} {db : Database engine} {layout : Layout}

/-!
# Scopes that agree

Two scopes are compared on the tables that a select has so far. How their rows
of the type table are compared is left open, since joins do not look at them.
-/

structure Scope.Agree (types : Row engine → Row engine → Prop) (count : Nat)
    (scope scope' : Scope engine) : Prop where
  types : types (scope .types) (scope' .types)
  tables : ∀ occurrence : Alias, occurrence.index < count →
    scope (.table occurrence) = scope' (.table occurrence)

theorem Scope.Agree.bind {types : Row engine → Row engine → Prop} {count : Nat}
    {scope scope' : Scope engine} (h : scope.Agree types count scope') {target : Alias}
    (htarget : target.index = count) (row : Row engine) :
    (scope.bind (.table target) row).Agree types (count + 1)
      (scope'.bind (.table target) row) where
  types := h.types
  tables := by
    intro occurrence hlt
    by_cases hnew : occurrence = target
    · rw [hnew, bind_self, bind_self]
    · have hne : occurrence.index ≠ target.index := fun heq => hnew (Alias.eq_of_index_eq heq)
      rw [bind_table_of_ne _ _ hnew, bind_table_of_ne _ _ hnew]
      exact h.tables occurrence (by omega)

/-- A link reads the new row and the row it is joined to. -/
theorem Join.IsLink.truth_bind {join : Join} (h : join.IsLink) {scope scope' : Scope engine}
    (hne : join.source ≠ join.target)
    (hsource : scope (.table join.source) = scope' (.table join.source)) (row : Row engine) :
    Condition.allTruth db layout (scope.bind (.table join.target) row) join.conditions =
      Condition.allTruth db layout (scope'.bind (.table join.target) row) join.conditions := by
  unfold IsLink at h
  generalize join.conditions = conditions at h ⊢
  induction conditions with
  | nil => rfl
  | cons condition rest ih =>
      rcases h condition List.mem_cons_self with ⟨own, other, heq⟩
      rw [Condition.allTruth, Condition.allTruth,
        ih fun later hlater => h later (List.mem_cons_of_mem _ hlater)]
      congr 1
      rw [heq, Condition.truth, Condition.truth]
      simp only [Scope.read_column, Scope.bind_self, Scope.bind_table_of_ne _ _ hne, hsource]

section

variable {types : Row engine → Row engine → Prop} {count : Nat} {scope scope' : Scope engine}

theorem Join.extend_agree {join : Join} (h : scope.Agree types count scope')
    (htarget : join.target.index = count) (hsource : join.source.index < count)
    (hlink : join.IsLink) :
    List.Forall₂ (Scope.Agree types (count + 1)) (Join.extend db layout scope join)
      (Join.extend db layout scope' join) := by
  have hne : join.source ≠ join.target := by
    intro heq
    rw [heq] at hsource
    omega
  have htruth : ∀ row : Row engine,
      Condition.allTruth db layout (scope.bind (.table join.target) row) join.conditions =
        Condition.allTruth db layout (scope'.bind (.table join.target) row) join.conditions :=
    fun row => hlink.truth_bind hne (h.tables join.source hsource) row
  cases join with
  | mk source target table kind conditions =>
      simp only [extend, htruth, List.forall₂_map_left_iff, List.forall₂_map_right_iff,
        List.forall₂_same]
      intro row _
      exact h.bind htarget row

/-- By induction on the joins, which number their tables on. -/
theorem Join.extendAll_agree {joins : List Join} (h : scope.Agree types count scope')
    (hjoins : ∀ (k : Nat) (join : Join), joins[k]? = some join →
      join.target.index = count + k ∧ join.source.index < count + k)
    (hlinks : ∀ join ∈ joins, join.IsLink) :
    List.Forall₂ (Scope.Agree types (count + joins.length)) (Join.extendAll db layout scope joins)
      (Join.extendAll db layout scope' joins) := by
  induction joins generalizing count scope scope' with
  | nil => exact List.Forall₂.cons h List.Forall₂.nil
  | cons join rest ih =>
      have hfirst := hjoins 0 join rfl
      have hextend : List.Forall₂ (Scope.Agree types (count + 1))
          (Join.extend db layout scope join) (Join.extend db layout scope' join) :=
        extend_agree h hfirst.left hfirst.right (hlinks join List.mem_cons_self)
      rw [extendAll, extendAll]
      refine List.rel_flatMap hextend ?_
      intro middle middle' hmiddle
      have hlength : count + (join :: rest).length = count + 1 + rest.length := by
        simp only [List.length_cons]
        omega
      rw [hlength]
      refine ih hmiddle ?_ fun later hlater => hlinks later (List.mem_cons_of_mem _ hlater)
      intro k later hlater
      have hbounds := hjoins (k + 1) later hlater
      omega

end

/-!
# Closed selects

The rows of a closed select agree on all that it reads, whatever stands around
it. Grouping and counting read no more than that.
-/

theorem Select.sources_agree (outer outer' : Scope engine) :
    List.Forall₂ (Scope.Agree Eq 1) (Select.sources db layout outer)
      (Select.sources db layout outer') := by
  have hentities : List.Forall₂ Eq (db.rows layout.entityTable) (db.rows layout.entityTable) :=
    List.forall₂_same.mpr fun _ _ => rfl
  refine List.rel_flatMap hentities ?_
  intro entity entity' hentity
  subst hentity
  simp only [List.forall₂_map_left_iff, List.forall₂_map_right_iff, List.forall₂_same]
  intro membership _
  constructor
  · rw [Scope.bind_self, Scope.bind_self]
  · intro occurrence hlt
    have hroot : occurrence = .root := Alias.eq_of_index_eq (by
      show occurrence.index = 0
      omega)
    have hne : Qualifier.table occurrence ≠ .types := fun heq => by cases heq
    rw [Scope.bind_of_ne _ _ hne, Scope.bind_of_ne _ _ hne, hroot, Scope.bind_self,
      Scope.bind_self]

namespace Select.IsClosed

variable {query : Select}

theorem numbered (h : query.IsClosed) (k : Nat) (join : Join)
    (hjoin : query.joins[k]? = some join) :
    join.target.index = 1 + k ∧ join.source.index < 1 + k := by
  refine ⟨(h.target k join hjoin).trans (Nat.add_comm k 1), ?_⟩
  rcases h.source k join hjoin with hroot | ⟨j, earlier, hlt, hearlier, hsource⟩
  · rw [hroot]
    show 0 < 1 + k
    omega
  · have htarget := h.target j earlier hearlier
    rw [hsource]
    omega

theorem read_eq (h : query.IsClosed) {scope scope' : Scope engine}
    (hagree : scope.Agree Eq (1 + query.joins.length) scope') {column : Column}
    (hcolumn : column ∈ query.columns) : scope.read column = scope'.read column := by
  have hrow : scope column.qualifier = scope' column.qualifier := by
    rcases h.columns column hcolumn with htypes | hroot | ⟨join, hjoin, htable⟩
    · rw [htypes]
      exact hagree.types
    · rw [hroot]
      exact hagree.tables .root (Nat.lt_of_lt_of_le Nat.zero_lt_one (Nat.le_add_right 1 _))
    · rcases List.getElem?_of_mem hjoin with ⟨k, hk⟩
      have hlt := (List.getElem?_eq_some_iff.mp hk).choose
      have htarget := h.target k join hk
      rw [htable]
      exact hagree.tables join.target (by omega)
  exact congrFun hrow column.name

theorem keepsGroup_eq (h : query.IsClosed) {scopes scopes' : List (Scope engine)}
    (hscopes : List.Forall₂ (Scope.Agree Eq (1 + query.joins.length)) scopes scopes')
    (key : engine.Cell) :
    Select.keepsGroup query.having (Select.group layout key scopes) =
      Select.keepsGroup query.having (Select.group layout key scopes') := by
  have hgroup : List.Forall₂ (Scope.Agree Eq (1 + query.joins.length))
      (Select.group layout key scopes) (Select.group layout key scopes') := by
    refine List.rel_filter ?_ hscopes
    intro scope scope' hagree
    have hkey : Select.entityKey layout scope = Select.entityKey layout scope' := by
      have hroot := hagree.tables .root (Nat.lt_of_lt_of_le Nat.zero_lt_one (Nat.le_add_right 1 _))
      exact congrFun hroot layout.entityKeyColumn
    simp only [hkey]
  have hempty : (Select.group layout key scopes).isEmpty =
      (Select.group layout key scopes').isEmpty := by
    rw [Bool.eq_iff_iff, List.isEmpty_iff_length_eq_zero, List.isEmpty_iff_length_eq_zero,
      hgroup.length_eq]
  unfold Select.keepsGroup
  cases hhaving : query.having with
  | none => simp only [hempty]
  | some having =>
      have hmem : having.column ∈ query.columns := by
        simp [Select.columns, hhaving]
      have hread : (Select.group layout key scopes).filterMap (fun scope =>
            scope.read having.column) =
          (Select.group layout key scopes').filterMap fun scope => scope.read having.column := by
        apply List.forall₂_eq_eq_eq ▸ List.rel_filterMap ?_ hgroup
        intro scope scope' hagree
        show Option.Rel Eq (scope.read having.column) (scope'.read having.column)
        rw [h.read_eq hagree hmem]
        cases scope'.read having.column with
        | none => exact Option.Rel.none
        | some cell => exact Option.Rel.some rfl
      simp only [hempty, hread]

end Select.IsClosed

/-!
# Conditions and filters

By recursion on the query. A condition depends on the columns that it reads, and
a filter within it on nothing.
-/

mutual

theorem Condition.truth_congr (condition : Condition) {scope scope' : Scope engine}
    (hcolumns : ∀ column ∈ condition.columns, scope.read column = scope'.read column)
    (hinner : ∀ part ∈ condition.queries, part.IsClosed) :
    Condition.truth db layout scope condition = Condition.truth db layout scope' condition := by
  cases condition with
  | compare column op value => simp only [Condition.truth, hcolumns column List.mem_cons_self]
  | columnEq left right =>
      simp only [Condition.truth, hcolumns left List.mem_cons_self,
        hcolumns right (List.mem_cons_of_mem _ List.mem_cons_self)]
  | isNull column => simp only [Condition.truth, hcolumns column List.mem_cons_self]
  | isNotNull column => simp only [Condition.truth, hcolumns column List.mem_cons_self]
  | regex column pattern => simp only [Condition.truth, hcolumns column List.mem_cons_self]
  | pathBelow column pattern => simp only [Condition.truth, hcolumns column List.mem_cons_self]
  | pathEquals column path => simp only [Condition.truth, hcolumns column List.mem_cons_self]
  | inList column ids => simp only [Condition.truth, hcolumns column List.mem_cons_self]
  | inQuery column query =>
      have hselects : ∀ key : engine.Cell, Filter.selects db layout scope key query =
          Filter.selects db layout scope' key query :=
        fun key => Filter.selects_congr query hinner scope scope' key
      simp only [Condition.truth, hcolumns column List.mem_cons_self, hselects]
  | and items => exact Condition.allTruth_congr items hcolumns hinner
  | or items => exact Condition.anyTruth_congr items hcolumns hinner
  | not operand =>
      simp only [Condition.truth, Condition.truth_congr operand hcolumns hinner]
  | never => rfl

theorem Condition.allTruth_congr (items : List Condition) {scope scope' : Scope engine}
    (hcolumns : ∀ column ∈ Condition.allColumns items, scope.read column = scope'.read column)
    (hinner : ∀ part ∈ Condition.allQueries items, part.IsClosed) :
    Condition.allTruth db layout scope items = Condition.allTruth db layout scope' items := by
  cases items with
  | nil => rfl
  | cons item rest =>
      rw [Condition.allTruth, Condition.allTruth,
        Condition.truth_congr item
          (fun column hcolumn => hcolumns column (List.mem_append_left _ hcolumn))
          (fun part hpart => hinner part (List.mem_append_left _ hpart)),
        Condition.allTruth_congr rest
          (fun column hcolumn => hcolumns column (List.mem_append_right _ hcolumn))
          (fun part hpart => hinner part (List.mem_append_right _ hpart))]

theorem Condition.anyTruth_congr (items : List Condition) {scope scope' : Scope engine}
    (hcolumns : ∀ column ∈ Condition.allColumns items, scope.read column = scope'.read column)
    (hinner : ∀ part ∈ Condition.allQueries items, part.IsClosed) :
    Condition.anyTruth db layout scope items = Condition.anyTruth db layout scope' items := by
  cases items with
  | nil => rfl
  | cons item rest =>
      rw [Condition.anyTruth, Condition.anyTruth,
        Condition.truth_congr item
          (fun column hcolumn => hcolumns column (List.mem_append_left _ hcolumn))
          (fun part hpart => hinner part (List.mem_append_left _ hpart)),
        Condition.anyTruth_congr rest
          (fun column hcolumn => hcolumns column (List.mem_append_right _ hcolumn))
          (fun part hpart => hinner part (List.mem_append_right _ hpart))]

/-- A filter of closed selects selects the same keys wherever it stands. -/
theorem Filter.selects_congr (filter : Filter) (h : ∀ part ∈ filter.queries, part.IsClosed)
    (outer outer' : Scope engine) (key : engine.Cell) :
    filter.selects db layout outer key = filter.selects db layout outer' key := by
  cases filter with
  | select query =>
      have hclosed := h query List.mem_cons_self
      have hscopes := Select.scopes_agree query hclosed
        (fun part hpart => h part (List.mem_cons_of_mem _ hpart)) outer outer'
      exact hclosed.keepsGroup_eq hscopes key
  | compound op operands =>
      cases op with
      | union => exact Filter.anySelects_congr operands h outer outer' key
      | intersect => exact Filter.allSelect_congr operands h outer outer' key
      | except => exact Filter.firstSelects_congr operands h outer outer' key

theorem Filter.anySelects_congr (operands : List Filter)
    (h : ∀ part ∈ Filter.allQueries operands, part.IsClosed) (outer outer' : Scope engine)
    (key : engine.Cell) :
    Filter.anySelects db layout outer key operands =
      Filter.anySelects db layout outer' key operands := by
  cases operands with
  | nil => rfl
  | cons operand rest =>
      rw [Filter.anySelects, Filter.anySelects,
        Filter.selects_congr operand (fun part hpart => h part (List.mem_append_left _ hpart))
          outer outer' key,
        Filter.anySelects_congr rest (fun part hpart => h part (List.mem_append_right _ hpart))
          outer outer' key]

theorem Filter.allSelect_congr (operands : List Filter)
    (h : ∀ part ∈ Filter.allQueries operands, part.IsClosed) (outer outer' : Scope engine)
    (key : engine.Cell) :
    Filter.allSelect db layout outer key operands =
      Filter.allSelect db layout outer' key operands := by
  cases operands with
  | nil => rfl
  | cons operand rest =>
      rw [Filter.allSelect, Filter.allSelect,
        Filter.selects_congr operand (fun part hpart => h part (List.mem_append_left _ hpart))
          outer outer' key,
        Filter.allSelect_congr rest (fun part hpart => h part (List.mem_append_right _ hpart))
          outer outer' key]

theorem Filter.firstSelects_congr (operands : List Filter)
    (h : ∀ part ∈ Filter.allQueries operands, part.IsClosed) (outer outer' : Scope engine)
    (key : engine.Cell) :
    Filter.firstSelects db layout outer key operands =
      Filter.firstSelects db layout outer' key operands := by
  cases operands with
  | nil => rfl
  | cons operand rest =>
      rw [Filter.firstSelects, Filter.firstSelects,
        Filter.selects_congr operand (fun part hpart => h part (List.mem_append_left _ hpart))
          outer outer' key,
        Filter.anySelects_congr rest (fun part hpart => h part (List.mem_append_right _ hpart))
          outer outer' key]

theorem Select.scopes_agree (query : Select) (hclosed : query.IsClosed)
    (hinner : ∀ part ∈ query.inner, part.IsClosed) (outer outer' : Scope engine) :
    List.Forall₂ (Scope.Agree Eq (1 + query.joins.length)) (Select.scopes db layout outer query)
      (Select.scopes db layout outer' query) := by
  cases query with
  | mk projection joins conditions having orderBy limit offset =>
      rw [Select.scopes, Select.scopes]
      refine List.rel_filter ?_ (List.rel_flatMap (Select.sources_agree outer outer') ?_)
      · intro scope scope' hagree
        have htruth : Condition.allTruth db layout scope conditions =
            Condition.allTruth db layout scope' conditions := by
          apply Condition.allTruth_congr conditions
          · intro column hcolumn
            apply hclosed.read_eq hagree
            simp only [Select.columns, List.mem_append]
            exact Or.inl (Or.inl (Or.inl hcolumn))
          · intro part hpart
            exact hinner part (List.mem_append_right _ hpart)
        simp only [htruth]
      · intro source source' hagree
        exact Join.extendAll_agree hagree hclosed.numbered hclosed.links

end

/-!
# Statements

Every select of a compiled filter is closed, and sorting keeps the outer select
closed, since a sort key is a column that a walk has reached.
-/

section

variable {ctx : Context}

theorem Filter.queries_merged (op : SetOp) (operands : List Filter) :
    (merged op operands).queries = operands.flatMap queries := by
  have hoperand : ∀ operand : Filter,
      (operandsFor op operand).flatMap queries = operand.queries := by
    intro operand
    cases operand with
    | select query => exact List.append_nil _
    | compound inner nested =>
        simp only [operandsFor]
        split
        · exact (allQueries_eq nested).symm
        · exact List.append_nil _
  show allQueries (operands.flatMap (operandsFor op)) = _
  simp only [allQueries_eq, List.flatMap_assoc, hoperand]

theorem Context.Builds.closed {filter : Filter} (h : ctx.Builds filter) :
    ∀ part ∈ filter.queries, part.IsClosed := by
  induction h with
  | select hoperand => exact hoperand.closed.queries
  | complement hoperand =>
      intro part hpart
      rw [SlotQuery.complement, Filter.queries_merged, List.flatMap_cons,
        List.flatMap_singleton] at hpart
      rcases List.mem_append.mp hpart with huniverse | hpositive
      · exact (Draft.IsOperand.allEntities ctx).closed.queries part huniverse
      · exact hoperand.closed.queries part hpositive
  | @combine op operands hop _ ih =>
      match operands with
      | [] =>
          have hall := Draft.IsOperand.allEntities ctx
          have hnever : ctx.allEntities.Admits .never :=
            ⟨by simp [Condition.columns], by simp [Condition.queries]⟩
          cases op with
          | union => exact (hall.addCondition hnever).closed.queries
          | intersect => exact hall.closed.queries
          | except => exact absurd rfl hop
      | [operand] => exact ih operand List.mem_cons_self
      | first :: second :: rest =>
          intro part hpart
          have hmerged : part ∈ (Filter.merged op (first :: second :: rest)).queries := hpart
          rw [Filter.queries_merged, List.mem_flatMap] at hmerged
          rcases hmerged with ⟨operand, hoperand, hpart⟩
          exact ih operand hoperand part hpart

theorem Draft.addSortKeys_closed {orders : List OrderBy} {draft draft' : Draft}
    {extra : List Column} (hclosed : draft.IsClosed)
    (h : draft.addSortKeys ctx orders = .ok (extra, draft')) :
    draft'.IsClosed ∧ draft.nextIndex ≤ draft'.nextIndex ∧
      ∀ column ∈ extra, ∃ occurrence : Alias, column.qualifier = .table occurrence ∧
        occurrence.index < draft'.nextIndex := by
  induction orders generalizing draft extra with
  | nil =>
      cases h
      exact ⟨hclosed, Nat.le_refl _, by simp⟩
  | cons first rest ih =>
      rcases addSortKeys_cons_cases h with ⟨order, _, hrest⟩ |
        ⟨path, order, reached, middle, later, _, hfollow, hrest, hextra⟩
      · rcases ih (hclosed.addOrder (Sees.column hclosed.root_lt _) order) hrest with
          ⟨hfinal, hle, hlater⟩
        exact ⟨hfinal, hle, hlater⟩
      · subst hextra
        rcases follow_extends hclosed hfollow with ⟨hmiddle, hholds⟩
        rcases ih (hmiddle.closed.addOrder hholds.sees_valueColumn order) hrest with
          ⟨hfinal, hle, hlater⟩
        refine ⟨hfinal, Nat.le_trans hmiddle.le hle, ?_⟩
        intro column hcolumn
        cases hcolumn with
        | head =>
            rcases hholds.valueColumn with ⟨occurrence, htable, hlt⟩
            exact ⟨occurrence, htable, Nat.lt_of_lt_of_le hlt hle⟩
        | tail _ hmem => exact hlater column hmem

theorem outerDraft_closed {projection : Projection} {filter : Option Filter}
    (hprojection : projection.extra = [])
    (hfilter : ∀ found, filter = some found → ∀ part ∈ found.queries, part.IsClosed) :
    (outerDraft ctx projection filter).IsClosed := by
  have hstart := Draft.IsClosed.ofTypes projection ctx.layout ctx.typeIds hprojection
  cases filter with
  | none => exact hstart
  | some found =>
      refine hstart.addCondition ⟨?_, hfilter found rfl⟩
      intro column hcolumn
      rw [List.mem_singleton.mp hcolumn]
      exact Draft.Sees.column Nat.one_pos _

/-- What a draft returns may be replaced by columns that it sees. -/
theorem Draft.IsClosed.returning {draft : Draft} (h : draft.IsClosed) {extra : List Column}
    (hextra : ∀ column ∈ extra, draft.Sees column.qualifier) (limit offset : Option UInt64) :
    Draft.IsClosed { draft with query :=
      { draft.query with projection := .entities extra, limit := limit, offset := offset } } where
  next := h.next
  joins := h.joins
  links := h.links
  known := h.known
  columns := by
    intro column hcolumn
    rcases List.mem_append.mp hcolumn with hold | hnew
    · exact h.columns column (List.mem_append_left _ hold)
    · exact hextra column hnew
  inner := by
    intro part hpart
    apply h.inner part
    simpa only [Select.inner_eq] using hpart

/-- The select of the entities, with the sort keys of the draft. -/
def Request.outerSelect (request : Request) (ctx : Context) (extra : List Column)
    (draft : Draft) : Select :=
  let sorted := if request.needsTieBreak then draft.addOrder (entityKeyColumn ctx) .asc else draft
  { sorted.query with
    projection := .entities extra
    limit := request.limit
    offset := request.offset }

theorem assemble_rows_iff {request : Request} {filter : Option Filter} {query : Select}
    (hrows : request.countOnly = false) :
    assemble ctx request filter = .ok query ↔
      ∃ extra draft, (outerDraft ctx (.entities []) filter).addSortKeys ctx request.orderBy =
        .ok (extra, draft) ∧ request.outerSelect ctx extra draft = query := by
  rw [assemble, if_neg (by simp [hrows])]
  simp only [bind_eq_ok, pure_eq_ok, Prod.exists, Request.outerSelect]

theorem Request.outerSelect_closed {draft : Draft} (h : draft.IsClosed) {extra : List Column}
    (hextra : ∀ column ∈ extra, draft.Sees column.qualifier) (request : Request) :
    ∀ part ∈ (request.outerSelect ctx extra draft).queries, part.IsClosed := by
  have hsorted : (if request.needsTieBreak then draft.addOrder (entityKeyColumn ctx) .asc
      else draft).IsClosed := by
    split
    · exact h.addOrder (Draft.Sees.column h.root_lt _) .asc
    · exact h
  refine (hsorted.returning ?_ request.limit request.offset).queries
  intro column hcolumn
  apply (hextra column hcolumn).mono
  split
  · exact Nat.le_refl _
  · exact Nat.le_refl _

theorem assemble_closed {request : Request} {filter : Option Filter} {query : Select}
    (hfilter : ∀ found, filter = some found → ∀ part ∈ found.queries, part.IsClosed)
    (h : assemble ctx request filter = .ok query) : ∀ part ∈ query.queries, part.IsClosed := by
  cases hrows : request.countOnly with
  | true =>
      rw [assemble, if_pos hrows] at h
      cases h
      exact (outerDraft_closed rfl hfilter).queries
  | false =>
      rcases (assemble_rows_iff hrows).mp h with ⟨extra, draft, hkeys, hquery⟩
      rcases Draft.addSortKeys_closed (outerDraft_closed rfl hfilter) hkeys with
        ⟨hdraft, _, hextra⟩
      rw [← hquery]
      exact Request.outerSelect_closed hdraft
        (fun column hcolumn => Or.inr (hextra column hcolumn)) request

theorem compileFilter_builds {predicate : Option Predicate} {filter : Option Filter}
    (h : Compiler.compileFilter ctx predicate = .ok filter) {found : Filter}
    (hfound : filter = some found) : ctx.Builds found := by
  cases predicate with
  | none =>
      cases h
      cases hfound
  | some predicate =>
      simp only [Compiler.compileFilter, bind_eq_ok, pure_eq_ok] at h
      rcases h with ⟨compiled, hcompiled, hfilter⟩
      rw [← hfilter] at hfound
      cases hfound
      exact compilePredicate_builds predicate hcompiled

end

/-- Every select of a statement is closed, and what stands around it does not matter to it. -/
theorem select_closed {compiler : Compiler} {request : Request} {query : Select}
    (h : compiler.select request = .ok query) :
    ∀ part ∈ query.queries, part.IsClosed ∧
      ∀ (engine : Engine) (db : Database engine) (outer outer' : Scope engine)
        (key : engine.Cell), (Filter.select part).selects db compiler.layout outer key =
          (Filter.select part).selects db compiler.layout outer' key := by
  have hclosed : ∀ part ∈ query.queries, part.IsClosed := by
    simp only [Compiler.select, bind_eq_ok] at h
    rcases h with ⟨ctx, _, filter, hfilter, hassemble⟩
    exact assemble_closed (fun found hfound => (compileFilter_builds hfilter hfound).closed)
      hassemble
  intro part hpart
  refine ⟨hclosed part hpart, ?_⟩
  intro engine db outer outer' key
  refine Filter.selects_congr (.select part) ?_ outer outer' key
  intro deeper hdeeper
  exact hclosed deeper (query.queries_allWithin part hpart deeper hdeeper)

/-- Partly tagged people take five selects, the longest of them with three joins. -/
theorem selects_of_partlyTagged_closed :
    ∃ query : Select, People.compiler.select (People.partlyTagged "Paris" "red") = .ok query ∧
      query.queries.map (fun part => part.joins.length) = [1, 3, 1, 0, 1] ∧
      ∀ part ∈ query.queries, part.IsClosed := by
  have hselect : ∃ query : Select,
      People.compiler.select (People.partlyTagged "Paris" "red") = .ok query ∧
        query.queries.map (fun part => part.joins.length) = [1, 3, 1, 0, 1] := by
    unfold Compiler.select
    rw [show (People.partlyTagged "Paris" "red").resultType = "Person" from rfl,
      People.contextFor_person]
    exact ⟨_, rfl, rfl⟩
  rcases hselect with ⟨query, hquery, hjoins⟩
  exact ⟨query, hquery, hjoins, fun part hpart => (select_closed hquery part hpart).left⟩

end SlotQuery
