import SlotQuery.Compile.Statement
import SlotQuery.Proofs.Descent

/-!
# Tables in scope

Every select brings its own tables: the type table, the entity table with number
zero, and one table for each join, numbered in order. A draft keeps to that. It
only ever joins to a table it has, and what it looks at stands in its tables, also
where a join is used again.
-/

namespace SlotQuery

/-!
# What is read

A condition reads columns, and it may hold whole filters, which read columns of
their own.
-/

mutual

/-- The columns that a condition reads itself. -/
def Condition.columns : Condition → List Column
  | .compare column _ _ | .isNull column | .isNotNull column | .regex column _
  | .pathBelow column _ | .pathEquals column _ | .inList column _ | .inQuery column _ => [column]
  | .columnEq left right => [left, right]
  | .and items | .or items => Condition.allColumns items
  | .not operand => Condition.columns operand
  | .never => []

def Condition.allColumns : List Condition → List Column
  | [] => []
  | item :: rest => Condition.columns item ++ Condition.allColumns rest

end

mutual

/-- The selects within a condition, at any depth. -/
def Condition.queries : Condition → List Select
  | .inQuery _ query => Filter.queries query
  | .and items | .or items => Condition.allQueries items
  | .not operand => Condition.queries operand
  | .compare _ _ _ | .columnEq _ _ | .isNull _ | .isNotNull _ | .regex _ _ | .pathBelow _ _
  | .pathEquals _ _ | .inList _ _ | .never => []

def Condition.allQueries : List Condition → List Select
  | [] => []
  | item :: rest => Condition.queries item ++ Condition.allQueries rest

def Filter.queries : Filter → List Select
  | .select query => query :: Select.inner query
  | .compound _ operands => Filter.allQueries operands

def Filter.allQueries : List Filter → List Select
  | [] => []
  | operand :: rest => Filter.queries operand ++ Filter.allQueries rest

/-- The selects within a select, without itself. -/
def Select.inner : Select → List Select
  | { joins, conditions, .. } => Join.allQueries joins ++ Condition.allQueries conditions

def Join.allQueries : List Join → List Select
  | [] => []
  | join :: rest => Join.queries join ++ Join.allQueries rest

def Join.queries : Join → List Select
  | { conditions, .. } => Condition.allQueries conditions

end

/-- The select and all selects within it. -/
def Select.queries (query : Select) : List Select :=
  query :: query.inner

def Projection.extra : Projection → List Column
  | .entities extra => extra
  | .entityKey | .count => []

/-- What a select reads outside of its joins. -/
def Select.columns (query : Select) : List Column :=
  Condition.allColumns query.conditions ++ query.having.toList.map Having.column ++
    query.orderBy.map Prod.fst ++ query.projection.extra

theorem Condition.allColumns_eq (items : List Condition) :
    Condition.allColumns items = items.flatMap Condition.columns := by
  induction items with
  | nil => rfl
  | cons item rest ih => exact congrArg (item.columns ++ ·) ih

theorem Condition.allQueries_eq (items : List Condition) :
    Condition.allQueries items = items.flatMap Condition.queries := by
  induction items with
  | nil => rfl
  | cons item rest ih => exact congrArg (item.queries ++ ·) ih

theorem Filter.allQueries_eq (operands : List Filter) :
    Filter.allQueries operands = operands.flatMap Filter.queries := by
  induction operands with
  | nil => rfl
  | cons operand rest ih => exact congrArg (operand.queries ++ ·) ih

theorem Join.allQueries_eq (joins : List Join) :
    Join.allQueries joins = joins.flatMap Join.queries := by
  induction joins with
  | nil => rfl
  | cons join rest ih => exact congrArg (join.queries ++ ·) ih

theorem Select.inner_eq (query : Select) :
    query.inner =
      query.joins.flatMap Join.queries ++ query.conditions.flatMap Condition.queries := by
  rw [← Join.allQueries_eq, ← Condition.allQueries_eq]
  cases query
  rfl

/-- Selects within a select of the list are in the list as well. -/
def Select.AllWithin (parts : List Select) : Prop :=
  ∀ part ∈ parts, ∀ deeper ∈ part.queries, deeper ∈ parts

theorem Select.AllWithin.append {parts later : List Select} (h : AllWithin parts)
    (h' : AllWithin later) : AllWithin (parts ++ later) := by
  intro part hpart deeper hdeeper
  rcases List.mem_append.mp hpart with hfirst | hlater
  · exact List.mem_append_left _ (h part hfirst deeper hdeeper)
  · exact List.mem_append_right _ (h' part hlater deeper hdeeper)

theorem Select.AllWithin.nil : AllWithin [] := by
  intro part hpart
  cases hpart

mutual

theorem Condition.queries_allWithin (condition : Condition) :
    Select.AllWithin condition.queries := by
  cases condition with
  | inQuery column query => exact Filter.queries_allWithin query
  | and items | or items => exact Condition.allQueries_allWithin items
  | not operand => exact Condition.queries_allWithin operand
  | compare _ _ _ | columnEq _ _ | isNull _ | isNotNull _ | regex _ _ | pathBelow _ _
  | pathEquals _ _ | inList _ _ | never => exact Select.AllWithin.nil

theorem Condition.allQueries_allWithin (items : List Condition) :
    Select.AllWithin (Condition.allQueries items) := by
  cases items with
  | nil => exact Select.AllWithin.nil
  | cons item rest =>
      exact (Condition.queries_allWithin item).append (Condition.allQueries_allWithin rest)

theorem Filter.queries_allWithin (filter : Filter) : Select.AllWithin filter.queries := by
  cases filter with
  | select query => exact Select.queries_allWithin query
  | compound op operands => exact Filter.allQueries_allWithin operands

theorem Filter.allQueries_allWithin (operands : List Filter) :
    Select.AllWithin (Filter.allQueries operands) := by
  cases operands with
  | nil => exact Select.AllWithin.nil
  | cons operand rest =>
      exact (Filter.queries_allWithin operand).append (Filter.allQueries_allWithin rest)

theorem Select.queries_allWithin (query : Select) : Select.AllWithin query.queries := by
  have hinner : Select.AllWithin query.inner := by
    cases query with
    | mk projection joins conditions having orderBy limit offset =>
        exact (Join.allQueries_allWithin joins).append (Condition.allQueries_allWithin conditions)
  intro part hpart deeper hdeeper
  cases hpart with
  | head => exact hdeeper
  | tail _ hwithin => exact List.mem_cons_of_mem _ (hinner part hwithin deeper hdeeper)

theorem Join.allQueries_allWithin (joins : List Join) :
    Select.AllWithin (Join.allQueries joins) := by
  cases joins with
  | nil => exact Select.AllWithin.nil
  | cons join rest =>
      exact (Join.queries_allWithin join).append (Join.allQueries_allWithin rest)

theorem Join.queries_allWithin (join : Join) : Select.AllWithin join.queries := by
  cases join with
  | mk source target table kind conditions => exact Condition.allQueries_allWithin conditions

end

/-!
# Closed selects

The tables of a closed select are numbered by its joins. Each join starts from a
table that is there before it and says by equality of columns how the two belong
together, and the rest of the select looks at nothing but its own tables.
-/

/-- The type table, the entity table and the tables that were joined. -/
def Select.Sees (query : Select) (qualifier : Qualifier) : Prop :=
  qualifier = .types ∨ qualifier = .table .root ∨
    ∃ join ∈ query.joins, qualifier = .table join.target

/-- All conditions equate a column of the new table with one of the table it is joined to. -/
def Join.IsLink (join : Join) : Prop :=
  ∀ condition ∈ join.conditions, ∃ own other : String,
    condition = .columnEq (join.target.column own) (join.source.column other)

structure Select.IsClosed (query : Select) : Prop where
  target : ∀ (k : Nat) (join : Join), query.joins[k]? = some join → join.target.index = k + 1
  source : ∀ (k : Nat) (join : Join), query.joins[k]? = some join →
    join.source = .root ∨ ∃ (j : Nat) (earlier : Join), j < k ∧
      query.joins[j]? = some earlier ∧ join.source = earlier.target
  links : ∀ join ∈ query.joins, join.IsLink
  columns : ∀ column ∈ query.columns, query.Sees column.qualifier

theorem Join.IsLink.queries_eq_nil {join : Join} (h : join.IsLink) : join.queries = [] := by
  cases join with
  | mk source target table kind conditions =>
      rw [queries, Condition.allQueries_eq, List.flatMap_eq_nil_iff]
      intro condition hcondition
      rcases h condition hcondition with ⟨own, other, heq⟩
      rw [heq]
      rfl

/-!
# Closed drafts

A draft has given out the numbers below its next one, and remembers no others.
-/

namespace Draft

def Sees (draft : Draft) (qualifier : Qualifier) : Prop :=
  qualifier = .types ∨
    ∃ occurrence : Alias, qualifier = .table occurrence ∧ occurrence.index < draft.nextIndex

/-- The condition can be added: it reads tables of the draft, and its filters are closed. -/
structure Admits (draft : Draft) (condition : Condition) : Prop where
  columns : ∀ column ∈ condition.columns, draft.Sees column.qualifier
  inner : ∀ part ∈ condition.queries, part.IsClosed

structure IsClosed (draft : Draft) : Prop where
  next : draft.nextIndex = draft.query.joins.length + 1
  joins : ∀ (k : Nat) (join : Join), draft.query.joins[k]? = some join →
    join.target.index = k + 1 ∧ join.source.index ≤ k
  links : ∀ join ∈ draft.query.joins, join.IsLink
  known : ∀ (key : JoinKey) (found : Alias), draft.known? key = some found →
    found.index < draft.nextIndex
  columns : ∀ column ∈ draft.query.columns, draft.Sees column.qualifier
  inner : ∀ part ∈ draft.query.inner, part.IsClosed

theorem Sees.mono {draft draft' : Draft} {qualifier : Qualifier} (h : draft.Sees qualifier)
    (hle : draft.nextIndex ≤ draft'.nextIndex) : draft'.Sees qualifier := by
  rcases h with htypes | ⟨occurrence, htable, hlt⟩
  · exact Or.inl htypes
  · exact Or.inr ⟨occurrence, htable, Nat.lt_of_lt_of_le hlt hle⟩

theorem Sees.column {draft : Draft} {occurrence : Alias}
    (h : occurrence.index < draft.nextIndex) (name : String) :
    draft.Sees (occurrence.column name).qualifier :=
  Or.inr ⟨occurrence, rfl, h⟩

theorem Admits.mono {draft draft' : Draft} {condition : Condition} (h : draft.Admits condition)
    (hle : draft.nextIndex ≤ draft'.nextIndex) : draft'.Admits condition where
  columns := fun column hcolumn => (h.columns column hcolumn).mono hle
  inner := h.inner

/-- A condition that holds no filter and reads one column. -/
theorem Admits.single {draft : Draft} {condition : Condition} {column : Column}
    (hcolumns : condition.columns = [column]) (hinner : condition.queries = [])
    (h : draft.Sees column.qualifier) : draft.Admits condition where
  columns := by
    intro other hother
    rw [hcolumns] at hother
    rw [List.mem_singleton.mp hother]
    exact h
  inner := by
    intro part hpart
    rw [hinner] at hpart
    cases hpart

theorem Admits.all {draft : Draft} {items : List Condition}
    (h : ∀ item ∈ items, draft.Admits item) : draft.Admits (.and items) where
  columns := by
    intro column hcolumn
    rw [Condition.columns, Condition.allColumns_eq, List.mem_flatMap] at hcolumn
    rcases hcolumn with ⟨item, hitem, hcolumn⟩
    exact (h item hitem).columns column hcolumn
  inner := by
    intro part hpart
    rw [Condition.queries, Condition.allQueries_eq, List.mem_flatMap] at hpart
    rcases hpart with ⟨item, hitem, hpart⟩
    exact (h item hitem).inner part hpart

/-- A disjunction reads what a conjunction of the same conditions reads. -/
theorem Admits.any {draft : Draft} {items : List Condition}
    (h : ∀ item ∈ items, draft.Admits item) : draft.Admits (.or items) where
  columns := (Admits.all h).columns
  inner := (Admits.all h).inner

theorem Admits.bracketed {draft : Draft} {items : List Condition}
    (h : ∀ item ∈ items, draft.Admits item) :
    draft.Admits (.all items) ∧ draft.Admits (.any items) := by
  match items with
  | [] => exact ⟨Admits.all h, Admits.any h⟩
  | [item] => exact ⟨h item List.mem_cons_self, h item List.mem_cons_self⟩
  | first :: second :: rest => exact ⟨Admits.all h, Admits.any h⟩

namespace IsClosed

variable {draft : Draft}

/-- Each number that was given out is the one of the entity table or of a join. -/
theorem root_lt (h : draft.IsClosed) : Alias.root.index < draft.nextIndex := by
  rw [h.next]
  exact Nat.succ_pos _

theorem exists_join (h : draft.IsClosed) {occurrence : Alias}
    (hlt : occurrence.index < draft.nextIndex) :
    occurrence = .root ∨ ∃ (j : Nat) (join : Join), j + 1 = occurrence.index ∧
      draft.query.joins[j]? = some join ∧ occurrence = join.target := by
  cases hindex : occurrence.index with
  | zero => exact Or.inl (Alias.eq_of_index_eq hindex)
  | succ j =>
      have hj : j < draft.query.joins.length := by
        have hnext := h.next
        omega
      have hjoin := List.getElem?_eq_getElem hj
      have htarget := (h.joins j _ hjoin).left
      exact Or.inr ⟨j, _, rfl, hjoin, Alias.eq_of_index_eq (hindex.trans htarget.symm)⟩

theorem select (h : draft.IsClosed) : draft.query.IsClosed where
  target := fun k join hjoin => (h.joins k join hjoin).left
  source := by
    intro k join hjoin
    have hle := (h.joins k join hjoin).right
    have hk := (List.getElem?_eq_some_iff.mp hjoin).choose
    have hnext := h.next
    have hlt : join.source.index < draft.nextIndex := by omega
    rcases h.exists_join hlt with hroot | ⟨j, earlier, hindex, hearlier, hsource⟩
    · exact Or.inl hroot
    · exact Or.inr ⟨j, earlier, by omega, hearlier, hsource⟩
  links := h.links
  columns := by
    intro column hcolumn
    rcases h.columns column hcolumn with htypes | ⟨occurrence, htable, hlt⟩
    · exact Or.inl htypes
    · rcases h.exists_join hlt with hroot | ⟨j, join, _, hjoin, htarget⟩
      · exact Or.inr (Or.inl (htable.trans (congrArg Qualifier.table hroot)))
      · exact Or.inr (Or.inr ⟨join, List.mem_of_getElem? hjoin,
          htable.trans (congrArg Qualifier.table htarget)⟩)

theorem queries (h : draft.IsClosed) : ∀ part ∈ draft.query.queries, part.IsClosed := by
  intro part hpart
  cases hpart with
  | head => exact h.select
  | tail _ hinner => exact h.inner part hinner

theorem ofTypes (projection : Projection) (layout : Layout) (typeIds : List Int64)
    (hextra : projection.extra = []) : (Draft.ofTypes projection layout typeIds).IsClosed where
  next := rfl
  joins := by
    intro k join hjoin
    cases hjoin
  links := by
    intro join hjoin
    cases hjoin
  known := by
    intro key found hknown
    cases hknown
  columns := by
    intro column hcolumn
    simp only [Select.columns, Draft.ofTypes, Select.ofTypes, hextra, Condition.allColumns,
      Condition.columns, Option.toList_none, List.map_nil, List.append_nil,
      List.mem_singleton] at hcolumn
    rw [hcolumn]
    exact Or.inl rfl
  inner := by
    intro part hpart
    cases hpart

theorem withJoin (h : draft.IsClosed) (key : JoinKey) {join : Join}
    (htarget : join.target = draft.next) (hsource : join.source.index < draft.nextIndex)
    (hlink : join.IsLink) : (draft.withJoin key join).IsClosed where
  next := by
    have hnext := h.next
    simp only [Draft.withJoin, addJoin, takeAlias, List.length_append, List.length_singleton]
    omega
  joins := by
    intro k other hother
    have hnext := h.next
    simp only [Draft.withJoin, addJoin, takeAlias] at hother
    by_cases hk : k < draft.query.joins.length
    · rw [List.getElem?_append_left hk] at hother
      exact h.joins k other hother
    · rw [List.getElem?_append_right (Nat.le_of_not_lt hk), List.getElem?_singleton] at hother
      split at hother
      · cases hother
        rw [htarget]
        simp only [Draft.next]
        omega
      · cases hother
  links := by
    intro other hother
    rcases List.mem_append.mp hother with hold | hnew
    · exact h.links other hold
    · rw [List.mem_singleton.mp hnew]
      exact hlink
  known := by
    intro other found hknown
    by_cases hkey : other = key
    · rw [hkey, withJoin_known?_self, htarget] at hknown
      cases hknown
      exact Nat.lt_succ_self _
    · rw [withJoin_known?_of_ne join hkey] at hknown
      exact Nat.lt_succ_of_lt (h.known other found hknown)
  columns := fun column hcolumn => (h.columns column hcolumn).mono (Nat.le_succ _)
  inner := by
    intro part hpart
    apply h.inner part
    simpa only [Draft.withJoin, addJoin, takeAlias, Select.inner_eq, List.flatMap_append,
      List.flatMap_singleton, hlink.queries_eq_nil, List.append_nil] using hpart

theorem addCondition (h : draft.IsClosed) {condition : Condition}
    (hadmits : draft.Admits condition) : (draft.addCondition condition).IsClosed where
  next := h.next
  joins := h.joins
  links := h.links
  known := h.known
  columns := by
    intro column hcolumn
    simp only [Select.columns, Draft.addCondition, Condition.allColumns_eq, List.flatMap_append,
      List.flatMap_singleton, List.mem_append] at hcolumn
    by_cases hnew : column ∈ condition.columns
    · exact hadmits.columns column hnew
    · apply h.columns column
      simp only [Select.columns, Condition.allColumns_eq, List.mem_append]
      simpa only [hnew, or_false] using hcolumn
  inner := by
    intro part hpart
    simp only [Draft.addCondition, Select.inner_eq, List.flatMap_append, List.flatMap_singleton,
      List.mem_append] at hpart
    by_cases hnew : part ∈ condition.queries
    · exact hadmits.inner part hnew
    · apply h.inner part
      simpa only [Select.inner_eq, List.mem_append, hnew, or_false] using hpart

theorem withHaving (h : draft.IsClosed) {having : Having}
    (hsees : draft.Sees having.column.qualifier) : (draft.withHaving having).IsClosed where
  next := h.next
  joins := h.joins
  links := h.links
  known := h.known
  columns := by
    intro column hcolumn
    simp only [Select.columns, Draft.withHaving, Option.toList_some, List.map_singleton,
      List.mem_append, List.mem_singleton] at hcolumn
    by_cases hnew : column = having.column
    · rw [hnew]
      exact hsees
    · apply h.columns column
      simp only [Select.columns, List.mem_append]
      simp only [hnew, or_false] at hcolumn
      rcases hcolumn with (hcondition | horder) | hextra
      · exact Or.inl (Or.inl (Or.inl hcondition))
      · exact Or.inl (Or.inr horder)
      · exact Or.inr hextra
  inner := by
    intro part hpart
    apply h.inner part
    simpa only [Draft.withHaving, Select.inner_eq] using hpart

theorem addOrder (h : draft.IsClosed) {column : Column} (hsees : draft.Sees column.qualifier)
    (order : SortOrder) : (draft.addOrder column order).IsClosed where
  next := h.next
  joins := h.joins
  links := h.links
  known := h.known
  columns := by
    intro other hother
    simp only [Select.columns, Draft.addOrder, List.map_append, List.map_singleton,
      List.mem_append, List.mem_singleton] at hother
    by_cases hnew : other = column
    · rw [hnew]
      exact hsees
    · apply h.columns other
      simp only [Select.columns, List.mem_append]
      simpa only [hnew, or_false] using hother
  inner := by
    intro part hpart
    apply h.inner part
    simpa only [Draft.addOrder, Select.inner_eq] using hpart

end IsClosed

/-!
# Navigation

What a walk adds keeps the draft closed, and what it reaches is in the draft.
-/

/-- The draft went on with further joins and is closed. -/
structure Extends (draft draft' : Draft) : Prop where
  closed : draft'.IsClosed
  grows : ∃ joins, draft.Grows joins draft'

theorem Extends.refl {draft : Draft} (h : draft.IsClosed) : draft.Extends draft where
  closed := h
  grows := ⟨[], Grows.refl draft⟩

theorem Extends.trans {draft middle draft' : Draft} (h : draft.Extends middle)
    (h' : middle.Extends draft') : draft.Extends draft' where
  closed := h'.closed
  grows := by
    rcases h.grows with ⟨joins, hgrows⟩
    rcases h'.grows with ⟨joins', hgrows'⟩
    exact ⟨joins ++ joins', hgrows.trans hgrows'⟩

theorem Extends.le {draft draft' : Draft} (h : draft.Extends draft') :
    draft.nextIndex ≤ draft'.nextIndex := by
  rcases h.grows with ⟨joins, hgrows⟩
  exact hgrows.le

section

variable {ctx : Context} {draft draft' : Draft}

theorem slotJoin_isLink (ctx : Context) (origin : Origin) (target : Alias) (info : SlotInfo)
    (kind : JoinKind) : (slotJoin ctx origin target info kind).IsLink := by
  intro condition hcondition
  cases origin with
  | entity occurrence =>
      rw [List.mem_singleton.mp hcondition]
      exact ⟨_, _, rfl⟩
  | row occurrence =>
      rcases List.mem_cons.mp hcondition with hentity | hrow
      · rw [hentity]
        exact ⟨_, _, rfl⟩
      · rw [List.mem_singleton.mp hrow]
        exact ⟨_, _, rfl⟩

theorem targetJoin_isLink (ctx : Context) (slot target : Alias) (kind : JoinKind) :
    (targetJoin ctx slot target kind).IsLink := by
  intro condition hcondition
  rw [List.mem_singleton.mp hcondition]
  exact ⟨_, _, rfl⟩

theorem joinSlot_extends {origin : Origin} {name : QualifiedName} {kind : JoinKind} {slot : Alias}
    (h : draft.IsClosed) (horigin : origin.occurrence.index < draft.nextIndex)
    (hjoin : draft.joinSlot ctx origin name kind = .ok (slot, draft')) :
    draft.Extends draft' ∧ slot.index < draft'.nextIndex := by
  rcases joinSlot_cases hjoin with ⟨hknown, hdraft⟩ | ⟨_, info, _, hslot, hdraft⟩
  · subst hdraft
    exact ⟨Extends.refl h, h.known _ _ hknown⟩
  · subst hslot hdraft
    refine ⟨⟨?_, _, Grows.withJoin draft _ rfl⟩, Nat.lt_succ_self _⟩
    exact h.withJoin _ rfl horigin (slotJoin_isLink ctx origin _ info kind)

theorem joinTarget_extends (ctx : Context) {slot : Alias} (kind : JoinKind) (h : draft.IsClosed)
    (hslot : slot.index < draft.nextIndex) :
    draft.Extends (draft.joinTarget ctx slot kind).snd ∧
      (draft.joinTarget ctx slot kind).fst.index <
        (draft.joinTarget ctx slot kind).snd.nextIndex := by
  cases hknown : draft.known? (.target slot) with
  | some found =>
      simp only [joinTarget, hknown]
      exact ⟨Extends.refl h, h.known _ _ hknown⟩
  | none =>
      rw [joinTarget_eq hknown]
      refine ⟨⟨?_, _, Grows.withJoin draft _ rfl⟩, Nat.lt_succ_self _⟩
      exact h.withJoin _ rfl hslot (targetJoin_isLink ctx slot _ kind)

/-- What a path has led to is in the draft. -/
structure Holds (draft : Draft) (reached : Reached) : Prop where
  slot : reached.slot.index < draft.nextIndex
  target : ∀ entity, reached.target = some entity → entity.index < draft.nextIndex

theorem Holds.mono {reached : Reached} (h : draft.Holds reached)
    (hle : draft.nextIndex ≤ draft'.nextIndex) : draft'.Holds reached where
  slot := Nat.lt_of_lt_of_le h.slot hle
  target := fun entity hentity => Nat.lt_of_lt_of_le (h.target entity hentity) hle

theorem Holds.valueColumn {reached : Reached} (h : draft.Holds reached) :
    ∃ occurrence : Alias, (reached.valueColumn ctx).qualifier = .table occurrence ∧
      occurrence.index < draft.nextIndex := by
  unfold Reached.valueColumn
  cases htarget : reached.target with
  | none => exact ⟨reached.slot, rfl, h.slot⟩
  | some entity => exact ⟨entity, rfl, h.target entity htarget⟩

theorem Holds.sees_valueColumn {reached : Reached} (h : draft.Holds reached) :
    draft.Sees (reached.valueColumn ctx).qualifier :=
  Or.inr h.valueColumn

theorem followSteps_extends {kind : JoinKind} {pathEnd : PathEnd} {steps : List PathStep}
    {origin : Origin} {reached reached' : Reached} (hclosed : draft.IsClosed)
    (horigin : origin.occurrence.index < draft.nextIndex) (hreached : draft.Holds reached)
    (h : draft.followSteps ctx kind pathEnd steps origin reached = .ok (reached', draft')) :
    draft.Extends draft' ∧ draft'.Holds reached' := by
  induction steps generalizing origin reached draft with
  | nil =>
      cases h
      exact ⟨Extends.refl hclosed, hreached⟩
  | cons step rest ih =>
      simp only [followSteps, bind_eq_ok] at h
      rcases h with ⟨⟨slot, middle⟩, hjoin, hrest⟩
      rcases joinSlot_extends hclosed horigin hjoin with ⟨hslot, hlt⟩
      have hreached' : middle.Holds { slot := slot, target := none } :=
        ⟨hlt, fun entity hentity => by cases hentity⟩
      split at hrest
      · split at hrest
        · cases hrest
          exact ⟨hslot, hreached'⟩
        · rcases joinTarget_extends ctx kind hslot.closed hlt with ⟨htarget, hlt'⟩
          have hreached'' : (middle.joinTarget ctx slot kind).snd.Holds
              { slot := slot, target := some (middle.joinTarget ctx slot kind).fst } := by
            refine ⟨Nat.lt_of_lt_of_le hlt htarget.le, ?_⟩
            intro entity hentity
            cases hentity
            exact hlt'
          have horigin' : (Origin.entity (middle.joinTarget ctx slot kind).fst).occurrence.index <
              (middle.joinTarget ctx slot kind).snd.nextIndex := hlt'
          rcases ih htarget.closed horigin' hreached'' hrest with ⟨hlater, hend⟩
          exact ⟨hslot.trans (htarget.trans hlater), hend⟩
      · have horigin' : (Origin.row slot).occurrence.index < middle.nextIndex := hlt
        rcases ih hslot.closed horigin' hreached' hrest with ⟨hlater, hend⟩
        exact ⟨hslot.trans hlater, hend⟩

theorem follow_extends {path : Path} {kind : JoinKind} {pathEnd : PathEnd} {reached : Reached}
    (hclosed : draft.IsClosed) (h : draft.follow ctx path kind pathEnd = .ok (reached, draft')) :
    draft.Extends draft' ∧ draft'.Holds reached := by
  have hroot : (Origin.entity .root).occurrence.index < draft.nextIndex := hclosed.root_lt
  exact followSteps_extends hclosed hroot ⟨hroot, fun entity hentity => by cases hentity⟩ h

theorem followToElements_extends {path : Path} {withTargets : Bool} {elements : Reached}
    (hclosed : draft.IsClosed)
    (h : draft.followToElements ctx path withTargets = .ok (elements, draft')) :
    draft.Extends draft' ∧ draft'.Holds elements := by
  simp only [followToElements, bind_eq_ok] at h
  rcases h with ⟨pathEnd, _, hfollow⟩
  exact follow_extends hclosed hfollow

end

end Draft

end SlotQuery
