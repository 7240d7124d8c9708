import SlotQuery.Proofs.Answers
import SlotQuery.Proofs.Meaning
import SlotQuery.Proofs.SingleRows

/-!
# Rows of the outer select

The outer select returns one row for each entity that its filter selects. An
entity of several of the requested types has several rows of the type table, but
none of their columns is returned.
-/

namespace SlotQuery

variable {engine : Engine} {db : Database engine} {ctx : Context}

/-!
# What filters select

A filter does not tell equal keys apart, and selects entities of the requested
types only.
-/

theorem Select.group_same {key key' : engine.Cell} (h : engine.same key key' = true)
    (layout : Layout) (scopes : List (Scope engine)) :
    group layout key scopes = group layout key' scopes := by
  have hequal : (engine.equal (some key) (some key')).isYes = true :=
    Engine.equal_isYes_iff.mpr ⟨key, key', rfl, rfl, h⟩
  unfold group
  congr 1
  funext scope
  exact Engine.equal_congr_right _ hequal

section

variable {layout : Layout} {key key' : engine.Cell} (outer : Scope engine)

mutual

theorem Filter.selects_same (h : engine.same key key' = true) (filter : Filter) :
    filter.selects db layout outer key = filter.selects db layout outer key' := by
  cases filter with
  | select query => rw [Filter.selects, Filter.selects, Select.group_same h]
  | compound op operands =>
      cases op with
      | union => exact Filter.anySelects_same h operands
      | intersect => exact Filter.allSelect_same h operands
      | except => exact Filter.firstSelects_same h operands

theorem Filter.anySelects_same (h : engine.same key key' = true) (operands : List Filter) :
    Filter.anySelects db layout outer key operands =
      Filter.anySelects db layout outer key' operands := by
  cases operands with
  | nil => rfl
  | cons operand rest =>
      rw [Filter.anySelects, Filter.anySelects, Filter.selects_same h operand,
        Filter.anySelects_same h rest]

theorem Filter.allSelect_same (h : engine.same key key' = true) (operands : List Filter) :
    Filter.allSelect db layout outer key operands =
      Filter.allSelect db layout outer key' operands := by
  cases operands with
  | nil => rfl
  | cons operand rest =>
      rw [Filter.allSelect, Filter.allSelect, Filter.selects_same h operand,
        Filter.allSelect_same h rest]

theorem Filter.firstSelects_same (h : engine.same key key' = true) (operands : List Filter) :
    Filter.firstSelects db layout outer key operands =
      Filter.firstSelects db layout outer key' operands := by
  cases operands with
  | nil => rfl
  | cons operand rest =>
      rw [Filter.firstSelects, Filter.firstSelects, Filter.selects_same h operand,
        Filter.anySelects_same h rest]

end

end

theorem Select.IsClosed.spareRoot {query : Select} (h : query.IsClosed) :
    Join.SpareRoot query.joins := by
  intro join hjoin
  rcases List.getElem?_of_mem hjoin with ⟨k, hk⟩
  rw [h.target k join hk]
  exact Nat.le_add_left 1 k

theorem Context.Builds.inUniverse {filter : Filter} (h : ctx.Builds filter) {outer : Scope engine}
    {key : engine.Cell} (hselects : filter.selects db ctx.layout outer key = true) :
    db.inUniverse ctx key = true := by
  induction h with
  | @select draft hoperand =>
      rcases hoperand.form with ⟨joins, conditions, having, hquery⟩
      have hspare := hoperand.closed.select.spareRoot
      rw [hquery] at hselects hspare
      have hgroup : (Select.group ctx.layout key (Select.scopes db ctx.layout outer
          (ctx.selectWith joins conditions having))).isEmpty = false := by
        cases having <;>
          simp only [Filter.selects, Select.keepsGroup, Context.selectWith, Bool.and_eq_true,
            Bool.not_eq_true'] at hselects
        · exact hselects
        · exact hselects.left
      rcases List.isEmpty_eq_false_iff_exists_mem.mp hgroup with ⟨scope, hscope⟩
      rcases (Context.mem_group_selectWith_iff hspare).mp hscope with ⟨source, hsource, _⟩
      exact (Context.exists_startsAt_iff outer).mp ⟨source, hsource⟩
  | complement hoperand =>
      rw [complement_selects, Bool.and_eq_true] at hselects
      exact hselects.left
  | @combine op operands hop _ ih =>
      cases op with
      | except => exact absurd rfl hop
      | union =>
          rw [combine_union_selects, List.any_eq_true] at hselects
          rcases hselects with ⟨operand, hoperand, hselected⟩
          exact ih operand hoperand hselected
      | intersect =>
          rw [combine_intersect_selects outer key ih, Bool.and_eq_true] at hselects
          exact hselects.left

/-!
# Outer selects
-/

/-- The entities that a statement is about: those of its filter, or all of the types. -/
def Context.isWanted (ctx : Context) (db : Database engine) (filter : Option Filter)
    (key : engine.Cell) : Bool :=
  match filter with
  | some found => found.selects db ctx.layout .nothing key
  | none => db.inUniverse ctx key

theorem Select.mem_scopes_iff {query : Select} {layout : Layout} {outer scope : Scope engine} :
    scope ∈ query.scopes db layout outer ↔
      (∃ source ∈ Select.sources db layout outer,
        scope ∈ Join.extendAll db layout source query.joins) ∧
      (Condition.allTruth db layout scope query.conditions).isYes = true := by
  cases query with
  | mk projection joins conditions having orderBy limit offset =>
      simp only [Select.scopes, List.mem_filter, List.mem_flatMap]

/-- The joins lead from each source to one row. -/
def Select.HasOneRow (query : Select) (db : Database engine) (ctx : Context) : Prop :=
  ∀ (key : engine.Cell) (source : Scope engine), ctx.StartsAt db .nothing key source →
    ∃ last, Join.extendAll db ctx.layout source query.joins = [last]

/-- The select asks for nothing but the types and the filter, returns columns of entities and slots,
and finds one entity for a key and one row for an entity. -/
structure Select.IsOuter (query : Select) (db : Database engine) (ctx : Context)
    (filter : Option Filter) : Prop where
  closed : query.IsClosed
  ungrouped : query.having = none
  builds : ∀ found, filter = some found → ctx.Builds found
  conditions : query.conditions =
    ctx.typeFilter :: filter.toList.map (.inQuery (entityKeyColumn ctx))
  returned : ∀ column ∈ query.returned ctx.layout, ∃ occurrence : Alias,
    column.qualifier = .table occurrence ∧ occurrence.index < 1 + query.joins.length
  keys : db.HasUniqueKeys ctx.layout
  single : query.HasOneRow db ctx

theorem Context.isWanted_inUniverse {filter : Option Filter}
    (h : ∀ found, filter = some found → ctx.Builds found) {key : engine.Cell}
    (hwanted : ctx.isWanted db filter key = true) : db.inUniverse ctx key = true := by
  cases filter with
  | none => exact hwanted
  | some found => exact (h found rfl).inUniverse hwanted

theorem Context.isWanted_same {filter : Option Filter} {key key' : engine.Cell}
    (h : engine.same key key' = true) :
    ctx.isWanted db filter key = ctx.isWanted db filter key' := by
  cases filter with
  | none =>
      show db.inUniverse ctx key = db.inUniverse ctx key'
      rw [← Context.selects_allEntities .nothing key, ← Context.selects_allEntities .nothing key']
      exact Filter.selects_same .nothing h _
  | some found => exact Filter.selects_same .nothing h found

namespace Select.IsOuter

variable {query : Select} {filter : Option Filter}

/-- The filter is asked about the key of the row, from wherever it stands. -/
theorem allTruth_iff (h : query.IsOuter db ctx filter) {scope : Scope engine} {key : engine.Cell}
    (hkey : Select.entityKey ctx.layout scope = some key) :
    (Condition.allTruth db ctx.layout scope query.conditions).isYes = true ↔
      (Condition.truth db ctx.layout scope ctx.typeFilter).isYes = true ∧
        ∀ found, filter = some found → found.selects db ctx.layout .nothing key = true := by
  rw [h.conditions]
  cases filter with
  | none => simp [Condition.allTruth]
  | some found =>
      have hclosed := (h.builds found rfl).closed
      have hread : scope.read (entityKeyColumn ctx) = some key := hkey
      simp [Condition.allTruth, Condition.truth, hread,
        Filter.selects_congr found hclosed scope .nothing key]

/-- Each row belongs to an entity that is wanted. -/
theorem of_mem_scopes (h : query.IsOuter db ctx filter) {scope : Scope engine}
    (hscope : scope ∈ query.scopes db ctx.layout .nothing) :
    ∃ key source, ctx.StartsAt db .nothing key source ∧
      scope ∈ Join.extendAll db ctx.layout source query.joins ∧
      Select.entityKey ctx.layout scope = some key ∧ ctx.isWanted db filter key = true := by
  rcases Select.mem_scopes_iff.mp hscope with ⟨⟨source, hsource, hextended⟩, htruth⟩
  rcases Select.mem_sources_iff.mp hsource with ⟨entity, _, membership, _, hequal, hbound⟩
  rcases Engine.equal_isYes_iff.mp hequal with ⟨_, key, _, hentity, _⟩
  have hkey : Select.entityKey ctx.layout source = some key := by
    rw [hbound, Select.entityKey_source, hentity]
  have hkey' : Select.entityKey ctx.layout scope = some key := by
    rw [h.closed.spareRoot.entityKey hextended, hkey]
  rcases (h.allTruth_iff hkey').mp htruth with ⟨htyped, hfilter⟩
  have hstarts : ctx.StartsAt db .nothing key source := by
    refine ⟨hsource, ?_, ?_⟩
    · rw [Context.truth_typeFilter, ← Join.extendAll_types hextended,
        ← Context.truth_typeFilter]
      exact htyped
    · rw [hkey]
      exact Engine.equal_isYes_iff.mpr ⟨key, key, rfl, rfl, Engine.same_refl key⟩
  refine ⟨key, source, hstarts, hextended, hkey', ?_⟩
  cases filter with
  | none => exact (Context.exists_startsAt_iff .nothing).mp ⟨source, hstarts⟩
  | some found => exact hfilter found rfl

/-- Each entity that is wanted has a row. -/
theorem exists_scope (h : query.IsOuter db ctx filter) {key : engine.Cell}
    (hwanted : ctx.isWanted db filter key = true) :
    ∃ scope ∈ query.scopes db ctx.layout .nothing,
      (engine.equal (Select.entityKey ctx.layout scope) (some key)).isYes = true := by
  rcases (Context.exists_startsAt_iff .nothing).mpr
    (Context.isWanted_inUniverse h.builds hwanted) with ⟨source, hsource⟩
  rcases h.single key source hsource with ⟨scope, hscope⟩
  have hextended : scope ∈ Join.extendAll db ctx.layout source query.joins := by
    rw [hscope]
    exact List.mem_singleton_self _
  have hequal := hsource.key
  rw [← h.closed.spareRoot.entityKey hextended] at hequal
  refine ⟨scope, Select.mem_scopes_iff.mpr ⟨⟨source, hsource.mem, hextended⟩, ?_⟩, hequal⟩
  rcases Engine.equal_isYes_iff.mp hequal with ⟨own, other, hown, hother, hsame⟩
  cases hother
  refine (h.allTruth_iff hown).mpr ⟨?_, ?_⟩
  · rw [Context.truth_typeFilter, Join.extendAll_types hextended, ← Context.truth_typeFilter]
    exact hsource.typed
  · intro found hfound
    rw [← Context.isWanted_same hsame, hfound] at hwanted
    exact hwanted

end Select.IsOuter

/-!
# One row for each key

Sources of one key differ in the row of the type table only, and the rows they
lead to agree on everything that is returned.
-/

theorem Database.HasUniqueKeys.eq_of_equal {layout : Layout} (h : db.HasUniqueKeys layout)
    {left right : Row engine} (hleft : left ∈ db.rows layout.entityTable)
    (hright : right ∈ db.rows layout.entityTable)
    (hequal : (engine.equal (left layout.entityKeyColumn)
      (right layout.entityKeyColumn)).isYes = true) : left = right := by
  have hsymm : Std.Symm fun left right : Row engine =>
      (engine.equal (left layout.entityKeyColumn) (right layout.entityKeyColumn)).isYes = false :=
    ⟨fun left right hdiffer => Bool.eq_false_iff.mpr fun hsame =>
      Bool.eq_false_iff.mp hdiffer (Engine.equal_symm hsame)⟩
  apply Classical.byContradiction
  intro hne
  exact Bool.eq_false_iff.mp (List.Pairwise.forall h hleft hright hne) hequal

/-- Sources of one key stand at the same entity. -/
theorem Database.HasUniqueKeys.sources_agree {layout : Layout} (h : db.HasUniqueKeys layout)
    {outer source source' : Scope engine} (hsource : source ∈ Select.sources db layout outer)
    (hsource' : source' ∈ Select.sources db layout outer)
    (hequal : (engine.equal (Select.entityKey layout source)
      (Select.entityKey layout source')).isYes = true) :
    source.Agree (fun _ _ => True) 1 source' := by
  rcases Select.mem_sources_iff.mp hsource with ⟨entity, hentity, membership, _, _, hbound⟩
  rcases Select.mem_sources_iff.mp hsource' with ⟨entity', hentity', membership', _, _, hbound'⟩
  subst hbound hbound'
  rw [Select.entityKey_source, Select.entityKey_source] at hequal
  cases h.eq_of_equal hentity hentity' hequal
  refine ⟨trivial, ?_⟩
  intro occurrence hlt
  have hroot : occurrence = .root := Alias.eq_of_index_eq (Nat.lt_one_iff.mp hlt)
  have hne : Qualifier.table occurrence ≠ .types := fun heq => by cases heq
  rw [Scope.bind_of_ne _ _ hne, Scope.bind_of_ne _ _ hne, hroot, Scope.bind_self]

namespace Select.IsOuter

variable {query : Select} {filter : Option Filter}

theorem resultRow_eq (h : query.IsOuter db ctx filter) {scope scope' : Scope engine}
    (hscope : scope ∈ query.scopes db ctx.layout .nothing)
    (hscope' : scope' ∈ query.scopes db ctx.layout .nothing)
    (hequal : (engine.equal (Select.entityKey ctx.layout scope)
      (Select.entityKey ctx.layout scope')).isYes = true) :
    query.resultRow ctx.layout scope = query.resultRow ctx.layout scope' := by
  rcases h.of_mem_scopes hscope with ⟨key, source, hstarts, hextended, _, _⟩
  rcases h.of_mem_scopes hscope' with ⟨key', source', hstarts', hextended', _, _⟩
  rw [h.closed.spareRoot.entityKey hextended, h.closed.spareRoot.entityKey hextended'] at hequal
  have hlast : List.Forall₂ (Scope.Agree (fun _ _ => True) (1 + query.joins.length))
      (Join.extendAll db ctx.layout source query.joins)
      (Join.extendAll db ctx.layout source' query.joins) :=
    Join.extendAll_agree (h.keys.sources_agree hstarts.mem hstarts'.mem hequal)
      h.closed.numbered h.closed.links
  rcases h.single key source hstarts with ⟨last, hsingle⟩
  rcases h.single key' source' hstarts' with ⟨last', hsingle'⟩
  rw [hsingle, List.mem_singleton] at hextended
  rw [hsingle', List.mem_singleton] at hextended'
  subst hextended hextended'
  rw [hsingle, hsingle'] at hlast
  cases hlast with
  | cons hagree _ =>
      apply List.map_congr_left
      intro column hcolumn
      rcases h.returned column hcolumn with ⟨occurrence, htable, hlt⟩
      unfold Scope.read
      rw [htable, hagree.tables occurrence hlt]

/-!
# Answers

What is returned has one row for each wanted entity. The rows are the same
whatever the order, and there is one order of them when the key of the entity
is a sort key.
-/

variable {missingFirst : Bool} {rows : List (ResultRow engine)}

theorem mem_iff (h : query.IsOuter db ctx filter)
    (hrows : query.Returns db ctx.layout missingFirst rows) {row : ResultRow engine} :
    row ∈ rows ↔ ∃ scope ∈ query.scopes db ctx.layout .nothing,
      query.resultRow ctx.layout scope = row := by
  constructor
  · intro hrow
    exact hrows.sound row hrow
  · intro hscope
    rcases hscope with ⟨scope, hscope, hresult⟩
    subst hresult
    rcases hrows.complete scope hscope with ⟨row, hrow, halike⟩
    rcases hrows.sound row hrow with ⟨scope', hscope', hresult'⟩
    subst hresult'
    rcases h.of_mem_scopes hscope with ⟨key, _, _, _, hkey, _⟩
    rw [← resultRow_key ctx.layout query] at hkey
    have hequal := ResultRow.equal_key_of_alike halike hkey
    rw [resultRow_key, resultRow_key] at hequal
    rw [h.resultRow_eq hscope hscope' hequal]
    exact hrow

theorem exists_key (h : query.IsOuter db ctx filter)
    (hrows : query.Returns db ctx.layout missingFirst rows) {row : ResultRow engine}
    (hrow : row ∈ rows) : ∃ key, row.key = some key ∧ ctx.isWanted db filter key = true := by
  rcases (h.mem_iff hrows).mp hrow with ⟨scope, hscope, hresult⟩
  rcases h.of_mem_scopes hscope with ⟨key, _, _, _, hkey, hwanted⟩
  rw [← hresult, resultRow_key]
  exact ⟨key, hkey, hwanted⟩

theorem eq_of_equal_key (h : query.IsOuter db ctx filter)
    (hrows : query.Returns db ctx.layout missingFirst rows) {left right : ResultRow engine}
    (hleft : left ∈ rows) (hright : right ∈ rows)
    (hequal : (engine.equal left.key right.key).isYes = true) : left = right := by
  rcases (h.mem_iff hrows).mp hleft with ⟨scope, hscope, hresult⟩
  rcases (h.mem_iff hrows).mp hright with ⟨scope', hscope', hresult'⟩
  subst hresult hresult'
  rw [resultRow_key, resultRow_key] at hequal
  exact h.resultRow_eq hscope hscope' hequal

theorem exists_row_iff (h : query.IsOuter db ctx filter)
    (hrows : query.Returns db ctx.layout missingFirst rows) {key : engine.Cell} :
    (∃ row ∈ rows, row.isOf key = true) ↔ ctx.isWanted db filter key = true := by
  constructor
  · intro hrow
    rcases hrow with ⟨row, hrow, hof⟩
    rcases h.exists_key hrows hrow with ⟨own, hown, hwanted⟩
    unfold ResultRow.isOf at hof
    rw [hown] at hof
    rcases Engine.equal_isYes_iff.mp hof with ⟨_, _, hleft, hright, hsame⟩
    cases hleft
    cases hright
    rw [← Context.isWanted_same hsame]
    exact hwanted
  · intro hwanted
    rcases h.exists_scope hwanted with ⟨scope, hscope, hequal⟩
    refine ⟨query.resultRow ctx.layout scope, (h.mem_iff hrows).mpr ⟨scope, hscope, rfl⟩, ?_⟩
    unfold ResultRow.isOf
    rw [resultRow_key]
    exact hequal

theorem countP_isOf (h : query.IsOuter db ctx filter)
    (hrows : query.Returns db ctx.layout missingFirst rows) (key : engine.Cell) :
    rows.countP (ResultRow.isOf key) = if ctx.isWanted db filter key then 1 else 0 := by
  rw [List.countP_eq_length_filter]
  split
  · rename_i hwanted
    rcases (h.exists_row_iff hrows).mpr hwanted with ⟨row, hrow, hof⟩
    have hmem : row ∈ rows.filter (ResultRow.isOf key) := List.mem_filter.mpr ⟨hrow, hof⟩
    have hequal : ∀ other ∈ rows.filter (ResultRow.isOf key), other = row := by
      intro other hother
      rcases List.mem_filter.mp hother with ⟨hother, hof'⟩
      exact h.eq_of_equal_key hrows hother hrow
        (Engine.equal_trans hof' (Engine.equal_symm hof))
    have hnodup : (rows.filter (ResultRow.isOf key)).Nodup := hrows.nodup.filter _
    rw [List.eq_replicate_of_mem hequal, List.nodup_replicate] at hnodup
    have hpos := List.length_pos_of_mem hmem
    omega
  · rename_i hunwanted
    rw [List.length_eq_zero_iff, List.filter_eq_nil_iff]
    intro row hrow hof
    exact hunwanted ((h.exists_row_iff hrows).mp ⟨row, hrow, hof⟩)

theorem perm {query' : Select} {missingFirst' : Bool} {rows' : List (ResultRow engine)}
    (h : query.IsOuter db ctx filter) (h' : query'.IsOuter db ctx filter)
    (hjoins : query'.joins = query.joins) (hprojection : query'.projection = query.projection)
    (hrows : query.Returns db ctx.layout missingFirst rows)
    (hrows' : query'.Returns db ctx.layout missingFirst' rows') : rows.Perm rows' := by
  rw [List.perm_ext_iff_of_nodup hrows.nodup hrows'.nodup]
  intro row
  have hreturned : query'.returned ctx.layout = query.returned ctx.layout := by
    unfold Select.returned
    rw [hprojection]
  rw [h.mem_iff hrows, h'.mem_iff hrows']
  simp only [mem_scopes_iff, resultRow, hreturned, hjoins, h.conditions, h'.conditions]

end Select.IsOuter

end SlotQuery
