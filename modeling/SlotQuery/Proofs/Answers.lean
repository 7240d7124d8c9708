import Mathlib.Data.List.Pairwise
import Mathlib.Data.List.Perm.Subperm
import SlotQuery.Proofs.Evaluation

/-!
# What statements return

A statement returns rows without repetition, in the order of its sort keys.
Where the keys leave open which of two rows comes first, either may. How
missing cells are sorted differs between databases.
-/

namespace SlotQuery

variable {engine : Engine}

/-!
# Result rows

A result row lists what stands in the columns that a select returns. To tell rows
apart, missing cells count as equal.
-/

abbrev ResultRow (engine : Engine) :=
  List (Option engine.Cell)

namespace Engine

def alike (engine : Engine) : Option engine.Cell → Option engine.Cell → Bool
  | some left, some right => engine.same left right
  | none, none => true
  | some _, none | none, some _ => false

/-- Missing cells come before all others, or after them. -/
def compare (engine : Engine) (missingFirst : Bool) :
    Option engine.Cell → Option engine.Cell → Ordering
  | some left, some right => engine.order left right
  | none, none => .eq
  | none, some _ => if missingFirst then .lt else .gt
  | some _, none => if missingFirst then .gt else .lt

theorem alike_refl (cell : Option engine.Cell) : engine.alike cell cell = true := by
  cases cell with
  | none => rfl
  | some cell => exact same_refl cell

theorem alike_symm {left right : Option engine.Cell} (h : engine.alike left right = true) :
    engine.alike right left = true := by
  cases left with
  | none =>
      cases right with
      | none => rfl
      | some right => cases h
  | some left =>
      cases right with
      | none => cases h
      | some right => exact same_symm h

theorem alike_trans {first second third : Option engine.Cell}
    (h : engine.alike first second = true) (h' : engine.alike second third = true) :
    engine.alike first third = true := by
  cases first with
  | none =>
      cases second with
      | none => exact h'
      | some second => cases h
  | some first =>
      cases second with
      | none => cases h
      | some second =>
          cases third with
          | none => cases h'
          | some third => exact same_trans h h'

instance (missingFirst : Bool) : Std.TransCmp (engine.compare missingFirst) where
  eq_swap := by
    intro left right
    cases left <;> cases right <;> cases missingFirst <;>
      simp [compare, ← Std.OrientedCmp.eq_swap]
  isLE_trans := by
    intro first second third h h'
    cases first <;> cases second <;> cases third <;> cases missingFirst <;>
      simp_all [compare]
    all_goals exact Std.TransCmp.isLE_trans h h'

end Engine

namespace ResultRow

def alike : ResultRow engine → ResultRow engine → Bool
  | [], [] => true
  | left :: rest, right :: rest' => engine.alike left right && alike rest rest'
  | [], _ :: _ | _ :: _, [] => false

theorem alike_refl (row : ResultRow engine) : row.alike row = true := by
  induction row with
  | nil => rfl
  | cons cell rest ih => simp [alike, Engine.alike_refl, ih]

theorem alike_symm {left right : ResultRow engine} (h : left.alike right = true) :
    right.alike left = true := by
  induction left generalizing right with
  | nil =>
      cases right with
      | nil => rfl
      | cons cell rest => cases h
  | cons cell rest ih =>
      cases right with
      | nil => cases h
      | cons cell' rest' =>
          rw [alike, Bool.and_eq_true] at h ⊢
          exact ⟨Engine.alike_symm h.left, ih h.right⟩

theorem alike_trans {first second third : ResultRow engine} (h : first.alike second = true)
    (h' : second.alike third = true) : first.alike third = true := by
  induction first generalizing second third with
  | nil =>
      cases second with
      | nil => exact h'
      | cons cell rest => cases h
  | cons cell rest ih =>
      cases second with
      | nil => cases h
      | cons cell' rest' =>
          cases third with
          | nil => cases h'
          | cons cell'' rest'' =>
              rw [alike, Bool.and_eq_true] at h h' ⊢
              exact ⟨Engine.alike_trans h.left h'.left, ih h.right h'.right⟩

def Differs (left right : ResultRow engine) : Prop :=
  left.alike right = false

instance : DecidableRel (Differs : ResultRow engine → ResultRow engine → Prop) :=
  fun left right => inferInstanceAs (Decidable (left.alike right = false))

theorem Differs.symm {left right : ResultRow engine} (h : left.Differs right) :
    right.Differs left :=
  Bool.eq_false_iff.mpr fun halike => Bool.eq_false_iff.mp h (alike_symm halike)

theorem Differs.irrefl (row : ResultRow engine) : ¬row.Differs row :=
  fun h => Bool.eq_false_iff.mp h (alike_refl row)

/-- A row cannot be like two rows that differ. -/
theorem Differs.or {first third : ResultRow engine} (h : first.Differs third)
    (second : ResultRow engine) : first.Differs second ∨ second.Differs third := by
  by_cases hfirst : first.alike second = true
  · refine Or.inr (Bool.eq_false_iff.mpr fun hsecond => ?_)
    exact Bool.eq_false_iff.mp h (alike_trans hfirst hsecond)
  · exact Or.inl (Bool.eq_false_iff.mpr hfirst)

/-- Of rows that are alike one can be kept. -/
theorem exists_kept (results : List (ResultRow engine)) :
    ∃ kept, kept ⊆ results ∧ kept.Pairwise Differs ∧
      ∀ row ∈ results, ∃ other ∈ kept, row.alike other = true := by
  refine ⟨results.pwFilter Differs, List.pwFilter_subset results,
    List.pairwise_pwFilter results, ?_⟩
  intro row hrow
  -- A row that differs from all that are kept would differ from itself.
  apply Classical.byContradiction
  intro hnone
  have hdiffers : ∀ other ∈ results.pwFilter Differs, row.Differs other :=
    fun other hother => Bool.eq_false_iff.mpr fun halike => hnone ⟨other, hother, halike⟩
  have hseparates : ∀ {first second third : ResultRow engine}, first.Differs third →
      first.Differs second ∨ second.Differs third := fun h => h.or _
  exact Differs.irrefl row
    ((List.forall_mem_pwFilter (R := Differs) hseparates row results).mp hdiffers row hrow)

/-- The key of the entity, which every row begins with. -/
def key (row : ResultRow engine) : Option engine.Cell :=
  row.head?.join

def isOf (key : engine.Cell) (row : ResultRow engine) : Bool :=
  (engine.equal row.key (some key)).isYes

theorem equal_key_of_alike {left right : ResultRow engine} (h : left.alike right = true)
    {key : engine.Cell} (hkey : left.key = some key) :
    (engine.equal left.key right.key).isYes = true := by
  cases left with
  | nil => cases hkey
  | cons cell rest =>
      cases right with
      | nil => cases h
      | cons cell' rest' =>
          rw [alike, Bool.and_eq_true] at h
          cases cell with
          | none => cases hkey
          | some own =>
              cases cell' with
              | none => cases h.left
              | some other => exact Engine.equal_isYes_iff.mpr ⟨own, other, rfl, rfl, h.left⟩

end ResultRow

/-!
# Sorting

Rows are compared by one sort key after the other, and a key is looked up
among the columns that are returned.
-/

def SortOrder.directed {α : Type} (compare : α → α → Ordering) : SortOrder → α → α → Ordering
  | .asc => compare
  | .desc => fun left right => compare right left

instance {α : Type} (compare : α → α → Ordering) [Std.TransCmp compare] (order : SortOrder) :
    Std.TransCmp (order.directed compare) := by
  cases order with
  | asc => exact inferInstanceAs (Std.TransCmp compare)
  | desc => exact @Std.TransCmp.opposite _ compare _

namespace Select

def returned (layout : Layout) (query : Select) : List Column :=
  let key := Alias.root.column layout.entityKeyColumn
  match query.projection with
  | .entities extra => key :: Alias.root.column layout.entityIdentityColumn :: extra
  | .entityKey | .count => [key]

def resultRow (layout : Layout) (query : Select) (scope : Scope engine) : ResultRow engine :=
  (query.returned layout).map scope.read

theorem resultRow_key (layout : Layout) (query : Select) (scope : Scope engine) :
    (query.resultRow layout scope).key = entityKey layout scope := by
  unfold resultRow returned
  cases query.projection <;> rfl

/-- What a row has in a column that is returned. -/
def cell (layout : Layout) (query : Select) (column : Column) (row : ResultRow engine) :
    Option engine.Cell :=
  (((query.returned layout).zip row).lookup column).join

def compareBy (layout : Layout) (query : Select) (missingFirst : Bool)
    (key : Column × SortOrder) : ResultRow engine → ResultRow engine → Ordering :=
  key.snd.directed fun left right =>
    engine.compare missingFirst (query.cell layout key.fst left) (query.cell layout key.fst right)

def compare (layout : Layout) (query : Select) (missingFirst : Bool) :
    ResultRow engine → ResultRow engine → Ordering :=
  query.orderBy.foldr (fun key later => compareLex (query.compareBy layout missingFirst key) later)
    fun _ _ => .eq

instance (layout : Layout) (query : Select) (missingFirst : Bool) (key : Column × SortOrder) :
    Std.TransCmp (query.compareBy layout missingFirst key :
      ResultRow engine → ResultRow engine → Ordering) := by
  have hcells : Std.TransCmp fun left right : ResultRow engine =>
      engine.compare missingFirst (query.cell layout key.fst left)
        (query.cell layout key.fst right) :=
    { eq_swap := Std.OrientedCmp.eq_swap, isLE_trans := Std.TransCmp.isLE_trans }
  exact inferInstanceAs (Std.TransCmp (key.snd.directed _))

instance (layout : Layout) (query : Select) (missingFirst : Bool) :
    Std.TransCmp (query.compare layout missingFirst :
      ResultRow engine → ResultRow engine → Ordering) := by
  unfold compare
  induction query.orderBy with
  | nil => exact { eq_swap := rfl, isLE_trans := fun _ _ => rfl }
  | cons key later ih => exact inferInstanceAs (Std.TransCmp (compareLex _ _))

end Select

/-!
# Answers

All that a database may return for a select without HAVING, before a window is
cut out. There always is something to return.
-/

/-- The rows of the scopes that the conditions are true of, each once, in order. -/
structure Select.Returns (query : Select) (db : Database engine) (layout : Layout)
    (missingFirst : Bool) (rows : List (ResultRow engine)) : Prop where
  ungrouped : query.having = none
  sound : ∀ row ∈ rows, ∃ scope ∈ query.scopes db layout .nothing,
    query.resultRow layout scope = row
  complete : ∀ scope ∈ query.scopes db layout .nothing,
    ∃ row ∈ rows, (query.resultRow layout scope).alike row = true
  distinct : rows.Pairwise ResultRow.Differs
  sorted : rows.Pairwise fun left right => query.compare layout missingFirst left right ≠ .gt

theorem Select.Returns.nodup {query : Select} {db : Database engine} {layout : Layout}
    {missingFirst : Bool} {rows : List (ResultRow engine)}
    (h : query.Returns db layout missingFirst rows) : rows.Nodup := by
  refine h.distinct.imp ?_
  intro left right hdiffers heq
  subst heq
  exact ResultRow.Differs.irrefl left hdiffers

theorem Select.exists_sorted (query : Select) (layout : Layout) (missingFirst : Bool)
    (kept : List (ResultRow engine)) :
    ∃ rows : List (ResultRow engine), rows.Perm kept ∧
      rows.Pairwise fun left right => query.compare layout missingFirst left right ≠ .gt := by
  have htotal : ∀ left right : ResultRow engine,
      ((query.compare layout missingFirst left right).isLE ||
        (query.compare layout missingFirst right left).isLE) = true := by
    intro left right
    have hswap : query.compare layout missingFirst right left =
        (query.compare layout missingFirst left right).swap := Std.OrientedCmp.eq_swap
    rw [hswap]
    cases query.compare layout missingFirst left right <;> rfl
  have hsorted := List.pairwise_mergeSort (fun _ _ _ => Std.TransCmp.isLE_trans) htotal kept
  exact ⟨_, List.mergeSort_perm kept _, hsorted.imp fun hle => Ordering.isLE_iff_ne_gt.mp hle⟩

theorem Select.exists_returns {query : Select} (h : query.having = none) (db : Database engine)
    (layout : Layout) (missingFirst : Bool) :
    ∃ rows, query.Returns db layout missingFirst rows := by
  rcases ResultRow.exists_kept
    ((query.scopes db layout .nothing).map (query.resultRow layout)) with
    ⟨kept, hsubset, hdistinct, hcovered⟩
  rcases query.exists_sorted layout missingFirst kept with ⟨rows, hperm, hsorted⟩
  refine ⟨rows, h, ?_, ?_, ?_, hsorted⟩
  · intro row hrow
    exact List.mem_map.mp (hsubset (hperm.subset hrow))
  · intro scope hscope
    rcases hcovered _ (List.mem_map_of_mem hscope) with ⟨row, hrow, halike⟩
    exact ⟨row, hperm.mem_iff.mpr hrow, halike⟩
  · exact (hperm.pairwise_iff ResultRow.Differs.symm).mpr hdistinct

/-- What a count of distinct keys comes to. A key that is missing does not count. -/
def Select.counted (query : Select) (db : Database engine) (layout : Layout) : Nat :=
  engine.distinctCount ((query.scopes db layout .nothing).filterMap (entityKey layout))

end SlotQuery
