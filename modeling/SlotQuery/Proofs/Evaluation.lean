import SlotQuery.Proofs.Database

/-!
# What queries mean

Conditions, selects and filters are evaluated over a database. A select reads
the entity table with the type table beside it, extends each pair by one row
for every join, and keeps what its conditions are true of. A filter stands for
the keys that its selects return; order and window of a select play no part in
that.
-/

namespace SlotQuery

/-- The rows that the tables of a select stand at. -/
def Scope (engine : Engine) : Type :=
  Qualifier → Row engine

namespace Scope

variable {engine : Engine}

/-- No table in sight, as around a whole statement. -/
def nothing : Scope engine :=
  fun _ => Row.missing

def bind (scope : Scope engine) (name : Qualifier) (row : Row engine) : Scope engine :=
  fun other => if other = name then row else scope other

def read (scope : Scope engine) (column : Column) : Option engine.Cell :=
  scope column.qualifier column.name

@[simp] theorem bind_self (scope : Scope engine) (name : Qualifier) (row : Row engine) :
    scope.bind name row name = row := by
  simp [bind]

theorem bind_of_ne {name other : Qualifier} (scope : Scope engine) (row : Row engine)
    (h : other ≠ name) : scope.bind name row other = scope other := by
  simp [bind, h]

end Scope

/-- The rows that a join goes on with: an outer join goes on without a row when it found none. -/
def JoinKind.continues {engine : Engine} (kind : JoinKind) (found : List (Row engine)) :
    List (Row engine) :=
  match kind, found with
  | .left, [] => [Row.missing]
  | _, found => found

namespace Select

variable {engine : Engine}

/-- Entities beside the rows of the type table that belong to them. -/
def sources (db : Database engine) (layout : Layout) (outer : Scope engine) :
    List (Scope engine) :=
  (db.rows layout.entityTable).flatMap fun entity =>
    ((db.rows layout.typeTable).filter fun membership =>
      (engine.equal (membership layout.entityKeyColumn)
        (entity layout.entityKeyColumn)).isYes).map fun membership =>
      (outer.bind (.table .root) entity).bind .types membership

def entityKey (layout : Layout) (scope : Scope engine) : Option engine.Cell :=
  scope.read (Alias.root.column layout.entityKeyColumn)

/-- The rows of one entity key, which are what grouping puts together. -/
def group (layout : Layout) (key : engine.Cell) (scopes : List (Scope engine)) :
    List (Scope engine) :=
  scopes.filter fun scope => (engine.equal (entityKey layout scope) (some key)).isYes

/-- Whether a group is kept: it has a row, and as many distinct cells as are asked for. -/
def keepsGroup (having : Option Having) (group : List (Scope engine)) : Bool :=
  match having with
  | none => !group.isEmpty
  | some having =>
      !group.isEmpty &&
        decide (having.min ≤
          engine.distinctCount (group.filterMap fun scope => scope.read having.column))

end Select

/-!
# Evaluation

The tables of a select hide those of the same name around it. Membership in a
filter is not known for a missing key, unless the filter is empty; the keys
that a filter returns are never missing themselves, since each has met a row of
the type table.
-/

section

variable {engine : Engine} (db : Database engine) (layout : Layout)

mutual

def Condition.truth (scope : Scope engine) : Condition → Truth
  | .compare column op value => .ofTest (engine.test op value) (scope.read column)
  | .columnEq left right => engine.equal (scope.read left) (scope.read right)
  | .isNull column => .ofBool (scope.read column).isNone
  | .isNotNull column => .ofBool (scope.read column).isSome
  | .regex column pattern => .ofTest (engine.isMatch pattern) (scope.read column)
  | .pathBelow column pattern =>
      .ofTest (fun cell => pattern.covers (engine.position cell)) (scope.read column)
  | .pathEquals column path =>
      .ofTest (fun cell => decide (engine.position cell = path)) (scope.read column)
  | .inList column ids =>
      .ofTest (fun cell => ids.any fun id => engine.same cell (engine.ofTypeId id))
        (scope.read column)
  | .inQuery column query =>
      match scope.read column with
      | some key => .ofBool (Filter.selects scope key query)
      | none =>
          if (db.rows layout.entityTable).any fun entity =>
              (entity layout.entityKeyColumn).any fun key => Filter.selects scope key query then
            .unknown
          else
            .no
  | .and items => Condition.allTruth scope items
  | .or items => Condition.anyTruth scope items
  | .not operand => (Condition.truth scope operand).not
  | .never => .no

def Condition.allTruth (scope : Scope engine) : List Condition → Truth
  | [] => .yes
  | item :: rest => (Condition.truth scope item).and (Condition.allTruth scope rest)

def Condition.anyTruth (scope : Scope engine) : List Condition → Truth
  | [] => .no
  | item :: rest => (Condition.truth scope item).or (Condition.anyTruth scope rest)

def Filter.selects (outer : Scope engine) (key : engine.Cell) : Filter → Bool
  | .select query =>
      Select.keepsGroup query.having (Select.group layout key (Select.scopes outer query))
  | .compound op operands =>
      match op with
      | .union => Filter.anySelects outer key operands
      | .intersect => Filter.allSelect outer key operands
      | .except => Filter.firstSelects outer key operands

def Filter.anySelects (outer : Scope engine) (key : engine.Cell) : List Filter → Bool
  | [] => false
  | operand :: rest => Filter.selects outer key operand || Filter.anySelects outer key rest

def Filter.allSelect (outer : Scope engine) (key : engine.Cell) : List Filter → Bool
  | [] => true
  | operand :: rest => Filter.selects outer key operand && Filter.allSelect outer key rest

def Filter.firstSelects (outer : Scope engine) (key : engine.Cell) : List Filter → Bool
  | [] => false
  | operand :: rest => Filter.selects outer key operand && !Filter.anySelects outer key rest

/-- Where a select stands when its conditions are true. -/
def Select.scopes (outer : Scope engine) : Select → List (Scope engine)
  | { projection := _, joins, conditions, having := _, orderBy := _, limit := _, offset := _ } =>
      ((Select.sources db layout outer).flatMap fun source =>
        Join.extendAll source joins).filter fun scope =>
          (Condition.allTruth scope conditions).isYes

def Join.extendAll (scope : Scope engine) : List Join → List (Scope engine)
  | [] => [scope]
  | join :: rest => (Join.extend scope join).flatMap fun scope => Join.extendAll scope rest

def Join.extend (scope : Scope engine) : Join → List (Scope engine)
  | { source := _, target, table, kind, conditions } =>
      let found := (db.rows table).filter fun row =>
        (Condition.allTruth (scope.bind (.table target) row) conditions).isYes
      (kind.continues found).map fun row => scope.bind (.table target) row

end

end

/-!
# Lists of conditions and joins
-/

section

variable {engine : Engine} {db : Database engine} {layout : Layout}

theorem Condition.truth_all (scope : Scope engine) (items : List Condition) :
    Condition.truth db layout scope (.all items) = Condition.allTruth db layout scope items := by
  match items with
  | [] => simp [Condition.all, Condition.truth]
  | [item] => simp [Condition.all, Condition.allTruth]
  | first :: second :: rest => simp [Condition.all, Condition.truth]

theorem Condition.truth_any (scope : Scope engine) (items : List Condition) :
    Condition.truth db layout scope (.any items) = Condition.anyTruth db layout scope items := by
  match items with
  | [] => simp [Condition.any, Condition.truth]
  | [item] => simp [Condition.any, Condition.anyTruth]
  | first :: second :: rest => simp [Condition.any, Condition.truth]

theorem Join.extendAll_append (scope : Scope engine) (first second : List Join) :
    Join.extendAll db layout scope (first ++ second) =
      (Join.extendAll db layout scope first).flatMap fun scope =>
        Join.extendAll db layout scope second := by
  induction first generalizing scope with
  | nil => simp [Join.extendAll]
  | cons join rest ih => simp [Join.extendAll, ih, List.flatMap_assoc]

theorem Join.extendAll_singleton (scope : Scope engine) (join : Join) :
    Join.extendAll db layout scope [join] = Join.extend db layout scope join := by
  simp [Join.extendAll]

/-- A join changes nothing but the row of its own table. -/
theorem Join.extend_frame {scope extended : Scope engine} {join : Join} {name : Qualifier}
    (h : extended ∈ Join.extend db layout scope join) (hname : name ≠ .table join.target) :
    extended name = scope name := by
  cases join with
  | mk source target table kind conditions =>
      simp only [Join.extend, List.mem_map] at h
      rcases h with ⟨row, _, hrow⟩
      rw [← hrow]
      exact Scope.bind_of_ne scope row hname

theorem Join.extendAll_frame {scope extended : Scope engine} {joins : List Join}
    {name : Qualifier} (h : extended ∈ Join.extendAll db layout scope joins)
    (hname : ∀ join ∈ joins, name ≠ .table join.target) : extended name = scope name := by
  induction joins generalizing scope with
  | nil =>
      simp only [Join.extendAll, List.mem_singleton] at h
      rw [h]
  | cons join rest ih =>
      simp only [Join.extendAll, List.mem_flatMap] at h
      rcases h with ⟨middle, hmiddle, hextended⟩
      rw [ih hextended fun later hlater => hname later (List.mem_cons_of_mem _ hlater)]
      exact Join.extend_frame hmiddle (hname join List.mem_cons_self)

end

end SlotQuery
