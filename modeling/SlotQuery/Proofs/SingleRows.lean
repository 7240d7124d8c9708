import SlotQuery.Proofs.Reading
import SlotQuery.Proofs.Sorting

/-!
# One row for each entity

The joins of sort keys are outer ones. Where each slot of a sort path has at most
one row, a source goes on to exactly one row, however many paths share a join.
-/

namespace SlotQuery

variable {engine : Engine} {db : Database engine} {ctx : Context}

/-!
# Views

The scope that a source has come to, with the place that each of its tables
stands for. A draft shows a view when the tables that it remembers stand at what
the outer join found.
-/

structure View (engine : Engine) where
  scope : Scope engine
  /-- Where the slots of a table are looked for. -/
  place : Alias → Place engine

namespace View

/-- A source, with nothing joined to it. -/
def start (layout : Layout) (source : Scope engine) : View engine :=
  { scope := source
    place := fun _ => .entity (Select.entityKey layout source) }

def withRow (view : View engine) (occurrence : Alias) (row : Row engine) (place : Place engine) :
    View engine :=
  { scope := view.scope.bind (.table occurrence) row
    place := fun other => if other = occurrence then place else view.place other }

/-- The table stands at the only row that an outer join finds for the key. -/
def Holds (view : View engine) (db : Database engine) (ctx : Context) (key : JoinKey)
    (found : Alias) : Prop :=
  match key with
  | .slot source name =>
      JoinKind.left.continues (db.slotRows ctx (view.place source) name) =
          [view.scope (.table found)] ∧
        view.place found = .row (view.scope (.table found))
  | .target slot =>
      JoinKind.left.continues (db.targets ctx.layout (view.scope (.table slot))) =
          [view.scope (.table found)] ∧
        view.place found = .entity (view.scope (.table found) ctx.layout.entityKeyColumn)

theorem withRow_of_ne (view : View engine) {occurrence other : Alias} (row : Row engine)
    (place : Place engine) (h : other ≠ occurrence) :
    (view.withRow occurrence row place).scope (.table other) = view.scope (.table other) ∧
      (view.withRow occurrence row place).place other = view.place other :=
  ⟨Scope.bind_table_of_ne _ _ h, if_neg h⟩

/-- A later table changes nothing about the tables that were there. -/
theorem Holds.withRow {view : View engine} {key : JoinKey} {found : Alias}
    (h : view.Holds db ctx key found) {occurrence : Alias} (hsource : key.source ≠ occurrence)
    (hfound : found ≠ occurrence) (row : Row engine) (place : Place engine) :
    (view.withRow occurrence row place).Holds db ctx key found := by
  rcases view.withRow_of_ne row place hsource with ⟨hscope, hplace⟩
  rcases view.withRow_of_ne row place hfound with ⟨hscope', hplace'⟩
  cases key with
  | slot source name =>
      simp only [JoinKey.source] at hplace
      simp only [Holds, hplace, hscope', hplace']
      exact h
  | target slot =>
      simp only [JoinKey.source] at hscope
      simp only [Holds, hscope, hscope', hplace']
      exact h

end View

/-- Each table that the draft remembers stands at the row that was found for it. -/
def Draft.Shows (draft : Draft) (db : Database engine) (ctx : Context) (view : View engine) :
    Prop :=
  ∀ (key : JoinKey) (found : Alias), draft.known? key = some found →
    key.source.index < draft.nextIndex ∧ view.Holds db ctx key found

/-- The joins that were added lead from one view to exactly one other. -/
structure Draft.Unfolds (draft : Draft) (db : Database engine) (ctx : Context)
    (view : View engine) (draft' : Draft) (view' : View engine) : Prop where
  closed : draft'.IsClosed
  exists_joins : ∃ joins, draft.Grows joins draft' ∧
    Join.extendAll db ctx.layout view.scope joins = [view'.scope]
  shows : draft'.Shows db ctx view'
  place : ∀ occurrence : Alias, occurrence.index < draft.nextIndex →
    view'.place occurrence = view.place occurrence

namespace Draft

variable {draft draft' : Draft} {view view' : View engine}

theorem Unfolds.refl (hclosed : draft.IsClosed) (hshows : draft.Shows db ctx view) :
    draft.Unfolds db ctx view draft view where
  closed := hclosed
  exists_joins := ⟨[], Grows.refl draft, rfl⟩
  shows := hshows
  place := fun _ _ => rfl

theorem Unfolds.le (h : draft.Unfolds db ctx view draft' view') :
    draft.nextIndex ≤ draft'.nextIndex := by
  rcases h.exists_joins with ⟨joins, hgrows, _⟩
  exact hgrows.le

theorem Unfolds.scope (h : draft.Unfolds db ctx view draft' view') {occurrence : Alias}
    (hlt : occurrence.index < draft.nextIndex) :
    view'.scope (.table occurrence) = view.scope (.table occurrence) := by
  rcases h.exists_joins with ⟨joins, hgrows, hextend⟩
  exact hgrows.frame (hextend ▸ List.mem_singleton_self _) hlt

theorem Unfolds.trans {draft'' : Draft} {view'' : View engine}
    (h : draft.Unfolds db ctx view draft' view')
    (h' : draft'.Unfolds db ctx view' draft'' view'') :
    draft.Unfolds db ctx view draft'' view'' where
  closed := h'.closed
  exists_joins := by
    rcases h.exists_joins with ⟨joins, hgrows, hextend⟩
    rcases h'.exists_joins with ⟨joins', hgrows', hextend'⟩
    refine ⟨joins ++ joins', hgrows.trans hgrows', ?_⟩
    rw [Join.extendAll_append, hextend, List.flatMap_singleton, hextend']
  shows := h'.shows
  place := by
    intro occurrence hlt
    rw [h'.place occurrence (Nat.lt_of_lt_of_le hlt h.le), h.place occurrence hlt]

/-- One more join that goes on with one row. -/
theorem Shows.withJoin (hshows : draft.Shows db ctx view) (hclosed : draft.IsClosed)
    {key : JoinKey} {join : Join} (htarget : join.target = draft.next)
    (hsource : join.source = key.source) (hkey : key.source.index < draft.nextIndex)
    (hlink : join.IsLink) {row : Row engine} {place : Place engine}
    (hextend : Join.extend db ctx.layout view.scope join =
      [view.scope.bind (.table draft.next) row])
    (hholds : (view.withRow draft.next row place).Holds db ctx key draft.next) :
    draft.Unfolds db ctx view (draft.withJoin key join) (view.withRow draft.next row place) where
  closed := hclosed.withJoin key htarget (hsource ▸ hkey) hlink
  exists_joins :=
    ⟨[join], Grows.withJoin draft key htarget, by rw [Join.extendAll_singleton, hextend]; rfl⟩
  shows := by
    intro other found hknown
    by_cases hother : other = key
    · subst hother
      rw [withJoin_known?_self, htarget] at hknown
      cases hknown
      exact ⟨Nat.lt_succ_of_lt hkey, hholds⟩
    · rw [withJoin_known?_of_ne join hother] at hknown
      rcases hshows other found hknown with ⟨hlt, hheld⟩
      refine ⟨Nat.lt_succ_of_lt hlt, hheld.withRow ?_ ?_ row place⟩
      · exact Alias.ne_of_index_lt hlt
      · exact Alias.ne_of_index_lt (hclosed.known other found hknown)
  place := fun occurrence hlt => (view.withRow_of_ne row place (Alias.ne_of_index_lt hlt)).right

/-!
# Single joins
-/

end Draft

end SlotQuery
