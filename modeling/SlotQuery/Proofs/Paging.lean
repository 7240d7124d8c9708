import SlotQuery.Proofs.Brackets
import SlotQuery.Proofs.OuterRows
import SlotQuery.Proofs.Sorting
import SlotQuery.Proofs.Windows

/-!
# Pages of sorted rows

A request for entities is answered with one row for each of them, and a sorted
request with one list of rows. Its pages are cut out of that list, and its count
is the length.
-/

namespace SlotQuery

variable {engine : Engine} {db : Database engine} {ctx : Context}

/-!
# The outer select of a request

Requests that differ in their window only have the same select apart from the
window, as long as both are sorted or cut.
-/

section

variable {filter : Option Filter} {request : Request} {extra : List Column} {draft : Draft}

/-- The select with another window. -/
def Select.windowed (query : Select) (limit offset : Option UInt64) : Select :=
  { query with limit := limit, offset := offset }

end

/-!
# The text of a window

The window is the last of what is written.
-/

theorem Fragment.write_append_text (dialect : Dialect) (fragment : Fragment) (s t : String)
    (bindings : Bindings) :
    ((fragment ++ ofText (s ++ t)).write dialect bindings).fst =
      ((fragment ++ ofText s).write dialect bindings).fst ++ t := by
  rw [write_append, write_append]
  simp [ofText, write, String.append_assoc]

theorem Statement.ofSelect_sql {spelling : Spelling} (query : Select)
    (h : spelling.dialect.limitOffset none none = "") :
    (ofSelect spelling query).sql =
      (ofSelect spelling (query.windowed none none)).sql ++
        spelling.dialect.limitOffset query.limit query.offset := by
  cases query with
  | mk projection joins conditions having orderBy limit offset =>
      unfold ofSelect Select.windowed
      simp only [Select.render, h, String.append_empty]
      exact Fragment.write_append_text spelling.dialect (_ :: _) _ _ .empty

/-!
# Answers to requests

A database returns rows for the select and keeps those in the window that it
reads after the text of the select.
-/

def Compiler.Answers (compiler : Compiler) (request : Request) (db : Database engine)
    (missingFirst : Bool) (answer : List (ResultRow engine)) : Prop :=
  ∃ statement query suffix window rows,
    compiler.compile request = .ok statement ∧ compiler.select request = .ok query ∧
      statement.sql =
        (Statement.ofSelect compiler.spelling (query.windowed none none)).sql ++ suffix ∧
      compiler.dialect.readWindow suffix = some window ∧
      query.Returns db compiler.layout missingFirst rows ∧ answer = window.cut rows

namespace Compiler

variable {compiler : Compiler} {request : Request} {query : Select} {missingFirst : Bool}
variable {full : List (ResultRow engine)}

theorem compile_of_select (h : compiler.select request = .ok query) :
    compiler.compile request = .ok (.ofSelect compiler.spelling query) := by
  rw [compile, h]
  rfl

theorem answers_iff (hdialect : compiler.dialect ∈ Dialect.builtIn)
    (hselect : compiler.select request = .ok query)
    (hreturns : ∀ rows, query.Returns db compiler.layout missingFirst rows ↔ rows = full)
    (hlimit : ∀ limit, query.limit = some limit → compiler.dialect.Bounds limit full.length)
    {answer : List (ResultRow engine)} :
    compiler.Answers request db missingFirst answer ↔
      answer = (Window.asked query.limit query.offset).cut full := by
  have hsql : (Statement.ofSelect compiler.spelling query).sql =
      (Statement.ofSelect compiler.spelling (query.windowed none none)).sql ++
        compiler.dialect.limitOffset query.limit query.offset :=
    Statement.ofSelect_sql query (Dialect.limitOffset_none hdialect)
  rcases Dialect.exists_readWindow hdialect query.limit query.offset with ⟨window, hread, hcut⟩
  have hcut' := hcut full hlimit
  constructor
  · intro h
    rcases h with ⟨statement, query', suffix, window', rows, hcompile, hselect', htext, hread',
      hrows, hanswer⟩
    cases hselect.symm.trans hselect'
    cases (compile_of_select hselect).symm.trans hcompile
    rw [hsql, String.append_right_inj] at htext
    subst htext
    cases hread.symm.trans hread'
    cases (hreturns rows).mp hrows
    rw [hanswer, hcut']
  · intro h
    exact ⟨_, query, _, window, full, compile_of_select hselect, hselect, hsql, hread,
      (hreturns full).mpr rfl, h.trans hcut'.symm⟩

end Compiler

/-!
# One list of rows

What the statements of a request have to do with the list of its rows.
-/

/-- The select returns the rows of the list in some order: one for each entity that is wanted. -/
structure Select.Lists (query : Select) (db : Database engine) (layout : Layout)
    (missingFirst : Bool) (isWanted : engine.Cell → Bool) (full : List (ResultRow engine)) :
    Prop where
  exists_returns : ∃ rows, query.Returns db layout missingFirst rows
  perm : ∀ rows, query.Returns db layout missingFirst rows → rows.Perm full
  keyed : ∀ row ∈ full, row.key.isSome = true
  once : ∀ key, full.countP (ResultRow.isOf key) = if isWanted key then 1 else 0

def Request.windowed (request : Request) (limit offset : Option UInt64) : Request :=
  { request with limit := limit, offset := offset }

theorem Select.IsOuter.lists {query other : Select} {filter : Option Filter} {missingFirst : Bool}
    {full : List (ResultRow engine)} (h : query.IsOuter db ctx filter)
    (hother : other.IsOuter db ctx filter) (hjoins : other.joins = query.joins)
    (hprojection : other.projection = query.projection)
    (hfull : other.Returns db ctx.layout missingFirst full) :
    query.Lists db ctx.layout missingFirst (ctx.isWanted db filter) full where
  exists_returns := Select.exists_returns h.ungrouped db ctx.layout missingFirst
  perm := fun _ hrows => h.perm hother hjoins hprojection hrows hfull
  keyed := by
    intro row hrow
    rcases hother.exists_key hfull hrow with ⟨key, hkey, _⟩
    rw [hkey]
    rfl
  once := hother.countP_isOf hfull

namespace People

end People

end SlotQuery
