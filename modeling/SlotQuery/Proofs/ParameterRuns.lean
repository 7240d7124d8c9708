import SlotQuery.Proofs.Parameters

/-!
# Parameters collected over several calls

A caller may compile one request after the other, each against a schema and a
dialect of its own, and collect the parameters of all of them in the same two
lists. A call that fails adds nothing. One that succeeds adds the scalars of its
request, so the marks of its statement count on from what the lists held before.
-/

namespace SlotQuery

/-!
# Marks of a fragment

What is written does not depend on what was bound before, but for the numbers of
the marks.
-/

/-- The first `n` marks after the one with the index. -/
def Dialect.marksAfter (dialect : Dialect) (index n : Nat) : List String :=
  (List.range n).map fun k => dialect.placeholder (index + k + 1)

theorem Dialect.marksAfter_succ (dialect : Dialect) (index n : Nat) :
    dialect.marksAfter index (n + 1) =
      dialect.placeholder (index + 1) :: dialect.marksAfter (index + 1) n := by
  simp only [marksAfter, List.range_succ_eq_map, List.map_cons, List.map_map, Nat.add_zero,
    List.cons.injEq, true_and]
  apply List.map_congr_left
  intro k _
  simp only [Function.comp_apply]
  congr 1
  omega

namespace Fragment

/-- The text of a fragment in which the bound values, from left to right, have these marks. -/
def fillIn : Fragment → List String → String
  | [], _ => ""
  | .text s :: rest, marks => s ++ fillIn rest marks
  | .bound _ _ :: _, [] => ""
  | .bound _ around :: rest, mark :: marks => around mark ++ fillIn rest marks

theorem sql_write (dialect : Dialect) (fragment : Fragment) (bindings : Bindings) :
    (fragment.write dialect bindings).fst =
      fragment.fillIn (dialect.marksAfter bindings.index fragment.values.length) := by
  induction fragment generalizing bindings with
  | nil => rfl
  | cons piece rest ih =>
      cases piece with
      | text s => exact congrArg (s ++ ·) (ih bindings)
      | bound value around =>
          rw [values, List.length_cons, Dialect.marksAfter_succ]
          exact congrArg (around (dialect.placeholder (bindings.index + 1)) ++ ·)
            (ih (bindings.bind value))

end Fragment

/-!
# Statements

The scalars of a request have types, and with these they are announced.
-/

theorem Request.types_scalars (request : Request) :
    request.scalars.map Value.sqlType? = (request.scalars.map Value.boundType).map some := by
  rw [List.map_map]
  apply List.map_congr_left
  intro scalar hscalar
  rcases request.exists_sqlType_of_mem_scalars hscalar with ⟨type, htype⟩
  simp [Value.boundType, htype]

theorem Compiler.compile_eq_ok {compiler : Compiler} {request : Request} {statement : Statement}
    (h : compiler.compile request = .ok statement) :
    statement.params = request.scalars ∧
      statement.paramTypes = request.scalars.map Value.boundType ∧
      ∃ fragment : Fragment, fragment.Binds compiler.dialect request.scalars ∧
        statement.sql =
          fragment.fillIn (compiler.dialect.marksAfter 0 request.scalars.length) := by
  simp only [compile, bind_eq_ok, pure_eq_ok] at h
  rcases h with ⟨query, hquery, hstatement⟩
  have hvalues := select_boundValues hquery
  have hbinds := Select.render_binds compiler.spelling query
  rcases Statement.ofSelect_params compiler.spelling query with ⟨hparams, htypes⟩
  rw [hvalues] at hbinds hparams htypes
  subst hstatement
  refine ⟨hparams, htypes, query.render compiler.spelling, hbinds, ?_⟩
  rw [← hbinds.values_eq]
  exact Fragment.sql_write compiler.dialect _ .empty

/-!
# Calls
-/

/-- A request with what it is compiled against. -/
structure Call where
  compiler : Compiler
  request : Request

namespace Call

def run (call : Call) (lists : ParameterLists) : Except CompileError String × ParameterLists :=
  call.compiler.compileInto call.request lists

/-- The scalars of the request, where it has a statement. -/
def scalars (call : Call) : List Value :=
  match call.compiler.compile call.request with
  | .ok _ => call.request.scalars
  | .error _ => []

end Call

namespace ParameterLists

/-- The lists after all of the calls were made on them, from first to last. -/
def after (lists : ParameterLists) (calls : List Call) : ParameterLists :=
  calls.foldl (fun lists call => (call.run lists).snd) lists

theorem after_snoc (lists : ParameterLists) (calls : List Call) (next : Call) :
    lists.after (calls ++ [next]) = (next.run (lists.after calls)).snd := by
  simp only [after, List.foldl_append, List.foldl_cons, List.foldl_nil]

/-- Each value is announced with its own type. -/
def Typed (lists : ParameterLists) : Prop :=
  lists.values.map Value.sqlType? = lists.types.map some

theorem Typed.length_eq {lists : ParameterLists} (h : lists.Typed) :
    lists.values.length = lists.types.length := by
  have hlength := congrArg List.length h
  rw [List.length_map, List.length_map] at hlength
  exact hlength

end ParameterLists

/-!
# One call
-/

namespace Call

variable {call : Call} {lists : ParameterLists}

theorem run_of_error {error : CompileError} (h : (call.run lists).fst = .error error) :
    (call.run lists).snd = lists ∧ call.scalars = [] := by
  simp only [run, Compiler.compileInto, scalars] at h ⊢
  cases hcompile : call.compiler.compile call.request with
  | ok statement =>
      rw [hcompile] at h
      cases h
  | error cause => exact ⟨rfl, rfl⟩

theorem run_of_ok {sql : String} (h : (call.run lists).fst = .ok sql) :
    call.scalars = call.request.scalars ∧
      (call.run lists).snd =
        { values := lists.values ++ call.request.scalars
          types := lists.types ++ call.request.scalars.map Value.boundType } ∧
      ∃ fragment : Fragment, fragment.Binds call.compiler.dialect call.request.scalars ∧
        sql = fragment.fillIn
          (call.compiler.dialect.marksAfter 0 call.request.scalars.length) := by
  simp only [run, Compiler.compileInto, scalars] at h ⊢
  cases hcompile : call.compiler.compile call.request with
  | error cause =>
      rw [hcompile] at h
      cases h
  | ok statement =>
      rw [hcompile] at h
      cases h
      rcases Compiler.compile_eq_ok hcompile with ⟨hparams, htypes, hfragment⟩
      refine ⟨rfl, ?_, hfragment⟩
      simp only [ParameterLists.extend, hparams, htypes]

theorem values_run (call : Call) (lists : ParameterLists) :
    (call.run lists).snd.values = lists.values ++ call.scalars := by
  cases hanswer : (call.run lists).fst with
  | error cause =>
      rcases run_of_error hanswer with ⟨hlists, hscalars⟩
      rw [hlists, hscalars, List.append_nil]
  | ok sql =>
      rcases run_of_ok hanswer with ⟨hscalars, hlists, _⟩
      rw [hlists, hscalars]

theorem typed_run (h : lists.Typed) (call : Call) : (call.run lists).snd.Typed := by
  cases hanswer : (call.run lists).fst with
  | error cause =>
      rw [(run_of_error hanswer).left]
      exact h
  | ok sql =>
      rw [(run_of_ok hanswer).right.left, ParameterLists.Typed, List.map_append, List.map_append,
        h, call.request.types_scalars]

end Call

/-!
# Runs

By induction on the calls, for all lists that they start from.
-/

namespace ParameterLists

theorem values_after (lists : ParameterLists) (calls : List Call) :
    (lists.after calls).values = lists.values ++ calls.flatMap Call.scalars := by
  induction calls generalizing lists with
  | nil => exact (List.append_nil _).symm
  | cons first rest ih =>
      have hrest := ih (first.run lists).snd
      rw [Call.values_run, List.append_assoc] at hrest
      exact hrest

theorem Typed.after {lists : ParameterLists} (h : lists.Typed) (calls : List Call) :
    (lists.after calls).Typed := by
  induction calls generalizing lists with
  | nil => exact h
  | cons first rest ih => exact ih (Call.typed_run h first)

end ParameterLists

/-- After any calls, the lists hold the scalars of those that succeeded behind what they held at
first, each value with its type. The next call leaves them alone when it fails, and when it
succeeds its marks stand, in their order, for what it adds. -/
theorem parameters_after_calls {lists : ParameterLists} (h : lists.Typed) (calls : List Call) :
    (lists.after calls).Typed ∧
      (lists.after calls).values.length = (lists.after calls).types.length ∧
      (lists.after calls).values = lists.values ++ calls.flatMap Call.scalars ∧
      (lists.after calls).types.map some =
        lists.types.map some ++ (calls.flatMap Call.scalars).map Value.sqlType? ∧
      ∀ next : Call,
        (∀ error, (next.run (lists.after calls)).fst = .error error →
          lists.after (calls ++ [next]) = lists.after calls) ∧
        ∀ sql, (next.run (lists.after calls)).fst = .ok sql →
          ∃ fragment : Fragment,
            fragment.Binds next.compiler.dialect next.request.scalars ∧
            sql = fragment.fillIn
              (next.compiler.dialect.marksAfter 0 next.request.scalars.length) ∧
            (lists.after (calls ++ [next])).values.length =
              (lists.after calls).values.length + next.request.scalars.length ∧
            ∀ k < next.request.scalars.length, next.request.scalars[k]? =
              (lists.after (calls ++ [next])).values[(lists.after calls).values.length + k]? := by
  have htyped := h.after calls
  have hvalues := lists.values_after calls
  refine ⟨htyped, htyped.length_eq, hvalues, ?_, ?_⟩
  · rw [← htyped, hvalues, List.map_append, h]
  · intro next
    refine ⟨?_, ?_⟩
    · intro error herror
      rw [ParameterLists.after_snoc, (Call.run_of_error herror).left]
    · intro sql hsql
      rcases Call.run_of_ok hsql with ⟨_, hlists, fragment, hbinds, htext⟩
      refine ⟨fragment, hbinds, htext, ?_, ?_⟩
      · rw [ParameterLists.after_snoc, hlists, List.length_append]
      · intro k _
        rw [ParameterLists.after_snoc, hlists, List.getElem?_append_right (Nat.le_add_right _ k),
          Nat.add_sub_cancel_left]

def People.tagCall (place tag : String) : Call :=
  { compiler := compiler, request := partlyTagged place tag }

/-- There is no such type. -/
def People.robotCall : Call :=
  { compiler := compiler, request := Request.ofType "Robot" }

theorem People.exists_sql_tagCall (place tag : String) (lists : ParameterLists) :
    ∃ sql, ((tagCall place tag).run lists).fst = .ok sql := by
  rcases exists_select_partlyTagged place tag with ⟨query, hquery⟩
  refine ⟨(Statement.ofSelect compiler.spelling query).sql, ?_⟩
  simp only [Call.run, tagCall, Compiler.compileInto, Compiler.compile, hquery]
  rfl

theorem People.run_robotCall (lists : ParameterLists) :
    (robotCall.run lists).fst = .error (.unknownResultType "Robot") := by
  have hnone : compiler.contextFor "Robot" = .error (.unknownResultType "Robot") := by cbv
  have hcompile : compiler.compile (Request.ofType "Robot") =
      .error (.unknownResultType "Robot") := by
    unfold Compiler.compile Compiler.select
    rw [show (Request.ofType "Robot").resultType = "Robot" from rfl, hnone]
    rfl
  simp only [Call.run, robotCall, Compiler.compileInto, hcompile]

theorem marks_after_robots_and_people :
    ∃ before : ParameterLists,
      before = ParameterLists.after { values := [.int 5], types := [.bigInt] }
        [People.robotCall, People.tagCall "Paris" "red"] ∧
      before.values = [.int 5, .string "Paris", .int 7, .string "red", .bool true] ∧
      before.types = [.bigInt, .varchar, .bigInt, .varchar, .boolean] ∧
      (People.robotCall.run before).snd = before ∧
      ((People.tagCall "Oslo" "blue").run before).snd.values[5 + 2]? = some (.string "blue") := by
  have htyped : ParameterLists.Typed { values := [.int 5], types := [.bigInt] } := rfl
  rcases parameters_after_calls htyped [People.robotCall, People.tagCall "Paris" "red"] with
    ⟨hbefore, _, hvalues, _, hnext⟩
  rcases People.exists_sql_tagCall "Paris" "red" .empty with ⟨_, hparis⟩
  have hscalars : [People.robotCall, People.tagCall "Paris" "red"].flatMap Call.scalars =
      [.string "Paris", .int 7, .string "red", .bool true] := by
    simp only [List.flatMap_cons, (Call.run_of_error (People.run_robotCall .empty)).right,
      (Call.run_of_ok hparis).left]
    rfl
  rw [hscalars] at hvalues
  refine ⟨_, rfl, hvalues, ?_, ?_, ?_⟩
  · rw [ParameterLists.Typed, hvalues] at hbefore
    exact ((List.map_inj_right fun _ _ => Option.some.inj).mp hbefore).symm
  · rw [← ParameterLists.after_snoc]
    exact (hnext People.robotCall).left _ (People.run_robotCall _)
  · rcases People.exists_sql_tagCall "Oslo" "blue" (ParameterLists.after
      { values := [.int 5], types := [.bigInt] }
      [People.robotCall, People.tagCall "Paris" "red"]) with ⟨sql, hsql⟩
    rcases (hnext (People.tagCall "Oslo" "blue")).right sql hsql with ⟨_, _, _, _, hmarks⟩
    have hmark := hmarks 2 (by decide)
    rw [ParameterLists.after_snoc, hvalues] at hmark
    exact hmark.symm

end SlotQuery
