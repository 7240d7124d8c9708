import SlotQuery.Compile.Statement

/-!
# Outcomes

A computation ends with a result or with an error. Two computations can be told
apart by their results and still fail alike. Of several computations one after
the other, the first that fails gives its error to the whole.
-/

namespace SlotQuery

section

variable {ε α β γ δ : Type}

/-!
# Computations side by side
-/

/-- Two computations stay side by side when their first steps do and the rest does from there. -/
theorem bind_eq_map_bind {first : Except ε α} {first' : Except ε β} {next : α → Except ε γ}
    {next' : β → Except ε δ} {f : α → β} {g : γ → δ} (hfirst : first' = first.map f)
    (hnext : ∀ a, next' (f a) = (next a).map g) :
    (first' >>= next') = (first >>= next).map g := by
  subst hfirst
  cases first with
  | error error => rfl
  | ok a => exact hnext a

theorem bind_eq_map_bind_of_eq {first : Except ε α} {next : α → Except ε γ}
    {next' : α → Except ε δ} {g : γ → δ} (hnext : ∀ a, next' a = (next a).map g) :
    (first >>= next') = (first >>= next).map g := by
  cases first with
  | error error => rfl
  | ok a => exact hnext a

/-!
# Failing alike

What the results are is left open, so the two computations may differ in all
that decides about a result only.
-/

/-- Both computations end with a result, or both with the same error. -/
inductive FailAlike : Except ε α → Except ε β → Prop where
  | ok (a : α) (b : β) : FailAlike (.ok a) (.ok b)
  | error (error : ε) : FailAlike (.error error) (.error error)

namespace FailAlike

variable {first : Except ε α} {second : Except ε β} {third : Except ε γ}

theorem refl (first : Except ε α) : FailAlike first first := by
  cases first with
  | error error => exact .error error
  | ok a => exact .ok a a

theorem symm (h : FailAlike first second) : FailAlike second first := by
  cases h with
  | ok a b => exact .ok b a
  | error error => exact .error error

theorem trans (h : FailAlike first second) (h' : FailAlike second third) :
    FailAlike first third := by
  cases h with
  | ok a b =>
      cases h' with
      | ok _ c => exact .ok a c
  | error error =>
      cases h' with
      | error _ => exact .error error

theorem of_exists_ok (h : ∃ a, first = .ok a) (h' : ∃ b, second = .ok b) :
    FailAlike first second := by
  rcases h with ⟨a, ha⟩
  rcases h' with ⟨b, hb⟩
  rw [ha, hb]
  exact .ok a b

theorem eq_error_iff (h : FailAlike first second) {error : ε} :
    first = .error error ↔ second = .error error := by
  cases h with
  | ok a b => simp
  | error found => simp

theorem exists_ok_iff (h : FailAlike first second) :
    (∃ a, first = .ok a) ↔ ∃ b, second = .ok b := by
  cases h with
  | ok a b => simp
  | error found => simp

theorem bind {next : α → Except ε γ} {next' : β → Except ε δ} (h : FailAlike first second)
    (hnext : ∀ a b, first = .ok a → second = .ok b → FailAlike (next a) (next' b)) :
    FailAlike (first >>= next) (second >>= next') := by
  cases h with
  | ok a b => exact hnext a b rfl rfl
  | error error => exact .error error

/-- A step that always succeeds leaves the errors as they are. -/
theorem bind_total {next : α → Except ε γ} (h : ∀ a, ∃ result, next a = .ok result) :
    FailAlike (first >>= next) first := by
  cases first with
  | error error => exact .error error
  | ok a =>
      rcases h a with ⟨result, hresult⟩
      show FailAlike (next a) _
      rw [hresult]
      exact .ok result a

/-- Two computations that end in steps that always succeed. -/
theorem bind_totals {next : α → Except ε γ} {next' : β → Except ε δ} (h : FailAlike first second)
    (hnext : ∀ a, ∃ result, next a = .ok result) (hnext' : ∀ b, ∃ result, next' b = .ok result) :
    FailAlike (first >>= next) (second >>= next') :=
  (bind_total hnext).trans (h.trans (bind_total hnext').symm)

end FailAlike

/-!
# The first error
-/

theorem bind_eq_error {first : Except ε α} {next : α → Except ε β} {error : ε} :
    (first >>= next) = .error error ↔
      first = .error error ∨ ∃ a, first = .ok a ∧ next a = .error error := by
  cases first with
  | error found => simp [bind, Except.bind]
  | ok a => simp [bind, Except.bind]

/-- The first of the computations that fails has the error. -/
def FirstError (runs : List (Except ε α)) (error : ε) : Prop :=
  ∃ before after, runs = before ++ .error error :: after ∧
    ∀ run ∈ before, ∃ result, run = .ok result

theorem not_firstError_nil (error : ε) : ¬FirstError ([] : List (Except ε α)) error := by
  intro h
  rcases h with ⟨before, after, hruns, _⟩
  cases before <;> cases hruns

theorem firstError_cons_iff {run : Except ε α} {runs : List (Except ε α)} {error : ε} :
    FirstError (run :: runs) error ↔
      run = .error error ∨ (∃ result, run = .ok result) ∧ FirstError runs error := by
  constructor
  · intro h
    rcases h with ⟨before, after, hruns, hbefore⟩
    cases before with
    | nil =>
        cases hruns
        exact Or.inl rfl
    | cons earlier rest =>
        rcases List.cons.inj hruns with ⟨hrun, hrest⟩
        rw [List.forall_mem_cons] at hbefore
        rw [hrun]
        exact Or.inr ⟨hbefore.left, rest, after, hrest, hbefore.right⟩
  · intro h
    rcases h with hrun | ⟨hrun, before, after, hruns, hbefore⟩
    · exact ⟨[], runs, by rw [hrun]; rfl, by simp⟩
    · refine ⟨run :: before, after, by rw [hruns]; rfl, ?_⟩
      exact List.forall_mem_cons.mpr ⟨hrun, hbefore⟩

/-- Some error comes first as soon as one of the computations fails. -/
theorem exists_firstError_iff {ι : Type} {items : List ι} {run : ι → Except ε α} :
    (∃ error, FirstError (items.map run) error) ↔
      ∃ item ∈ items, ∃ error, run item = .error error := by
  induction items with
  | nil => simp [not_firstError_nil]
  | cons item rest ih =>
      rw [List.map_cons]
      cases hitem : run item with
      | error error =>
          exact iff_of_true ⟨error, firstError_cons_iff.mpr (Or.inl rfl)⟩
            ⟨item, List.mem_cons_self, error, hitem⟩
      | ok result => simp [firstError_cons_iff, ih, hitem]

theorem firstError_congr {ι : Type} {items : List ι} {run : ι → Except ε α} {run' : ι → Except ε β}
    (h : ∀ item ∈ items, FailAlike (run item) (run' item)) {error : ε} :
    FirstError (items.map run) error ↔ FirstError (items.map run') error := by
  induction items with
  | nil => simp [not_firstError_nil]
  | cons item rest ih =>
      rw [List.forall_mem_cons] at h
      rw [List.map_cons, List.map_cons, firstError_cons_iff, firstError_cons_iff,
        h.left.eq_error_iff, h.left.exists_ok_iff, ih h.right]

/-- A run over all items stops at the first of them that fails. -/
theorem forM_eq_error_iff {ι : Type} {items : List ι} {run : ι → Except ε Unit} {error : ε} :
    forM items run = .error error ↔ FirstError (items.map run) error := by
  induction items with
  | nil => simp [not_firstError_nil, pure, Except.pure]
  | cons item rest ih =>
      rw [List.forM_cons, List.map_cons, firstError_cons_iff, ← ih, bind_eq_error,
        exists_and_right]

end

/-!
# Operands

The operands of a combinator are compiled from left to right.
-/

section

variable {ctx : Context} (negated : Bool)

theorem compileChildren_append (first second : List Predicate) :
    compileChildren ctx negated (first ++ second) = (do
      let operands ← compileChildren ctx negated first
      let others ← compileChildren ctx negated second
      return operands ++ others) := by
  induction first with
  | nil =>
      rw [List.nil_append, compileChildren]
      cases compileChildren ctx negated second <;> rfl
  | cons child rest ih =>
      rw [List.cons_append, compileChildren, compileChildren, ih]
      cases compilePredicate ctx negated child with
      | error error => rfl
      | ok operand =>
          cases compileChildren ctx negated rest with
          | error error => rfl
          | ok operands => cases compileChildren ctx negated second <;> rfl

theorem compileChildren_eq_error_iff {children : List Predicate} {error : CompileError} :
    compileChildren ctx negated children = .error error ↔
      FirstError (children.map (compilePredicate ctx negated)) error := by
  induction children with
  | nil => simp [compileChildren, not_firstError_nil]
  | cons child rest ih =>
      have hrest : ∀ operand : Filter, (do
            let operands ← compileChildren ctx negated rest
            return operand :: operands) = .error error ↔
          compileChildren ctx negated rest = .error error :=
        fun operand => (FailAlike.bind_total fun _ => ⟨_, rfl⟩).eq_error_iff
      rw [List.map_cons, firstError_cons_iff, ← ih, compileChildren, bind_eq_error]
      simp only [hrest, exists_and_right]

end

/-!
# Statements

Only the select can be refused. Of the predicate it reads nothing but the filter.
-/

namespace Compiler

theorem compile_failAlike_select (compiler : Compiler) (request : Request) :
    FailAlike (compiler.compile request) (compiler.select request) :=
  FailAlike.bind_total fun _ => ⟨_, rfl⟩

theorem compile_filter_congr {predicate predicate' : Predicate}
    (h : ∀ ctx, compilePredicate ctx false predicate = compilePredicate ctx false predicate')
    (compiler : Compiler) (request : Request) :
    compiler.compile (request.filter predicate) = compiler.compile (request.filter predicate') := by
  have hfilter (ctx : Context) :
      compileFilter ctx (some predicate) = compileFilter ctx (some predicate') := by
    rw [compileFilter, compileFilter, h]
  have hselect : compiler.select (request.filter predicate) =
      compiler.select (request.filter predicate') := by
    simp only [select, Request.filter, hfilter]
    rfl
  rw [compile, compile, hselect]

end Compiler

end SlotQuery
