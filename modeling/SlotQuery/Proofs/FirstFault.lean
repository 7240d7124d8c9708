import SlotQuery.Proofs.Faults
import SlotQuery.Proofs.Parameters

/-!
# The first fault

A request is refused for the first of its leaves that is refused on its own,
whatever combinators stand around it. Only when all of its leaves are fine is
it refused for a sort key, and then for the first that is refused on its own.
-/

namespace SlotQuery

namespace Request

def unsorted (request : Request) : Request :=
  { request with orderBy := [] }

/-- Entities of the same type, with the leaf as the only condition. -/
def onlyLeaf (request : Request) (leaf : Predicate) : Request :=
  (ofType request.resultType).filter leaf

/-- All entities of the same type by the one sort key. -/
def onlyBy (request : Request) (order : OrderBy) : Request :=
  (ofType request.resultType).thenBy order

end Request

/-!
# One request after its leaves

What compiling a request can fail for is its leaves from left to right, and
then its sort keys one by one.
-/

namespace Compiler

section

variable {compiler : Compiler} {ctx : Context}

theorem compileFilter_failAlike_leaves (predicate : Option Predicate) :
    FailAlike (compileFilter ctx predicate)
      (compileChildren ctx false (predicate.elim [] Predicate.leaves)) := by
  cases predicate with
  | none => exact .ok _ _
  | some predicate =>
      exact (FailAlike.bind_total fun _ => ⟨_, rfl⟩).trans
        (compilePredicate_failAlike_leaves false predicate)

theorem assemble_failAlike_sortKeys (request : Request) (filter : Option Filter) :
    FailAlike (assemble ctx request filter)
      (if request.countOnly then .ok () else forM request.orderBy (checkSortKey ctx)) := by
  rw [assemble]
  split
  · exact .ok _ _
  · exact (FailAlike.bind_total fun _ => ⟨_, rfl⟩).trans
      (Draft.addSortKeys_failAlike request.orderBy _)

theorem compile_failAlike_steps (request : Request)
    (hctx : compiler.contextFor request.resultType = .ok ctx) :
    FailAlike (compiler.compile request) (do
      let _ ← compileChildren ctx false request.leaves
      if request.countOnly then .ok () else forM request.orderBy (checkSortKey ctx)) := by
  apply (compiler.compile_failAlike_select request).trans
  rw [select, hctx]
  apply (compileFilter_failAlike_leaves request.predicate).bind
  intro filter _ _ _
  exact assemble_failAlike_sortKeys request filter

theorem compile_failAlike_leaves (request : Request) (hkeys : request.orderBy = [])
    (hctx : compiler.contextFor request.resultType = .ok ctx) :
    FailAlike (compiler.compile request) (compileChildren ctx false request.leaves) := by
  have hsteps := compile_failAlike_steps request hctx
  have hnone : forM request.orderBy (checkSortKey ctx) = .ok () := by
    rw [hkeys]
    rfl
  rw [hnone, ite_self] at hsteps
  exact hsteps.trans (FailAlike.bind_total fun _ => ⟨_, rfl⟩)

variable {request : Request} (hctx : compiler.contextFor request.resultType = .ok ctx)

include hctx

theorem compile_onlyLeaf_failAlike (leaf : Predicate) :
    FailAlike (compiler.compile (request.onlyLeaf leaf)) (compilePredicate ctx false leaf) :=
  (compile_failAlike_leaves (request.onlyLeaf leaf) rfl hctx).trans
    (compilePredicate_failAlike_leaves false leaf).symm

theorem compile_onlyBy_failAlike (order : OrderBy) :
    FailAlike (compiler.compile (request.onlyBy order)) (checkSortKey ctx order) := by
  have hsteps := compile_failAlike_steps (request.onlyBy order) hctx
  have hkeys : forM (request.onlyBy order).orderBy (checkSortKey ctx) = (do
      checkSortKey ctx order
      .ok ()) := rfl
  rw [hkeys] at hsteps
  exact hsteps.trans (FailAlike.bind_total fun _ => ⟨_, rfl⟩)

theorem compile_unsorted_eq_error_iff {error : CompileError} :
    compiler.compile request.unsorted = .error error ↔
      FirstError (request.leaves.map fun leaf => compiler.compile (request.onlyLeaf leaf))
        error := by
  have hleaves := compile_failAlike_leaves request.unsorted rfl hctx
  rw [hleaves.eq_error_iff, compileChildren_eq_error_iff]
  exact firstError_congr fun leaf _ => (compile_onlyLeaf_failAlike hctx leaf).symm

theorem compile_eq_error_iff (hcount : request.countOnly = false) {error : CompileError} :
    compiler.compile request = .error error ↔
      compiler.compile request.unsorted = .error error ∨
        (∃ statement, compiler.compile request.unsorted = .ok statement) ∧
          FirstError (request.orderBy.map fun order => compiler.compile (request.onlyBy order))
            error := by
  have hsteps := compile_failAlike_steps request hctx
  rw [hcount] at hsteps
  have hleaves := compile_failAlike_leaves request.unsorted rfl hctx
  have hkeys : forM request.orderBy (checkSortKey ctx) = .error error ↔
      FirstError (request.orderBy.map fun order => compiler.compile (request.onlyBy order))
        error :=
    forM_eq_error_iff.trans
      (firstError_congr fun order _ => (compile_onlyBy_failAlike hctx order).symm)
  rw [hsteps.eq_error_iff, bind_eq_error, exists_and_right, hleaves.eq_error_iff,
    hleaves.exists_ok_iff, ← hkeys]
  rfl

end

end Compiler

/-- A request fails for its first leaf that fails alone. With all leaves fine, it fails for its
first sort key that fails alone, whatever the sort keys before it have joined. -/
theorem compile_fails_first (compiler : Compiler) (request : Request)
    (htype : ∃ type ∈ compiler.schema.types, type.isAbstract = false ∧
      compiler.schema.isAssignable type.name request.resultType = true) :
    ((∃ error, compiler.compile request.unsorted = .error error) ↔
        ∃ leaf ∈ request.leaves, ∃ error,
          compiler.compile (request.onlyLeaf leaf) = .error error) ∧
      (∀ error, compiler.compile request.unsorted = .error error ↔
        FirstError (request.leaves.map fun leaf => compiler.compile (request.onlyLeaf leaf))
          error) ∧
      (request.countOnly = false → ∀ error, compiler.compile request = .error error ↔
        compiler.compile request.unsorted = .error error ∨
          (∃ statement, compiler.compile request.unsorted = .ok statement) ∧
            FirstError (request.orderBy.map fun order => compiler.compile (request.onlyBy order))
              error) := by
  rcases Compiler.exists_contextFor_iff.mpr htype with ⟨ctx, hctx⟩
  refine ⟨?_, fun _ => Compiler.compile_unsorted_eq_error_iff hctx,
    fun hcount _ => Compiler.compile_eq_error_iff hctx hcount⟩
  simp [Compiler.compile_unsorted_eq_error_iff hctx, exists_firstError_iff]

namespace People

def isAlice : Predicate :=
  .comparison .eq (.property name) (.string "Alice")

/-- Two of the three leaves are at fault, and so is the sort key. -/
def misnamed : Request :=
  let initial := Predicate.contains (.property name) (.string "A")
  let mail := Predicate.isMatch (.property email) "a"
  ((Request.ofType "Person").filter (.not (.and [isAlice, .or [initial, mail]]))).thenBy
    (.ascending (.property tags))

/-- The last two sort keys are at fault. -/
def missorted : Request :=
  ((((Request.ofType "Person").filter isAlice).thenBy (.ascending (.property name))).thenBy
    (.ascending (.property tags))).thenBy (.ascending (.property email))

def selectPeople (request : Request) : Except CompileError Select := do
  let filter ← Compiler.compileFilter context request.predicate
  assemble context request filter

theorem compile_failAlike_selectPeople {request : Request} (h : request.resultType = "Person") :
    FailAlike (compiler.compile request) (selectPeople request) := by
  apply (compiler.compile_failAlike_select request).trans
  rw [Compiler.select, h, contextFor_person]
  exact .refl _

end People

theorem first_faults_of_people :
    (∃ type ∈ People.compiler.schema.types, type.isAbstract = false ∧
        People.compiler.schema.isAssignable type.name "Person" = true) ∧
      People.misnamed.countOnly = false ∧ People.missorted.countOnly = false ∧
      People.compiler.compile People.misnamed.unsorted = .error (.notACollection People.name) ∧
      People.compiler.compile People.misnamed = .error (.notACollection People.name) ∧
      People.compiler.compile People.missorted = .error (multiValued People.tags) := by
  have htype : ∃ type ∈ People.compiler.schema.types, type.isAbstract = false ∧
      People.compiler.schema.isAssignable type.name "Person" = true := by
    rw [← Compiler.exists_contextFor_iff, People.contextFor_person]
    exact ⟨_, rfl⟩
  rcases compile_fails_first People.compiler People.misnamed htype with
    ⟨_, hunsorted, hmisnamed⟩
  rcases compile_fails_first People.compiler People.missorted htype with ⟨_, _, hmissorted⟩
  have hleaves : People.compiler.compile People.misnamed.unsorted =
      .error (.notACollection People.name) := by
    apply (hunsorted _).mpr
    refine firstError_cons_iff.mpr (Or.inr ⟨?_, firstError_cons_iff.mpr (Or.inl ?_)⟩)
    · exact (People.compile_failAlike_selectPeople rfl).exists_ok_iff.mpr ⟨_, rfl⟩
    · exact (People.compile_failAlike_selectPeople rfl).eq_error_iff.mpr rfl
  refine ⟨htype, rfl, rfl, hleaves, (hmisnamed rfl _).mpr (Or.inl hleaves), ?_⟩
  refine (hmissorted rfl _).mpr (Or.inr ⟨?_, firstError_cons_iff.mpr (Or.inr ⟨?_, ?_⟩)⟩)
  · exact (People.compile_failAlike_selectPeople rfl).exists_ok_iff.mpr ⟨_, rfl⟩
  · exact (People.compile_failAlike_selectPeople rfl).exists_ok_iff.mpr ⟨_, rfl⟩
  · refine firstError_cons_iff.mpr (Or.inl ?_)
    exact (People.compile_failAlike_selectPeople rfl).eq_error_iff.mpr rfl

end SlotQuery
