import SlotQuery.Proofs.Faults
import SlotQuery.Proofs.Parameters

/-!
# Respelling

A dialect and a layout say how a statement is written and nothing else. Against
the same schema a request has a statement under all of them or under none, with
the same parameters or with the same error. Only a dialect without regular
expressions refuses what others accept.
-/

namespace SlotQuery

namespace Compiler

variable {compiler compiler' : Compiler} (hschema : compiler.schema = compiler'.schema)

include hschema

theorem contextFor_failAlike (resultType : String) :
    FailAlike (compiler.contextFor resultType) (compiler'.contextFor resultType) := by
  simp only [contextFor, hschema]
  split
  · exact .error _
  · exact .ok _ _

variable (hoptions : compiler.options = compiler'.options)

include hoptions

theorem select_failAlike (request : Request)
    (hmatch : compiler.dialect.MatchesAlike compiler'.dialect ∨
      ∀ path regex, .isMatch path regex ∉ request.leaves) :
    FailAlike (compiler.select request) (compiler'.select request) := by
  apply (contextFor_failAlike hschema request.resultType).bind
  intro ctx ctx' hfound hfound'
  rcases contextFor_eq_ok hfound with ⟨hctx, hdialect, hlimits⟩
  rcases contextFor_eq_ok hfound' with ⟨hctx', hdialect', hlimits'⟩
  have hagrees : ctx.Agrees ctx' :=
    ⟨hctx.trans (hschema.trans hctx'.symm), hlimits.trans (hoptions.trans hlimits'.symm)⟩
  rw [← hdialect, ← hdialect'] at hmatch
  apply (compileFilter_failAlike hagrees request.predicate hmatch).bind
  intro filter filter' _ _
  exact assemble_failAlike hagrees request filter filter'

theorem compile_failAlike (request : Request)
    (hmatch : compiler.dialect.MatchesAlike compiler'.dialect ∨
      ∀ path regex, .isMatch path regex ∉ request.leaves) :
    FailAlike (compiler.compile request) (compiler'.compile request) :=
  (compiler.compile_failAlike_select request).trans
    ((select_failAlike hschema hoptions request hmatch).trans
      (compiler'.compile_failAlike_select request).symm)

end Compiler

theorem params_eq_of_compile {compiler compiler' : Compiler} {request : Request}
    {statement other : Statement} (h : compiler.compile request = .ok statement)
    (h' : compiler'.compile request = .ok other) :
    statement.params = other.params ∧ statement.paramTypes = other.paramTypes := by
  simp only [Compiler.compile, bind_eq_ok, pure_eq_ok] at h h'
  rcases h with ⟨query, hquery, hstatement⟩
  rcases h' with ⟨query', hquery', hother⟩
  have hvalues : query.boundValues = query'.boundValues :=
    (Compiler.select_boundValues hquery).trans (Compiler.select_boundValues hquery').symm
  rcases Statement.ofSelect_params compiler.spelling query with ⟨hparams, htypes⟩
  rcases Statement.ofSelect_params compiler'.spelling query' with ⟨hparams', htypes'⟩
  rw [← hstatement, ← hother, hparams, hparams', htypes, htypes', hvalues]
  exact ⟨rfl, rfl⟩

/-- Dialects and layouts change neither the parameters of a request nor its error, where both
dialects know regular expressions or the request asks for none. -/
theorem compile_respelled (schema : Schema) (options : Options) (request : Request)
    (dialect dialect' : Dialect) (layout layout' : Layout)
    (hregex : (dialect.supportsRegex = true ∧ dialect'.supportsRegex = true) ∨
      ∀ path regex, .isMatch path regex ∉ request.leaves) :
    (∃ statement other : Statement,
        Compiler.compile ⟨schema, dialect, layout, options⟩ request = .ok statement ∧
          Compiler.compile ⟨schema, dialect', layout', options⟩ request = .ok other ∧
          statement.params = other.params ∧ statement.paramTypes = other.paramTypes) ∨
      ∃ error : CompileError,
        Compiler.compile ⟨schema, dialect, layout, options⟩ request = .error error ∧
          Compiler.compile ⟨schema, dialect', layout', options⟩ request = .error error := by
  have hfail : FailAlike (Compiler.compile ⟨schema, dialect, layout, options⟩ request)
      (Compiler.compile ⟨schema, dialect', layout', options⟩ request) := by
    refine Compiler.compile_failAlike ?_ ?_ request ?_
    · rfl
    · rfl
    · exact hregex.imp_left fun h => .of_supportsRegex h.left h.right
  cases hstatement : Compiler.compile ⟨schema, dialect, layout, options⟩ request with
  | error error => exact Or.inr ⟨error, rfl, hfail.eq_error_iff.mp hstatement⟩
  | ok statement =>
      rcases hfail.exists_ok_iff.mp ⟨statement, hstatement⟩ with ⟨other, hother⟩
      exact Or.inl ⟨statement, other, rfl, hother, params_eq_of_compile hstatement hother⟩

/-- A layout in which names have to be quoted and collections have another marker. -/
def People.layout : Layout :=
  (Layout.standard.withEntityTable "order" "primary key" "name").withTopLevelMarker "ROOT"

def People.mailedFrom (host : String) : Request :=
  (Request.ofType "Person").filter (.isMatch (.property email) host)

theorem People.compile_mailedFrom (host : String) :
    Compiler.compile ⟨schema, .postgres, .standard, {}⟩ (mailedFrom host) =
      .error (.missingSlot email) := by
  have hcontext : Compiler.contextFor ⟨schema, .postgres, .standard, {}⟩ "Person" =
      .ok { context with dialect := .postgres } := by
    cbv
  rw [(Compiler.compile_failAlike_select _ _).eq_error_iff, Compiler.select,
    show (mailedFrom host).resultType = "Person" from rfl, hcontext]
  rfl

theorem respelled_people_share_outcomes :
    ((∀ path regex, .isMatch path regex ∉ (People.partlyTagged "Paris" "red").leaves) ∧
      ∃ statement other : Statement,
        People.compiler.compile (People.partlyTagged "Paris" "red") = .ok statement ∧
          Compiler.compile ⟨People.schema, .postgres, People.layout, {}⟩
            (People.partlyTagged "Paris" "red") = .ok other ∧
          statement.params = other.params ∧ statement.paramTypes = other.paramTypes) ∧
      (Dialect.postgres.supportsRegex = true ∧ Dialect.mysql.supportsRegex = true) ∧
        Compiler.compile ⟨People.schema, .postgres, .standard, {}⟩ (People.mailedFrom "a") =
            .error (.missingSlot People.email) ∧
          Compiler.compile ⟨People.schema, .mysql, People.layout, {}⟩ (People.mailedFrom "a") =
            .error (.missingSlot People.email) := by
  have hleaves : ∀ path regex,
      .isMatch path regex ∉ (People.partlyTagged "Paris" "red").leaves := by
    simp [People.partlyTagged, Request.leaves, Predicate.leaves, Predicate.childrenLeaves]
  refine ⟨⟨hleaves, ?_⟩, ⟨rfl, rfl⟩, People.compile_mailedFrom "a", ?_⟩
  · rcases compile_respelled People.schema {} (People.partlyTagged "Paris" "red") .sqlite .postgres
      .standard People.layout (Or.inr hleaves) with hsame | ⟨error, herror, _⟩
    · exact hsame
    · rcases (People.compiler.compile_failAlike_select _).exists_ok_iff.mpr
        (People.exists_select_partlyTagged "Paris" "red") with ⟨statement, hstatement⟩
      cases hstatement.symm.trans herror
  · rcases compile_respelled People.schema {} (People.mailedFrom "a") .postgres .mysql .standard
      People.layout (Or.inl ⟨rfl, rfl⟩) with ⟨_, _, hstatement, _⟩ | ⟨error, herror, hother⟩
    · cases (People.compile_mailedFrom "a").symm.trans hstatement
    · cases (People.compile_mailedFrom "a").symm.trans herror
      exact hother

end SlotQuery
