import SlotQuery.Proofs.Rebinding

/-!
# Marks and what they stand for

A query is written as texts with marks between them. The marks are numbered on
from the last one before, and the values of the query are bound in the order of
the marks. The texts are the same whatever was bound before and whatever the
query binds.
-/

namespace SlotQuery

/-!
# Texts between marks
-/

/-- The texts with a mark between any two, the first of them numbered after the index. -/
def Dialect.fill (dialect : Dialect) : List String → Nat → String
  | [], _ => ""
  | [last], _ => last
  | text :: next :: rest, index =>
      text ++ dialect.placeholder (index + 1) ++ fill dialect (next :: rest) (index + 1)

/-- Writes a text in front of the first one. -/
def prependText (s : String) : List String → List String
  | [] => [s]
  | first :: rest => (s ++ first) :: rest

theorem Dialect.fill_prependText (dialect : Dialect) (s : String) (texts : List String)
    (index : Nat) : dialect.fill (prependText s texts) index = s ++ dialect.fill texts index := by
  cases texts with
  | nil => simp [prependText, fill]
  | cons first rest =>
      cases rest with
      | nil => rfl
      | cons next later => simp only [prependText, fill, String.append_assoc]

namespace Fragment

/-- What stands before, between and after the marks, where each mark ends what is written
around it. -/
def texts : Fragment → List String
  | [] => [""]
  | .text s :: rest => prependText s (texts rest)
  | .bound _ around :: rest => around "" :: texts rest

theorem length_texts (fragment : Fragment) :
    fragment.texts.length = fragment.values.length + 1 := by
  induction fragment with
  | nil => rfl
  | cons piece rest ih =>
      cases piece with
      | text s =>
          rw [texts, values, ← ih]
          cases htexts : texts rest with
          | nil => rw [htexts] at ih; cases ih
          | cons first others => rfl
      | bound value around => exact congrArg (· + 1) ih

theorem texts_rebind {r : Rebinding} (fragment : Fragment) :
    (fragment.rebind r).texts = fragment.texts := by
  induction fragment with
  | nil => rfl
  | cons piece rest ih =>
      cases piece with
      | text s => exact congrArg (prependText s) ih
      | bound value around => exact congrArg (List.cons (around "")) ih

end Fragment

/-!
# Writing

Each value takes the next mark. In a dialect where the mark ends the test
against a regular expression, the whole text is the texts of the fragment filled
with marks.
-/

/-- A regular expression is tested by an operator between the column and the mark. -/
def Dialect.MarksLast (dialect : Dialect) : Prop :=
  ∀ column mark : String, dialect.regexMatch column mark = dialect.regexMatch column "" ++ mark

theorem Fragment.Binds.sql_write {dialect : Dialect} (hmarks : dialect.MarksLast)
    {fragment : Fragment} {values : List Value} (h : fragment.Binds dialect values)
    (bindings : Bindings) :
    (fragment.write dialect bindings).fst = dialect.fill fragment.texts bindings.index := by
  -- A mark is followed by the texts of the rest, of which there is at least one.
  have hmark : ∀ (text mark : String) (rest : Fragment) (index : Nat),
      mark = dialect.placeholder (index + 1) →
      text ++ mark ++ dialect.fill rest.texts (index + 1) =
        dialect.fill (text :: rest.texts) index := by
    intro text mark rest index heq
    have hlength := rest.length_texts
    cases htexts : rest.texts with
    | nil => rw [htexts] at hlength; cases hlength
    | cons next later => rw [Dialect.fill, heq]
  induction h generalizing bindings with
  | nil => rfl
  | text s _ ih =>
      exact (congrArg (s ++ ·) (ih bindings)).trans (dialect.fill_prependText s _ _).symm
  | @value rest values v _ ih =>
      have hrest := ih (bindings.bind v)
      show dialect.placeholder _ ++ (write dialect rest (bindings.bind v)).fst = _
      rw [hrest, texts, ← hmark _ _ rest bindings.index rfl]
      simp [Bindings.bind]
  | @pattern rest values v column _ ih =>
      have hrest := ih (bindings.bind v)
      show dialect.regexMatch column (dialect.placeholder _) ++
        (write dialect rest (bindings.bind v)).fst = _
      rw [hrest, hmarks, texts, ← hmark _ _ rest bindings.index rfl]
      rfl

/-!
# The dialects
-/

/-- The dialects that come with the library. -/
def Dialect.builtIn : List Dialect :=
  [.postgres, .mysql, .sqlite]

theorem Dialect.marksLast_of_mem_builtIn {dialect : Dialect} (h : dialect ∈ Dialect.builtIn) :
    dialect.MarksLast := by
  intro column mark
  simp only [builtIn, List.mem_cons, List.not_mem_nil, or_false] at h
  rcases h with hpostgres | hmysql | hsqlite
  · rw [hpostgres]
    simp [postgres]
  · rw [hmysql]
    simp [mysql]
  · rw [hsqlite]
    simp [sqlite]

/-!
# Written queries
-/

/-- After any bindings, the fragment is written as the texts with the next marks between them, and
each mark stands for the next of the values, announced as text where it has no type. -/
def Fragment.IsWrittenAs (fragment : Fragment) (dialect : Dialect) (texts : List String)
    (values : List Value) : Prop :=
  texts.length = values.length + 1 ∧ ∀ bindings : Bindings,
    fragment.write dialect bindings =
      (dialect.fill texts bindings.index,
        { index := bindings.index + values.length
          values := bindings.values ++ values
          types := bindings.types ++ values.map fun value => value.sqlType?.getD .varchar })

theorem Fragment.Binds.isWrittenAs {dialect : Dialect} (hmarks : dialect.MarksLast)
    {fragment : Fragment} {values : List Value} (h : fragment.Binds dialect values) :
    fragment.IsWrittenAs dialect fragment.texts values := by
  refine ⟨?_, ?_⟩
  · rw [fragment.length_texts, h.values_eq]
  · intro bindings
    have hbindings := fragment.bindings_write dialect bindings
    rw [h.values_eq] at hbindings
    exact Prod.ext (h.sql_write hmarks bindings) hbindings

/-- Whatever is rendered in a way that replacing the values first or last comes to the same is
written with the same texts around other values. -/
theorem Fragment.exists_texts {α : Type} {dialect : Dialect} (hmarks : dialect.MarksLast)
    {render : α → Fragment} {blank : α → α} {values : α → List Value}
    (hblank : ∀ item : α, render (blank item) = (render item).rebind .blank)
    (hbinds : ∀ item : α, (render item).Binds dialect (values item)) (item : α) :
    ∃ texts : List String, ∀ other : α, blank other = blank item →
      (render other).IsWrittenAs dialect texts (values other) := by
  refine ⟨(render item).texts, ?_⟩
  intro other hsame
  have htexts : (render other).texts = (render item).texts := by
    rw [← texts_rebind (r := .blank) (render other), ← hblank, hsame, hblank, texts_rebind]
  rw [← htexts]
  exact (hbinds other).isWrittenAs hmarks

/-- The texts are the same for all queries that differ in what they bind only. -/
theorem render_isWrittenAs {dialect : Dialect} (hdialect : dialect ∈ Dialect.builtIn)
    (layout : Layout) :
    (∀ condition : Condition, ∃ texts : List String, ∀ other : Condition,
      other.rebind .blank = condition.rebind .blank →
        (other.render { dialect := dialect, layout := layout }).IsWrittenAs dialect texts
          other.boundValues) ∧
    (∀ query : Select, ∃ texts : List String, ∀ other : Select,
      other.rebind .blank = query.rebind .blank →
        (other.render { dialect := dialect, layout := layout }).IsWrittenAs dialect texts
          other.boundValues) ∧
    (∀ filter : Filter, ∃ texts : List String, ∀ other : Filter,
      other.rebind .blank = filter.rebind .blank →
        (other.render { dialect := dialect, layout := layout }).IsWrittenAs dialect texts
          other.boundValues) := by
  have hmarks := Dialect.marksLast_of_mem_builtIn hdialect
  let spelling : Spelling := { dialect := dialect, layout := layout }
  refine ⟨?_, ?_, ?_⟩
  · exact Fragment.exists_texts hmarks (Condition.render_rebind spelling .blank)
      (Condition.render_binds spelling)
  · exact Fragment.exists_texts hmarks (Select.render_rebind spelling .blank)
      (Select.render_binds spelling)
  · exact Fragment.exists_texts hmarks (Filter.render_rebind spelling .blank)
      (Filter.render_binds spelling)

example :
    ((Condition.or [.regex (Alias.root.column "name") "^A", .isNull (Alias.root.column "name")]).render
        { dialect := .postgres, layout := .standard }).write .postgres
        { index := 4, values := [], types := [] } =
      ("(t0.name ~ $5 OR t0.name IS NULL)",
        { index := 5, values := [.string "^A"], types := [.varchar] }) :=
  rfl

/-- The people with the tag whose identity does not match or is not missing. -/
def People.taggedLike (tag pattern : String) : Select :=
  let tagRow : Alias := { index := 1 }
  let identity := Alias.root.column "entity_identity"
  let everyone := Select.ofTypes .entityKey .standard [1]
  let unknown := { everyone with conditions := everyone.conditions ++ [.isNull identity] }
  { everyone with
    joins :=
      [{ source := .root
         target := tagRow
         table := "tags"
         kind := .inner
         conditions :=
          [.columnEq (tagRow.column "entity_pk") (Alias.root.column "entity_pk"),
            .compare (tagRow.column "value") .eq (.string tag)] }]
    conditions :=
      [.or
        [.not (.regex identity pattern),
          .inQuery (Alias.root.column "entity_pk")
            (.compound .except [.select everyone, .select unknown])]] }

theorem tagged_people_share_texts :
    Dialect.postgres ∈ Dialect.builtIn ∧
      (People.taggedLike "blue" "^B").rebind .blank = (People.taggedLike "red" "^A").rebind .blank ∧
      ∃ texts : List String, texts.length = 3 ∧
        ((People.taggedLike "red" "^A").render
            { dialect := .postgres, layout := .standard }).IsWrittenAs .postgres texts
          [.string "red", .string "^A"] ∧
        ((People.taggedLike "blue" "^B").render
            { dialect := .postgres, layout := .standard }).IsWrittenAs .postgres texts
          [.string "blue", .string "^B"] := by
  have hdialect : Dialect.postgres ∈ Dialect.builtIn := List.mem_cons_self
  refine ⟨hdialect, rfl, ?_⟩
  rcases (render_isWrittenAs hdialect .standard).right.left (People.taggedLike "red" "^A") with
    ⟨texts, htexts⟩
  have hred := htexts (People.taggedLike "red" "^A") rfl
  exact ⟨texts, hred.left, hred, htexts (People.taggedLike "blue" "^B") rfl⟩

end SlotQuery
