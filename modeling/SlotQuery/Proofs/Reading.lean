import SlotQuery.Proofs.Membership
import SlotQuery.Proofs.PathTest

/-!
# Reading predicates

A predicate is read off the tables directly: a path leads to one value or to
none, a composite is compared field by field, a collection is searched, and the
combinators are those of truth values. The reading of a path or of a field is
only fair where there is one row to read.
-/

namespace SlotQuery

variable {engine : Engine} {db : Database engine} {ctx : Context}

/-!
# Readings
-/

mutual

/-- The row read as a value: nothing for null, and a composite by its fields. -/
def Row.equals (db : Database engine) (ctx : Context) (row : Row engine) : Value → Bool
  | .null => (row ctx.layout.valueColumn).isNone
  | .composite fields => row.fieldsEqual db ctx fields
  | .bool b => (row ctx.layout.valueColumn).any (engine.test .eq (.bool b))
  | .int n => (row ctx.layout.valueColumn).any (engine.test .eq (.int n))
  | .float x => (row ctx.layout.valueColumn).any (engine.test .eq (.float x))
  | .string s => (row ctx.layout.valueColumn).any (engine.test .eq (.string s))
  | .instant t => (row ctx.layout.valueColumn).any (engine.test .eq (.instant t))
  | .list _ => false

def Row.fieldsEqual (db : Database engine) (ctx : Context) (row : Row engine) :
    List (QualifiedName × Value) → Bool
  | [] => true
  | (name, value) :: rest =>
      (db.nested ctx row name).equals db ctx value && row.fieldsEqual db ctx rest

end

/-- An entity is recognised by its identity, a row by what it holds. -/
def Arrival.equals (db : Database engine) (ctx : Context) (arrival : Arrival engine)
    (value : Value) : Bool :=
  match arrival.target with
  | some entity => (entity ctx.layout.entityIdentityColumn).any (engine.test .eq value)
  | none => arrival.slot.equals db ctx value

/-- What the path leads to, if it leads anywhere. -/
def Database.arrivalAt (db : Database engine) (ctx : Context) (pathEnd : PathEnd) (path : Path)
    (key : engine.Cell) : Option (Arrival engine) :=
  (db.reach ctx .inner pathEnd path key).head?

def Database.valueAt (db : Database engine) (ctx : Context) (pathEnd : PathEnd) (path : Path)
    (key : engine.Cell) : Option engine.Cell :=
  (db.arrivalAt ctx pathEnd path key).bind (Arrival.value ctx.layout)

/-- Whether the collection at the path holds the value. -/
def Database.holdsElement (db : Database engine) (ctx : Context) (path : Path)
    (key : engine.Cell) (value : Value) : Bool :=
  (db.elements ctx path key).any fun element => element.equals db ctx value

namespace Predicate

/-- A comparison with null asks whether there is a value, one with a composite looks at its
fields, and a scalar has to be compared with a value that is there. -/
def comparisonHolds (db : Database engine) (ctx : Context) (key : engine.Cell)
    (op : ComparisonOp) (path : Path) (value : Value) : Bool :=
  match value with
  | .null => (db.valueAt ctx .slot path key).isNone == (op == .eq)
  | .composite fields =>
      (db.arrivalAt ctx .slot path key).any (fun arrival =>
        arrival.slot.equals db ctx (.composite fields)) == (op == .eq)
  | scalar => (db.valueAt ctx .entity path key).any (engine.test op scalar)

mutual

def holds (db : Database engine) (ctx : Context) (key : engine.Cell) : Predicate → Bool
  | .and children => allHold db ctx key children
  | .or children => anyHolds db ctx key children
  | .not operand => !holds db ctx key operand
  | .comparison op path value => comparisonHolds db ctx key op path value
  | .isMatch path regex => (db.valueAt ctx .entity path key).any (engine.isMatch regex)
  | .contains path value => db.holdsElement ctx path key value
  | .containsAll path values => values.all (db.holdsElement ctx path key)
  | .propertyNull path | .associationNull path => (db.valueAt ctx .slot path key).isNone
  | .propertyNotNull path | .associationNotNull path => (db.valueAt ctx .slot path key).isSome
  | .manyAssociationContains path identity => db.holdsElement ctx path key (.string identity)

def allHold (db : Database engine) (ctx : Context) (key : engine.Cell) : List Predicate → Bool
  | [] => true
  | child :: rest => holds db ctx key child && allHold db ctx key rest

def anyHolds (db : Database engine) (ctx : Context) (key : engine.Cell) : List Predicate → Bool
  | [] => false
  | child :: rest => holds db ctx key child || anyHolds db ctx key rest

end

end Predicate

/-!
# One row to read

The tables have one row to read where no place that is reached has two rows in
the slot that is read next, and no two entities have the same key.
-/

/-- No two entities have the same key. -/
def Database.HasUniqueKeys (db : Database engine) (layout : Layout) : Prop :=
  (db.rows layout.entityTable).Pairwise fun left right =>
    (engine.equal (left layout.entityKeyColumn) (right layout.entityKeyColumn)).isYes = false

/-- Each place along the steps has at most one row in the slot of the next step. -/
def Database.SingleAlong (db : Database engine) (ctx : Context) :
    List PathStep → Place engine → Prop
  | [], _ => True
  | step :: rest, place =>
      (db.slotRows ctx place step.name).length ≤ 1 ∧
        ∀ slot ∈ db.slotRows ctx place step.name,
          if step.isAssociation then
            ∀ entity ∈ db.targets ctx.layout slot,
              SingleAlong db ctx rest (.entity (entity ctx.layout.entityKeyColumn))
          else
            SingleAlong db ctx rest (.row slot)

mutual

/-- Each field of the value has at most one row inside the row around it. -/
def Row.SingleIn (db : Database engine) (ctx : Context) (row : Row engine) : Value → Prop
  | .composite fields => row.FieldsSingleIn db ctx fields
  | .null | .bool _ | .int _ | .float _ | .string _ | .instant _ | .list _ => True

def Row.FieldsSingleIn (db : Database engine) (ctx : Context) (row : Row engine) :
    List (QualifiedName × Value) → Prop
  | [] => True
  | (name, value) :: rest =>
      (db.slotRows ctx (.row row) name).length ≤ 1 ∧
        (db.nested ctx row name).SingleIn db ctx value ∧ row.FieldsSingleIn db ctx rest

end

namespace Predicate

mutual

/-- Every path and every field that the predicate reads has one row to read, for the entity with
the key. Collections that are searched may have any number of rows. -/
def SingleValued (db : Database engine) (ctx : Context) (key : engine.Cell) : Predicate → Prop
  | .and children | .or children => ChildrenSingleValued db ctx key children
  | .not operand => SingleValued db ctx key operand
  | .comparison _ path value =>
      db.SingleAlong ctx path.steps (.entity (some key)) ∧
        ∀ arrival ∈ db.reach ctx .inner .slot path key, arrival.slot.SingleIn db ctx value
  | .isMatch path _ | .propertyNull path | .propertyNotNull path | .associationNull path
  | .associationNotNull path => db.SingleAlong ctx path.steps (.entity (some key))
  | .contains path value =>
      ∀ element ∈ db.elements ctx path key, element.slot.SingleIn db ctx value
  | .containsAll _ _ | .manyAssociationContains _ _ => True

def ChildrenSingleValued (db : Database engine) (ctx : Context) (key : engine.Cell) :
    List Predicate → Prop
  | [] => True
  | child :: rest => SingleValued db ctx key child ∧ ChildrenSingleValued db ctx key rest

end

mutual

/-- Whether no part of the predicate looks for all of several elements. -/
def avoidsContainsAll : Predicate → Bool
  | .and children | .or children => childrenAvoidContainsAll children
  | .not operand => avoidsContainsAll operand
  | .containsAll _ _ => false
  | .comparison _ _ _ | .isMatch _ _ | .contains _ _ | .propertyNull _ | .propertyNotNull _
  | .associationNull _ | .associationNotNull _ | .manyAssociationContains _ _ => true

def childrenAvoidContainsAll : List Predicate → Bool
  | [] => true
  | child :: rest => avoidsContainsAll child && childrenAvoidContainsAll rest

end

end Predicate

/-!
# Walks with one row

An outer walk then leads to exactly one place, and to a value exactly where the
inner walk does.
-/

theorem Database.HasUniqueKeys.targets_length {layout : Layout} (h : db.HasUniqueKeys layout)
    (slot : Row engine) : (db.targets layout slot).length ≤ 1 := by
  have hpairwise : (db.targets layout slot).Pairwise fun left right =>
      (engine.equal (left layout.entityKeyColumn) (right layout.entityKeyColumn)).isYes = false :=
    h.filter _
  cases hfound : db.targets layout slot with
  | nil => exact Nat.zero_le _
  | cons first rest =>
      cases rest with
      | nil => exact Nat.le_refl _
      | cons second others =>
          -- Both refer to the key in the slot, so their keys are equal.
          have hfirst : first ∈ db.targets layout slot := by simp [hfound]
          have hsecond : second ∈ db.targets layout slot := by simp [hfound]
          have hequal := Engine.equal_trans (List.mem_filter.mp hfirst).right
            (Engine.equal_symm (List.mem_filter.mp hsecond).right)
          rw [hfound] at hpairwise
          rw [List.rel_of_pairwise_cons hpairwise List.mem_cons_self] at hequal
          cases hequal

theorem JoinKind.left_continues_eq_singleton {found : List (Row engine)}
    (h : found.length ≤ 1) :
    ∃ row ∈ JoinKind.left.continues found, JoinKind.left.continues found = [row] := by
  cases found with
  | nil => exact ⟨Row.missing, List.mem_cons_self, rfl⟩
  | cons first rest =>
      cases rest with
      | nil => exact ⟨first, List.mem_cons_self, rfl⟩
      | cons second others => simp at h

theorem Place.IsLost.singleAlong {place : Place engine} (h : place.IsLost)
    (steps : List PathStep) : db.SingleAlong ctx steps place := by
  cases steps with
  | nil => trivial
  | cons step rest =>
      rw [Database.SingleAlong, h.slotRows_eq_nil]
      exact ⟨Nat.zero_le _, by simp⟩

/-- An outer walk goes on from a row that was found, or from one that is missing. -/
theorem Database.SingleAlong.of_continues_row {steps : List PathStep}
    {found : List (Row engine)} {slot : Row engine}
    (hslot : slot ∈ JoinKind.left.continues found)
    (h : ∀ slot ∈ found, db.SingleAlong ctx steps (.row slot)) :
    db.SingleAlong ctx steps (.row slot) := by
  rcases JoinKind.mem_left_continues hslot with hfound | hmissing
  · exact h slot hfound
  · rw [hmissing]
    exact Place.IsLost.row.singleAlong steps

theorem Database.SingleAlong.of_continues_target {steps : List PathStep}
    {found : List (Row engine)} {slot entity : Row engine}
    (hslot : slot ∈ JoinKind.left.continues found)
    (hentity : entity ∈ JoinKind.left.continues (db.targets ctx.layout slot))
    (h : ∀ slot ∈ found, ∀ entity ∈ db.targets ctx.layout slot,
      db.SingleAlong ctx steps (.entity (entity ctx.layout.entityKeyColumn))) :
    db.SingleAlong ctx steps (.entity (entity ctx.layout.entityKeyColumn)) := by
  rcases JoinKind.mem_left_continues hentity with htarget | hmissing
  · rcases JoinKind.mem_left_continues hslot with hfound | hmissing
    · exact h slot hfound entity htarget
    · rw [hmissing, targets_missing] at htarget
      cases htarget
  · rw [hmissing]
    exact Place.IsLost.entity.singleAlong steps

theorem Database.SingleAlong.arrivals_eq_singleton {steps : List PathStep}
    {place : Place engine} (hkeys : db.HasUniqueKeys ctx.layout)
    (h : db.SingleAlong ctx steps place) (pathEnd : PathEnd) (last : Arrival engine) :
    ∃ arrival, db.arrivals ctx .left pathEnd steps place last = [arrival] := by
  induction steps generalizing place last with
  | nil => exact ⟨last, rfl⟩
  | cons step rest ih =>
      rcases h with ⟨hlength, hrows⟩
      rcases JoinKind.left_continues_eq_singleton hlength with ⟨slot, hmem, hslot⟩
      simp only [arrivals, hslot, List.flatMap_cons, List.flatMap_nil, List.append_nil]
      by_cases hassociation : step.isAssociation = true
      · simp only [if_pos hassociation] at hrows ⊢
        split
        · exact ⟨_, rfl⟩
        · rcases JoinKind.left_continues_eq_singleton (hkeys.targets_length slot) with
            ⟨entity, hmem', hentity⟩
          simp only [hentity, List.flatMap_cons, List.flatMap_nil, List.append_nil]
          exact ih (of_continues_target hmem hmem' hrows) _
      · simp only [if_neg hassociation] at hrows ⊢
        exact ih (of_continues_row hmem hrows) _

section

variable {pathEnd : PathEnd} {path : Path} {key : engine.Cell}

/-- What an outer walk finds is what the path leads to. -/
theorem Database.SingleAlong.value_eq (hkeys : db.HasUniqueKeys ctx.layout)
    (h : db.SingleAlong ctx path.steps (.entity (some key))) {arrival : Arrival engine}
    (harrival : arrival ∈ db.reach ctx .left pathEnd path key) :
    arrival.value ctx.layout = db.valueAt ctx pathEnd path key := by
  rcases h.arrivals_eq_singleton hkeys pathEnd
    { slot := Row.missing, target := none } with ⟨only, honly⟩
  have hunique : ∀ other ∈ db.reach ctx .left pathEnd path key, other = only := by
    intro other hother
    rw [reach, honly] at hother
    exact List.mem_singleton.mp hother
  unfold valueAt arrivalAt
  cases hinner : db.reach ctx .inner pathEnd path key with
  | nil =>
      cases hvalue : arrival.value ctx.layout with
      | none => rfl
      | some cell =>
          have hmem := mem_inner_of_mem_left harrival (by rw [hvalue]; simp)
          rw [← reach, hinner] at hmem
          cases hmem
  | cons first rest =>
      have hfirst : first ∈ db.reach ctx .left pathEnd path key := by
        apply mem_left_of_mem_inner
        rw [← reach, hinner]
        exact List.mem_cons_self
      rw [hunique arrival harrival, hunique first hfirst]
      rfl

theorem Database.SingleAlong.exists_reach_iff (hkeys : db.HasUniqueKeys ctx.layout)
    (h : db.SingleAlong ctx path.steps (.entity (some key))) {holds : Arrival engine → Prop} :
    (∃ arrival ∈ db.reach ctx .inner pathEnd path key, holds arrival) ↔
      ∃ arrival, db.arrivalAt ctx pathEnd path key = some arrival ∧ holds arrival := by
  rcases h.arrivals_eq_singleton hkeys pathEnd
    { slot := Row.missing, target := none } with ⟨only, honly⟩
  have hunique : ∀ other ∈ db.reach ctx .inner pathEnd path key, other = only := by
    intro other hother
    have hleft := mem_left_of_mem_inner hother
    rw [honly] at hleft
    exact List.mem_singleton.mp hleft
  unfold arrivalAt
  cases hinner : db.reach ctx .inner pathEnd path key with
  | nil => simp
  | cons first rest =>
      rw [hinner] at hunique
      constructor
      · intro h
        rcases h with ⟨arrival, harrival, hholds⟩
        rw [hunique arrival harrival, ← hunique first List.mem_cons_self] at hholds
        exact ⟨first, rfl, hholds⟩
      · intro h
        rcases h with ⟨arrival, harrival, hholds⟩
        cases harrival
        exact ⟨first, List.mem_cons_self, hholds⟩

/-- With one value to read there is one answer. -/
theorem PathTest.answers_iff {test : PathTest engine} (hkeys : db.HasUniqueKeys ctx.layout)
    (h : db.SingleAlong ctx test.path.steps (.entity (some key))) (answer : Bool) :
    test.Answers db ctx key answer ↔
      test.passes (db.valueAt ctx test.pathEnd test.path key) = answer := by
  constructor
  · intro h'
    rcases h' with ⟨arrival, harrival, hpasses⟩
    rw [← h.value_eq hkeys harrival]
    exact hpasses
  · intro hpasses
    rcases List.exists_mem_of_ne_nil _ (Database.arrivals_left_ne_nil test.path.steps
      (.entity (some key)) { slot := Row.missing, target := none }) with ⟨arrival, harrival⟩
    refine ⟨arrival, harrival, ?_⟩
    rw [h.value_eq hkeys harrival]
    exact hpasses

end

/-!
# Values with one row for each field

Any choice of rows is then the first row wherever the value looks.
-/

mutual

theorem Choice.Fits.meets_eq {choice : Choice engine} {around : Row engine}
    (hfits : choice.Fits db ctx around) {place : List QualifiedName} (value : Value)
    (h : (choice place).SingleIn db ctx value) :
    choice.meets ctx.layout place value = (choice place).equals db ctx value := by
  cases value with
  | composite fields =>
      rw [Choice.meets, Row.equals]
      exact hfits.meetsFields_eq fields h
  | null | bool b | int n | float x | string s | instant t | list items =>
      rw [Choice.meets, Row.equals]

theorem Choice.Fits.meetsFields_eq {choice : Choice engine} {around : Row engine}
    (hfits : choice.Fits db ctx around) {place : List QualifiedName}
    (fields : List (QualifiedName × Value)) (h : (choice place).FieldsSingleIn db ctx fields) :
    choice.meetsFields ctx.layout place fields = (choice place).fieldsEqual db ctx fields := by
  cases fields with
  | nil => rfl
  | cons field rest =>
      cases field with
      | mk name value =>
          rcases h with ⟨hlength, hvalue, hrest⟩
          have hnested : choice (name :: place) = db.nested ctx (choice place) name := by
            rcases JoinKind.left_continues_eq_singleton hlength with ⟨row, _, hrow⟩
            have hchosen := hfits.nested name place
            have hfirst := db.nested_mem ctx (choice place) name
            rw [hrow, List.mem_singleton] at hchosen hfirst
            rw [hchosen, hfirst]
          rw [← hnested] at hvalue
          rw [Choice.meetsFields, Row.fieldsEqual, hfits.meets_eq value hvalue,
            hfits.meetsFields_eq rest hrest, hnested]

end

theorem Row.matches_iff_equals {row : Row engine} {value : Value}
    (h : row.SingleIn db ctx value) :
    row.Matches db ctx value ↔ row.equals db ctx value = true := by
  have hmeets : ∀ choice : Choice engine, choice.Fits db ctx row →
      choice.meets ctx.layout [] value = row.equals db ctx value := by
    intro choice hfits
    have hrow := hfits.outermost
    rw [← hrow] at h ⊢
    exact hfits.meets_eq value h
  constructor
  · intro hmatches
    rcases hmatches with ⟨choice, hfits, hholds⟩
    rw [← hmeets choice hfits]
    exact hholds
  · intro hequals
    refine ⟨Choice.first db ctx row, Choice.first_fits db ctx row, ?_⟩
    rw [hmeets _ (Choice.first_fits db ctx row)]
    exact hequals

theorem Arrival.matches_iff_equals {arrival : Arrival engine} {value : Value}
    (h : arrival.slot.SingleIn db ctx value) :
    arrival.Matches db ctx value ↔ arrival.equals db ctx value = true := by
  cases arrival with
  | mk slot target =>
      cases target with
      | none => exact Row.matches_iff_equals h
      | some entity => exact Iff.rfl

end SlotQuery
