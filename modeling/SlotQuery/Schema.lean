import SlotQuery.Name

/-!
# Schemas

What the storage layer knows: entity types with their direct supertypes, and
for each slot the table that holds its rows. Types are a list, in which a name
may occur again; a slot has one entry, and the last one given counts.
-/

namespace SlotQuery

structure SlotInfo where
  table : String
  /-- Zero for a slot with one value, otherwise how deep its collections nest. -/
  collectionDepth : UInt32
deriving DecidableEq, Repr, Inhabited

def SlotInfo.isCollection (info : SlotInfo) : Bool :=
  info.collectionDepth != 0

structure EntityType where
  name : String
  /-- The number that stands for the type in the type membership table. -/
  id : Int64
  supertypes : List String
  /-- Abstract types own no rows. -/
  isAbstract : Bool
deriving DecidableEq, Repr, Inhabited

structure Schema where
  types : List EntityType
  slots : List (QualifiedName × SlotInfo)
deriving Repr, Inhabited

namespace Schema

def empty : Schema :=
  { types := [], slots := [] }

def addType (schema : Schema) (type : EntityType) : Schema :=
  { schema with types := schema.types ++ [type] }

/-- Adds a concrete type. -/
def addEntity (schema : Schema) (name : String) (id : Int64) (supertypes : List String) : Schema :=
  schema.addType { name := name, id := id, supertypes := supertypes, isAbstract := false }

/-!
# Slots

Entries keep their first position when they are replaced, so the number of
entries is the number of names.
-/

def putSlot (name : QualifiedName) (info : SlotInfo) :
    List (QualifiedName × SlotInfo) → List (QualifiedName × SlotInfo)
  | [] => [(name, info)]
  | (known, old) :: rest =>
      if known = name then
        (name, info) :: rest
      else
        (known, old) :: putSlot name info rest

theorem lookup_putSlot (name other : QualifiedName) (info : SlotInfo)
    (slots : List (QualifiedName × SlotInfo)) :
    (putSlot name info slots).lookup other =
      if other = name then some info else slots.lookup other := by
  induction slots with
  | nil =>
      by_cases h : other = name
      · simp [putSlot, h]
      · have differs : (other == name) = false := by simp [h]
        simp [putSlot, List.lookup_cons, h, differs]
  | cons head rest ih =>
      obtain ⟨known, old⟩ := head
      by_cases same : known = name
      · by_cases h : other = name
        · simp [putSlot, same, h]
        · have differs : (other == name) = false := by simp [h]
          simp [putSlot, List.lookup_cons, same, h, differs]
      · by_cases found : other = known
        · subst found
          simp [putSlot, same]
        · have differs : (other == known) = false := by simp [found]
          simp [putSlot, List.lookup_cons, same, differs, ih]

def addSlot (schema : Schema) (name : QualifiedName) (info : SlotInfo) : Schema :=
  { schema with slots := putSlot name info schema.slots }

def slot? (schema : Schema) (name : QualifiedName) : Option SlotInfo :=
  schema.slots.lookup name

def slotCount (schema : Schema) : Nat :=
  schema.slots.length

/-!
# Assignability

A type is assignable to each type that the chain of supertypes leads to. The
first entry with a name gives its supertypes, and names without an entry have
none. Types are followed once each, so cycles do no harm.
-/

def supertypesOf (types : List EntityType) (name : String) : List String :=
  match types.find? fun type => type.name == name with
  | some type => type.supertypes
  | none => []

/-- How many entries have names that were not followed yet. -/
def unfollowed (types : List EntityType) (followed : List String) : Nat :=
  types.countP fun type => !followed.contains type.name

theorem unfollowed_cons_le (types : List EntityType) (followed : List String) (name : String) :
    unfollowed types (name :: followed) ≤ unfollowed types followed := by
  apply List.countP_mono_left
  intro type _ h
  simp only [List.contains_cons, Bool.not_or, Bool.and_eq_true] at h
  exact h.right

theorem unfollowed_cons_lt {types : List EntityType} {followed : List String} {type : EntityType}
    (declared : type ∈ types) (fresh : type.name ∉ followed) :
    unfollowed types (type.name :: followed) < unfollowed types followed := by
  induction types with
  | nil => cases declared
  | cons head rest ih =>
      have least := unfollowed_cons_le rest followed type.name
      simp only [unfollowed, List.countP_cons] at ih ⊢
      cases declared with
      | head =>
          have stale : (!(type.name :: followed).contains type.name) = false := by simp
          have new : (!followed.contains type.name) = true := by simp [fresh]
          simp only [unfollowed] at least
          simp only [stale, new, Bool.false_eq_true, if_false, if_true]
          omega
      | tail _ later =>
          have smaller := ih later
          by_cases same : (!(type.name :: followed).contains head.name) = true
          · have kept : (!followed.contains head.name) = true := by
              simp only [List.contains_cons, Bool.not_or, Bool.and_eq_true] at same
              exact same.right
            simp only [same, kept, if_true]
            omega
          · simp only [same, Bool.false_eq_true, if_false]
            omega

theorem supertypesOf_eq_nil_or_declared (types : List EntityType) (name : String) :
    supertypesOf types name = [] ∨ ∃ type ∈ types, type.name = name := by
  unfold supertypesOf
  cases found : types.find? fun type => type.name == name with
  | none => exact Or.inl rfl
  | some type =>
      refine Or.inr ⟨type, List.mem_of_find?_eq_some found, ?_⟩
      have holds := List.find?_some found
      simpa using holds

/-- Whether the target is met when the pending names are followed upwards. -/
def reaches (types : List EntityType) (target : String) (followed pending : List String) : Bool :=
  match pending with
  | [] => false
  | name :: rest =>
      if name = target then
        true
      else if name ∈ followed then
        reaches types target followed rest
      else
        reaches types target (name :: followed) (supertypesOf types name ++ rest)
termination_by (unfollowed types followed, pending.length)
decreasing_by
  · exact Prod.Lex.right _ (by simp)
  · rename_i _ fresh
    cases supertypesOf_eq_nil_or_declared types name with
    | inl bare =>
        have least := unfollowed_cons_le types followed name
        rw [bare]
        cases Nat.lt_or_eq_of_le least with
        | inl less => exact Prod.Lex.left _ _ less
        | inr same => rw [same]; exact Prod.Lex.right _ (by simp)
    | inr declared =>
        obtain ⟨type, member, named⟩ := declared
        subst named
        exact Prod.Lex.left _ _ (unfollowed_cons_lt member fresh)

def isAssignable (schema : Schema) (name target : String) : Bool :=
  reaches schema.types target [] [name]

/-- The ids of the concrete types that are assignable to the target, as declared. -/
def assignableTypeIds (schema : Schema) (target : String) : List Int64 :=
  (schema.types.filter fun type =>
    !type.isAbstract && schema.isAssignable type.name target).map EntityType.id

end Schema

end SlotQuery
