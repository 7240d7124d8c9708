import SlotQuery.Path

/-!
# Compile errors

Why a request has no statement. Each cause carries what its message shows and
nothing more.
-/

namespace SlotQuery

inductive CompileError where
  /-- The predicate cannot be expressed for this kind of value or dialect. -/
  | unsupported (predicate reason : String)
  | missingSlot (name : QualifiedName)
  | invalidContainment (path : Path) (reason : String)
  /-- A containment asks about a slot with a single value. -/
  | notACollection (name : QualifiedName)
  /-- No concrete type is assignable to the requested one. -/
  | unknownResultType (name : String)
  | nestingTooDeep (limit : Nat)
deriving DecidableEq, Repr, Inhabited

namespace CompileError

def message : CompileError → String
  | unsupported predicate reason => "Unsupported predicate '" ++ predicate ++ "': " ++ reason
  | missingSlot name => "No slot metadata registered for '" ++ name.text ++ "'"
  | invalidContainment path reason =>
      "Invalid containment value for '" ++ path.text ++ "': " ++ reason
  | notACollection name => "'" ++ name.text ++ "' is not a collection or many-association"
  | unknownResultType name => "Unknown result type: '" ++ name ++ "'"
  | nestingTooDeep limit => "Value nesting exceeds maximum depth of " ++ toString limit

end CompileError

/-- Goes on only where the test holds. -/
def ensure (holds : Bool) (error : CompileError) : Except CompileError Unit :=
  if holds then .ok () else .error error

end SlotQuery
