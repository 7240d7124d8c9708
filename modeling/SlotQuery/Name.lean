/-!
# Qualified names

A slot is named by the type that declares it and the member within that type.
The written form is `Type:member`; the last colon separates the two parts, so
a type name may hold colons and a member may not.
-/

namespace SlotQuery

structure QualifiedName where
  typeName : String
  member : String
deriving DecidableEq, Repr, Inhabited

namespace QualifiedName

def text (name : QualifiedName) : String :=
  name.typeName ++ ":" ++ name.member

/-!
# Reading a name

The text is cut at its last colon. A text without a colon, or with nothing on
one side of the last one, names no slot.
-/

/-- Cuts a list at the last occurrence of a separator, which belongs to neither part. -/
def splitAtLast (separator : Char) : List Char → Option (List Char × List Char)
  | [] => none
  | c :: rest =>
      match splitAtLast separator rest with
      | some (before, after) => some (c :: before, after)
      | none => if c = separator then some ([], rest) else none

def parse? (text : String) : Option QualifiedName :=
  match splitAtLast ':' text.toList with
  | some (typeName, member) =>
      if typeName.isEmpty || member.isEmpty then
        none
      else
        some { typeName := String.ofList typeName, member := String.ofList member }
  | none => none

/-- The complaint about a text that names no slot. -/
def refusal (text : String) : String :=
  "expected 'Type:member', got '" ++ text ++ "'"

end QualifiedName

end SlotQuery
