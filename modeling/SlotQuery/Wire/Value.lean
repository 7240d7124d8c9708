import SlotQuery.CollectionPath
import SlotQuery.Number.Style
import SlotQuery.Path
import SlotQuery.Value
import SlotQuery.Wire.Record

/-!
# Names, paths and values in documents

A choice is an object with one entry, whose name says which alternative it is. A
path is a record of its steps and has at least one.
-/

namespace SlotQuery

/-- An alternative with its content. -/
def Json.tagged (tag : String) (content : Json) : Json :=
  .ofEntries [(tag, content)]

/-- What was read from the first entry of an object counts only if there is no other one. -/
def onlyEntry (value : α) : List (Option String × Json) → Decoded α
  | [] => .ok value
  | _ :: _ => .error .malformed

/-!
# Names and paths
-/

namespace QualifiedName

def encode (name : QualifiedName) : Json :=
  .ofEntries [("type_name", .string name.typeName), ("member", .string name.member)]

def record : Record QualifiedName :=
  ((Record.required "type_name" Json.toText).both (Record.required "member" Json.toText)).map
    fun (typeName, member) => { typeName := typeName, member := member }

def decode (medium : Medium) (tree : Json) : Decoded QualifiedName :=
  record.decode medium tree

end QualifiedName

namespace PathStep

def encode : PathStep → Json
  | property name => .tagged "Property" name.encode
  | association name => .tagged "Association" name.encode
  | manyAssociation name => .tagged "ManyAssociation" name.encode

def make? (tag : String) : Option (QualifiedName → PathStep) :=
  if tag = "Property" then
    some property
  else if tag = "Association" then
    some association
  else if tag = "ManyAssociation" then
    some manyAssociation
  else
    none

def decode (medium : Medium) : Json → Decoded PathStep
  | .object ((some tag, content) :: rest) =>
      if medium.refusesChoice rest then
        .error .malformed
      else
        match make? tag with
        | some make => do
            let name ← QualifiedName.decode medium content
            onlyEntry (make name) rest
        | none => .error .malformed
  | _ => .error .malformed

end PathStep

namespace Path

def encode (path : Path) : Json :=
  .ofEntries [("steps", .array (path.steps.map PathStep.encode))]

def stepsRecord (medium : Medium) : Record (List PathStep) :=
  Record.required "steps" (Json.toList (PathStep.decode medium))

/-- The steps are counted when the whole record has been read. -/
def decode (medium : Medium) (tree : Json) : Decoded Path := do
  let steps ← (stepsRecord medium).decode medium tree
  match ofSteps? steps with
  | some path => return path
  | none => .error .emptyPath

end Path

/-!
# Values

Numbers are read as integers or as double precision numbers, according to the
alternative they are given under.
-/

namespace Value

/-- A number in a document, in its shortest form. -/
def encodeFloat (x : Binary64) : Json :=
  .number (NumberStyle.document.numeral x)

mutual

/-- The form of double precision numbers is left to the caller. -/
def encodeWith (float : Binary64 → Json) : Value → Json
  | null => .string "Null"
  | bool b => .tagged "Bool" (.bool b)
  | int n => .tagged "Int" (.number (.ofInt n.toInt))
  | .float x => .tagged "Float" (float x)
  | string s => .tagged "String" (.string s)
  | instant t => .tagged "Timestamp" (.string t.text)
  | list items => .tagged "List" (.array (encodeItems float items))
  | composite fields => .tagged "Composite" (.array (encodeFields float fields))

def encodeItems (float : Binary64 → Json) : List Value → List Json
  | [] => []
  | value :: rest => encodeWith float value :: encodeItems float rest

def encodeFields (float : Binary64 → Json) : List (QualifiedName × Value) → List Json
  | [] => []
  | (name, value) :: rest =>
      .ofEntries [("name", name.encode), ("value", encodeWith float value)] ::
        encodeFields float rest

end

def encode (value : Value) : Json :=
  encodeWith encodeFloat value

def decodeFloat : Json → Decoded Binary64
  | .number numeral =>
      match numeral.toBinary64? with
      | some x => .ok x
      | none => .error .malformed
  | _ => .error .malformed

def decodeInstant : Json → Decoded Instant
  | .string text =>
      match Instant.parse? text with
      | some t => .ok t
      | none => .error .malformed
  | _ => .error .malformed

mutual

def decode (medium : Medium) : Json → Decoded Value
  | .string tag => if tag = "Null" then .ok .null else .error .malformed
  | .object ((some tag, content) :: rest) =>
      if medium.refusesChoice rest then
        .error .malformed
      else do
        let value ←
          if tag = "Null" then
            content.toUnit.map fun _ => Value.null
          else if tag = "Bool" then
            content.toBool.map Value.bool
          else if tag = "Int" then
            content.toInt64.map Value.int
          else if tag = "Float" then
            (decodeFloat content).map Value.float
          else if tag = "String" then
            content.toText.map Value.string
          else if tag = "Timestamp" then
            (decodeInstant content).map Value.instant
          else if tag = "List" then
            (decodeList medium content).map Value.list
          else if tag = "Composite" then
            (decodeComposite medium content).map Value.composite
          else
            .error .malformed
        onlyEntry value rest
  | _ => .error .malformed

def decodeList (medium : Medium) : Json → Decoded (List Value)
  | .array items => decodeItems medium items
  | _ => .error .malformed

def decodeItems (medium : Medium) : List Json → Decoded (List Value)
  | [] => .ok []
  | item :: rest => do
      let value ← decode medium item
      let values ← decodeItems medium rest
      return value :: values

def decodeComposite (medium : Medium) : Json → Decoded (List (QualifiedName × Value))
  | .array items => decodeFields medium items
  | _ => .error .malformed

def decodeFields (medium : Medium) : List Json → Decoded (List (QualifiedName × Value))
  | [] => .ok []
  | item :: rest => do
      let field ← decodeField medium item
      let fields ← decodeFields medium rest
      return field :: fields

/-- One field of a composite: a record of its name and its value. -/
def decodeField (medium : Medium) : Json → Decoded (QualifiedName × Value)
  | .object entries => decodeFieldEntries medium entries none none
  | .array (name :: value :: extra) => do
      let name ← QualifiedName.decode medium name
      let value ← decode medium value
      if extra.isEmpty || medium.ignoresExtraItems then
        return (name, value)
      else
        .error .malformed
  | _ => .error .malformed

def decodeFieldEntries (medium : Medium) : List (Option String × Json) →
    Option QualifiedName → Option Value → Decoded (QualifiedName × Value)
  | [], some name, some value => .ok (name, value)
  | [], _, _ => .error .malformed
  | (none, _) :: _, _, _ => .error .malformed
  | (some key, content) :: rest, name, value =>
      if key = "name" then
        if name.isSome then
          .error .malformed
        else do
          let name ← QualifiedName.decode medium content
          decodeFieldEntries medium rest (some name) value
      else if key = "value" then
        if value.isSome then
          .error .malformed
        else do
          let value ← decode medium content
          decodeFieldEntries medium rest name (some value)
      else if content.isWellFormed then
        decodeFieldEntries medium rest name value
      else
        .error .malformed

end

end Value

def SqlType.wireName : SqlType → String
  | boolean => "Boolean"
  | bigInt => "BigInt"
  | double => "Double"
  | varchar => "Varchar"
  | timestamp => "Timestamp"

/-!
# Collection paths
-/

namespace CollectionPath

def encode (path : CollectionPath) : Json :=
  .ofEntries [("segments", .array (path.segments.map Json.string))]

def record : Record CollectionPath :=
  (Record.required "segments" (Json.toList Json.toText)).map fun segments =>
    { segments := segments }

def decode (medium : Medium) (tree : Json) : Decoded CollectionPath :=
  record.decode medium tree

end CollectionPath

namespace CollectionPathPattern

def encode (pattern : CollectionPathPattern) : Json :=
  .ofEntries [("prefix", pattern.above.encode)]

def record (medium : Medium) : Record CollectionPathPattern :=
  (Record.required "prefix" (CollectionPath.decode medium)).map fun above => { above := above }

def decode (medium : Medium) (tree : Json) : Decoded CollectionPathPattern :=
  (record medium).decode medium tree

end CollectionPathPattern

end SlotQuery
