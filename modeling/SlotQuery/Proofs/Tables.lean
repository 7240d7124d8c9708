import SlotQuery.Proofs.Evaluation

/-!
# Databases as data

A small engine whose cells are numbers, texts and positions, and databases that
are written out row by row. A regular expression matches the text that it spells.
-/

namespace SlotQuery

inductive Datum where
  | number (n : Int)
  | text (s : String)
  | position (segments : List String)
deriving DecidableEq, Repr, Inhabited

namespace Datum

def kind : Datum → Nat
  | number _ => 0
  | text _ => 1
  | position _ => 2

def asNumber : Datum → Int
  | number n => n
  | text _ | position _ => 0

def asText : Datum → String
  | text s => s
  | number _ | position _ => ""

def asSegments : Datum → List String
  | position segments => segments
  | number _ | text _ => []

def order : Datum → Datum → Ordering :=
  compareLex (compareOn kind)
    (compareLex (compareOn asNumber) (compareLex (compareOn asText) (compareOn asSegments)))

instance : Std.TransCmp order := by
  unfold order
  infer_instance

/-- Truth values are stored as numbers; floats and instants are not stored at all. -/
def ofValue : Value → Datum
  | .bool b => number (if b then 1 else 0)
  | .int n => number n.toInt
  | .string s => text s
  | .null | .float _ | .instant _ | .list _ | .composite _ => default

def matchesText (pattern : String) : Datum → Bool
  | text s => s == pattern
  | number _ | position _ => false

def engine : Engine where
  Cell := Datum
  order := order
  lawful := inferInstance
  ofValue := ofValue
  ofTypeId := fun id => number id.toInt
  position := fun cell => { segments := cell.asSegments }
  isMatch := matchesText

end Datum

/-- Columns that are not listed hold nothing. -/
def Row.ofCells (cells : List (String × Datum)) : Row Datum.engine :=
  fun name => cells.lookup name

/-- Tables that are not listed have no rows. -/
def Database.ofTables (tables : List (String × List (List (String × Datum)))) :
    Database Datum.engine :=
  { rows := fun name => ((tables.lookup name).getD []).map Row.ofCells }

/-!
# Two people

Alice has two addresses, both in Paris. Both people have a collection of tags,
with a row for the collection itself and one for each tag. Bob has no name.
-/

namespace People

def name : QualifiedName := { typeName := "Person", member := "name" }

def tags : QualifiedName := { typeName := "Person", member := "tags" }

def addresses : QualifiedName := { typeName := "Person", member := "addresses" }

def city : QualifiedName := { typeName := "Address", member := "city" }

/-- People have no such slot. -/
def email : QualifiedName := { typeName := "Person", member := "email" }

def schema : Schema :=
  { types := [{ name := "Person", id := 1, supertypes := [], isAbstract := false }]
    slots :=
      [(name, { table := "names", collectionDepth := 0 }),
        (tags, { table := "tags", collectionDepth := 1 }),
        (addresses, { table := "addresses", collectionDepth := 1 }),
        (city, { table := "cities", collectionDepth := 0 })] }

def context : Context :=
  { schema := schema
    dialect := .sqlite
    layout := .standard
    options := {}
    typeIds := [1] }

def entityRow (key : Int) (identity : String) : List (String × Datum) :=
  [("entity_pk", .number key), ("entity_identity", .text identity)]

def typeRow (key : Int) : List (String × Datum) :=
  [("entity_pk", .number key), ("entity_type_id", .number 1)]

def valueRow (key : Int) (value : String) : List (String × Datum) :=
  [("entity_pk", .number key), ("value", .text value)]

def elementRow (key : Int) (index : String) (value : String) : List (String × Datum) :=
  [("entity_pk", .number key), ("collection_path", .position ["TOP", index]),
    ("value", .text value)]

/-- The row of a collection itself, which has no value. -/
def markerRow (key : Int) : List (String × Datum) :=
  [("entity_pk", .number key), ("collection_path", .position ["TOP"])]

def holderRow (key id : Int) (index : String) : List (String × Datum) :=
  [("entity_pk", .number key), ("qname_id", .number id),
    ("collection_path", .position ["TOP", index])]

def nestedRow (key parent : Int) (value : String) : List (String × Datum) :=
  [("entity_pk", .number key), ("parent_qname", .number parent), ("value", .text value)]

def database : Database Datum.engine :=
  .ofTables
    [("entities", [entityRow 1 "alice", entityRow 2 "bob"]),
      ("entity_types", [typeRow 1, typeRow 2]),
      ("names", [valueRow 1 "Alice"]),
      ("tags", [markerRow 1, elementRow 1 "0" "red", elementRow 1 "1" "blue", markerRow 2,
        elementRow 2 "0" "red"]),
      ("addresses", [holderRow 1 10 "0", holderRow 1 11 "1"]),
      ("cities", [nestedRow 1 10 "Paris", nestedRow 1 11 "Paris"])]

def livesIn (place : String) : Value :=
  .composite [(city, .string place)]

def alice : Datum :=
  .number 1

def bob : Datum :=
  .number 2

end People

end SlotQuery
