import SlotQuery.Layout
import SlotQuery.Schema
import SlotQuery.Wire.Record

/-!
# Schemas, layouts and options in documents

Lists of types and slots make up a schema; a layout and the options are flat
records in which everything may be missing.
-/

namespace SlotQuery

/-!
# Schemas
-/

namespace EntityType

def encode (type : EntityType) : Json :=
  .ofEntries
    [("name", .string type.name),
     ("id", .number (.ofInt type.id.toInt)),
     ("supertypes", .array (type.supertypes.map Json.string)),
     ("abstract", .bool type.isAbstract)]

def record : Record EntityType :=
  ((Record.required "name" Json.toText).both
    ((Record.required "id" Json.toInt64).both
      ((Record.optional "supertypes" (Json.toList Json.toText) []).both
        (Record.optional "abstract" Json.toBool false)))).map
    fun (name, id, supertypes, isAbstract) =>
      { name := name, id := id, supertypes := supertypes, isAbstract := isAbstract }

def decode (medium : Medium) (tree : Json) : Decoded EntityType :=
  record.decode medium tree

end EntityType

namespace SlotInfo

def encode (info : SlotInfo) : Json :=
  .ofEntries
    [("table", .string info.table),
     ("collection_depth", .number (.ofInt info.collectionDepth.toNat))]

def record : Record SlotInfo :=
  ((Record.required "table" Json.toText).both
      (Record.optional "collection_depth" Json.toUInt32 0)).map
    fun (table, collectionDepth) => { table := table, collectionDepth := collectionDepth }

def decode (medium : Medium) (tree : Json) : Decoded SlotInfo :=
  record.decode medium tree

end SlotInfo

namespace Schema

/-- A slot with its name spelled out in the same record. -/
def slotRecord : Record (QualifiedName × SlotInfo) :=
  ((Record.required "type_name" Json.toText).both
    ((Record.required "member" Json.toText).both
      ((Record.required "table" Json.toText).both
        (Record.optional "collection_depth" Json.toUInt32 0)))).map
    fun (typeName, member, table, collectionDepth) =>
      ({ typeName := typeName, member := member },
        { table := table, collectionDepth := collectionDepth })

/-- Slots are added one after the other, so the last entry with a name counts. -/
def ofLists (types : List EntityType) (slots : List (QualifiedName × SlotInfo)) : Schema :=
  slots.foldl (fun schema (name, info) => schema.addSlot name info)
    { types := types, slots := [] }

def record (medium : Medium) : Record Schema :=
  ((Record.optional "entity_types" (Json.toList (EntityType.decode medium)) []).both
      (Record.optional "slots" (Json.toList (slotRecord.decode medium)) [])).map
    fun (types, slots) => ofLists types slots

def decode (medium : Medium) (tree : Json) : Decoded Schema :=
  (record medium).decode medium tree

end Schema

/-!
# Layouts and options
-/

namespace Layout

def encode (layout : Layout) : Json :=
  .ofEntries
    [("entity_table", .string layout.entityTable),
     ("entity_pk_column", .string layout.entityKeyColumn),
     ("entity_identity_column", .string layout.entityIdentityColumn),
     ("type_table", .string layout.typeTable),
     ("type_id_column", .string layout.typeIdColumn),
     ("qname_id_column", .string layout.rowIdColumn),
     ("parent_column", .string layout.parentColumn),
     ("collection_path_column", .string layout.collectionPathColumn),
     ("value_column", .string layout.valueColumn),
     ("top_level_marker", .string layout.topLevelMarker)]

def field (name : String) (usual : String) : Record String :=
  Record.optional name Json.toText usual

def entityRecord : Record (String × String × String) :=
  (field "entity_table" standard.entityTable).both
    ((field "entity_pk_column" standard.entityKeyColumn).both
      (field "entity_identity_column" standard.entityIdentityColumn))

def typeRecord : Record (String × String) :=
  (field "type_table" standard.typeTable).both (field "type_id_column" standard.typeIdColumn)

def rowRecord : Record (String × String × String × String × String) :=
  (field "qname_id_column" standard.rowIdColumn).both
    ((field "parent_column" standard.parentColumn).both
      ((field "collection_path_column" standard.collectionPathColumn).both
        ((field "value_column" standard.valueColumn).both
          (field "top_level_marker" standard.topLevelMarker))))

def record : Record Layout :=
  (entityRecord.both (typeRecord.both rowRecord)).map
    fun ((table, key, identity), (typeTable, typeId), rowId, parent, position, value, marker) =>
      { entityTable := table
        entityKeyColumn := key
        entityIdentityColumn := identity
        typeTable := typeTable
        typeIdColumn := typeId
        rowIdColumn := rowId
        parentColumn := parent
        collectionPathColumn := position
        valueColumn := value
        topLevelMarker := marker }

def decode (medium : Medium) (tree : Json) : Decoded Layout :=
  record.decode medium tree

end Layout

namespace Options

def record : Record Options :=
  (Record.optional "max_value_depth" Json.toUInt64 16).map fun depth =>
    { maxValueDepth := depth.toNat }

def decode (medium : Medium) (tree : Json) : Decoded Options :=
  record.decode medium tree

end Options

end SlotQuery
