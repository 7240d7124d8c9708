/-!
# Layouts and options

A layout names the tables and columns that statements refer to. All slot tables
share their column names; only the table of a slot comes from the schema.
-/

namespace SlotQuery

structure Layout where
  entityTable : String := "entities"
  /-- The key of an entity, present in every table. -/
  entityKeyColumn : String := "entity_pk"
  /-- The public identity, in the entity table. -/
  entityIdentityColumn : String := "entity_identity"
  /-- The table that says of which types an entity is. -/
  typeTable : String := "entity_types"
  typeIdColumn : String := "entity_type_id"
  /-- The id of a slot row, which nested rows refer to. -/
  rowIdColumn : String := "qname_id"
  /-- The reference from a nested row to the row around it. -/
  parentColumn : String := "parent_qname"
  /-- The position of a row within a collection. -/
  collectionPathColumn : String := "collection_path"
  /-- The stored value, which for an association is the key of the other entity. -/
  valueColumn : String := "value"
  /-- The first segment of every collection path. -/
  topLevelMarker : String := "TOP"
deriving DecidableEq, Repr, Inhabited

namespace Layout

/-- The layout used unless a caller gives another one. -/
def standard : Layout :=
  {}

def withEntityTable (layout : Layout) (table key identity : String) : Layout :=
  { layout with
    entityTable := table
    entityKeyColumn := key
    entityIdentityColumn := identity }

def withTypeTable (layout : Layout) (table typeId : String) : Layout :=
  { layout with typeTable := table, typeIdColumn := typeId }

def withValueColumn (layout : Layout) (column : String) : Layout :=
  { layout with valueColumn := column }

def withCollectionPathColumn (layout : Layout) (column : String) : Layout :=
  { layout with collectionPathColumn := column }

def withParentColumns (layout : Layout) (rowId parent : String) : Layout :=
  { layout with rowIdColumn := rowId, parentColumn := parent }

def withTopLevelMarker (layout : Layout) (marker : String) : Layout :=
  { layout with topLevelMarker := marker }

end Layout

/-!
# Options

Limits on what a compilation may do.
-/

structure Options where
  /-- How far a comparison or containment may descend into composites. -/
  maxValueDepth : Nat := 16
deriving DecidableEq, Repr, Inhabited

end SlotQuery
