import SlotQuery.Predicate

/-!
# Requests

A request names the entity type to be queried and says which entities are
wanted, in what order, and which window of them. It starts out wide and is
narrowed one call at a time.
-/

namespace SlotQuery

inductive SortKey where
  /-- The public identity of the entity. -/
  | identity
  | path (path : Path)
deriving DecidableEq, Repr, Inhabited

structure OrderBy where
  key : SortKey
  order : SortOrder
deriving DecidableEq, Repr, Inhabited

namespace OrderBy

def ascending (path : Path) : OrderBy :=
  { key := .path path, order := .asc }

def descending (path : Path) : OrderBy :=
  { key := .path path, order := .desc }

def byIdentity (order : SortOrder) : OrderBy :=
  { key := .identity, order := order }

end OrderBy

structure Request where
  /-- Entities of subtypes are found too. -/
  resultType : String
  predicate : Option Predicate
  orderBy : List OrderBy
  offset : Option UInt64
  limit : Option UInt64
  /-- Ask for the number of entities instead of the entities. -/
  countOnly : Bool
deriving Inhabited

namespace Request

/-- Every entity of the type, in no order. -/
def ofType (resultType : String) : Request :=
  { resultType := resultType
    predicate := none
    orderBy := []
    offset := none
    limit := none
    countOnly := false }

/-- Replaces the filter. -/
def filter (request : Request) (predicate : Predicate) : Request :=
  { request with predicate := some predicate }

/-- Adds a less significant sort key. -/
def thenBy (request : Request) (order : OrderBy) : Request :=
  { request with orderBy := request.orderBy ++ [order] }

def skip (request : Request) (n : UInt64) : Request :=
  { request with offset := some n }

def take (request : Request) (n : UInt64) : Request :=
  { request with limit := some n }

def count (request : Request) : Request :=
  { request with countOnly := true }

end Request

end SlotQuery
