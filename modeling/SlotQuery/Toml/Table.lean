import SlotQuery.Json.Tree

/-!
# TOML tables

A document is one table, filled line by line. A table is opened by a header at
most once; tables on the way to a header, and tables that dotted keys make, come
about by themselves and may be added to in the same way. Values, and with them
arrays and tables written within a line, are closed.
-/

namespace SlotQuery
namespace Toml

inductive Origin where
  /-- Opened by a header of its own. -/
  | header
  /-- Stands on the way to a header. -/
  | implied
  /-- Made by a dotted key. -/
  | dotted
deriving DecidableEq, Repr, Inhabited

inductive Item where
  | value (content : Json)
  | table (origin : Origin) (entries : List (String × Item))
  /-- A list of tables, opened one after the other; the latest stands last. -/
  | tables (earlier : List (List (String × Item))) (latest : List (String × Item))
deriving Inhabited

abbrev Entries := List (String × Item)

def put (key : String) (item : Item) : Entries → Entries
  | [] => [(key, item)]
  | (known, old) :: rest =>
      if known = key then (key, item) :: rest else (known, old) :: put key item rest

/-- How a path is followed: to a header, or along a dotted key. -/
inductive Way where
  | toHeader
  | alongKey
deriving DecidableEq, Repr, Inhabited

def Way.origin : Way → Origin
  | toHeader => .implied
  | alongKey => .dotted

/-- Changes the table at the end of a path, making the tables on the way that are missing. -/
def change (way : Way) (f : Origin → Entries → Option Entries) :
    List String → Origin → Entries → Option Entries
  | [], origin, entries => f origin entries
  | key :: rest, _, entries =>
      match entries.lookup key with
      | none =>
          (change way f rest way.origin []).map fun inner =>
            put key (.table way.origin inner) entries
      | some (.value _) => none
      | some (.table origin inner) =>
          if way = .alongKey ∧ origin = .header then
            none
          else
            (change way f rest origin inner).map fun inner =>
              put key (.table origin inner) entries
      | some (.tables earlier latest) =>
          (change way f rest .header latest).map fun latest =>
            put key (.tables earlier latest) entries

/-- A dotted key adds only to tables made by dotted keys. -/
def addValue (path : List String) (key : String) (content : Json) (origin : Origin)
    (entries : Entries) : Option Entries :=
  change .alongKey
    (fun reached inner =>
      if (reached == .dotted) == path.isEmpty then
        none
      else
        match inner.lookup key with
        | some _ => none
        | none => some (put key (.value content) inner))
    path origin entries

def openTable (path : List String) (key : String) (entries : Entries) : Option Entries :=
  change .toHeader
    (fun _ inner =>
      match inner.lookup key with
      | none => some (put key (.table .header []) inner)
      | some (.table .implied known) => some (put key (.table .header known) inner)
      | some _ => none)
    path .header entries

def openListed (path : List String) (key : String) (entries : Entries) : Option Entries :=
  change .toHeader
    (fun _ inner =>
      match inner.lookup key with
      | none => some (put key (.tables [] []) inner)
      | some (.tables earlier latest) => some (put key (.tables (earlier ++ [latest]) []) inner)
      | some _ => none)
    path .header entries

/-- Adds a value to the table that was opened last. -/
def addUnder (opened : List String) (path : List String) (key : String) (content : Json)
    (entries : Entries) : Option Entries :=
  change .toHeader (addValue path key content) opened .header entries

/-!
# The tree of a document
-/

mutual

def Item.toJson : Item → Json
  | .value content => content
  | .table _ entries => .object (entriesToJson entries)
  | .tables earlier latest =>
      .array (listedToJson earlier ++ [.object (entriesToJson latest)])

def entriesToJson : List (String × Item) → List (Option String × Json)
  | [] => []
  | (key, item) :: rest => (some key, item.toJson) :: entriesToJson rest

def listedToJson : List (List (String × Item)) → List Json
  | [] => []
  | entries :: rest => .object (entriesToJson entries) :: listedToJson rest

end

end Toml
end SlotQuery
