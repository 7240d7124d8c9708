import SlotQuery.Sql.Dialect
import SlotQuery.Value

/-!
# Fragments

A fragment is SQL text with holes for bound values. The text of a fragment does
not depend on where in a statement it stands; the marks of the parameters are
counted only when the whole is written out.
-/

namespace SlotQuery

inductive Piece where
  | text (s : String)
  /-- A bound value, and what is written around the mark of its parameter. -/
  | bound (value : Value) (around : String → String)

abbrev Fragment := List Piece

namespace Fragment

def ofText (s : String) : Fragment :=
  [.text s]

def ofValue (value : Value) : Fragment :=
  [.bound value id]

/-- The fragments one after the other, with a text between any two. -/
def joined (separator : String) : List Fragment → Fragment
  | [] => []
  | [fragment] => fragment
  | fragment :: next :: rest => fragment ++ ofText separator ++ joined separator (next :: rest)

def bracketed (fragment : Fragment) : Fragment :=
  ofText "(" ++ fragment ++ ofText ")"

/-- The bound values in the order of the text. -/
def values : Fragment → List Value
  | [] => []
  | .text _ :: rest => values rest
  | .bound value _ :: rest => value :: values rest

end Fragment

/-!
# Bound parameters

The values bound so far, in the order of their marks. A value that no
placeholder should ever meet is announced as text.
-/

structure Bindings where
  /-- The number of the last mark. -/
  index : Nat
  values : List Value
  types : List SqlType
deriving Inhabited

def Value.boundType (value : Value) : SqlType :=
  value.sqlType?.getD .varchar

namespace Bindings

def empty : Bindings :=
  { index := 0, values := [], types := [] }

def bind (bindings : Bindings) (value : Value) : Bindings :=
  { index := bindings.index + 1
    values := bindings.values ++ [value]
    types := bindings.types ++ [value.boundType] }

end Bindings

/-- The text of a fragment, with its values bound after those bound before. -/
def Fragment.write (dialect : Dialect) : Fragment → Bindings → String × Bindings
  | [], bindings => ("", bindings)
  | .text s :: rest, bindings =>
      let (sql, after) := write dialect rest bindings
      (s ++ sql, after)
  | .bound value around :: rest, bindings =>
      let bound := bindings.bind value
      let (sql, after) := write dialect rest bound
      (around (dialect.placeholder bound.index) ++ sql, after)

end SlotQuery
