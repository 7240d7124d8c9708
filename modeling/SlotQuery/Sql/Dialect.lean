import SlotQuery.CollectionPath
import SlotQuery.Operator
import SlotQuery.Sql.Identifier

/-!
# Dialects

What differs between databases: how names are quoted, how bound parameters are
marked, and the spelling of booleans, windows, pattern tests and set
operations. A dialect is a record of these, so a caller can bring its own.
-/

namespace SlotQuery

def likeBelow (column : String) (pattern : CollectionPathPattern) : String :=
  column ++ " LIKE " ++ stringLiteral pattern.likePattern

def equalsPath (column : String) (path : CollectionPath) : String :=
  column ++ " = " ++ stringLiteral path.text

structure Dialect where
  name : String
  quoteIdentifier : String → String
  /-- The mark of a bound parameter, counted from one. -/
  placeholder : Nat → String
  boolLiteral : Bool → String
  /-- The window of a statement, from its limit and its offset. -/
  limitOffset : Option UInt64 → Option UInt64 → String
  supportsRegex : Bool := true
  /-- A column against the mark of a bound pattern. -/
  regexMatch : String → String → String :=
    fun column pattern => column ++ " REGEXP " ++ pattern
  pathBelow : String → CollectionPathPattern → String := likeBelow
  pathEquals : String → CollectionPath → String := equalsPath
  setOperator : SetOp → String := SetOp.keyword

namespace Dialect

/-!
# Windows

A number of rows to skip and a number of rows to keep, both optional. Some
databases refuse to skip without a limit; they are given one that never binds.
-/

def limitText (n : UInt64) : String :=
  " LIMIT " ++ toString n.toNat

def offsetText : Option UInt64 → String
  | some n => " OFFSET " ++ toString n.toNat
  | none => ""

/-- The window where skipping alone is written with the limit `unbounded`. -/
def window (unbounded : String) (limit offset : Option UInt64) : String :=
  match limit, offset with
  | some n, _ => limitText n ++ offsetText offset
  | none, some _ => unbounded ++ offsetText offset
  | none, none => ""

def numberedBool (b : Bool) : String :=
  if b then "1" else "0"

/-!
# The three dialects
-/

/-- Collection paths are label trees here, and are tested with label patterns. -/
def postgres : Dialect :=
  { name := "postgres"
    quoteIdentifier := Identifier.standard
    placeholder := fun index => "$" ++ toString index
    boolLiteral := fun b => if b then "true" else "false"
    limitOffset := window ""
    regexMatch := fun column pattern => column ++ " ~ " ++ pattern
    pathBelow := fun column pattern => column ++ " ~ " ++ stringLiteral pattern.labelPattern }

def mysql : Dialect :=
  { name := "mysql"
    quoteIdentifier := Identifier.quoted '\x60' '\x60'
    placeholder := fun _ => "?"
    boolLiteral := numberedBool
    limitOffset := window (limitText 18446744073709551615) }

/-- The operator for regular expressions can be written but has no meaning here. -/
def sqlite : Dialect :=
  { name := "sqlite"
    quoteIdentifier := Identifier.standard
    placeholder := fun _ => "?"
    boolLiteral := numberedBool
    limitOffset := window " LIMIT -1"
    supportsRegex := false }

end Dialect

end SlotQuery
