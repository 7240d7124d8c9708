import SlotQuery.Request
import SlotQuery.Wire.Value

/-!
# Requests in documents

Operators by name, predicates as alternatives, and the request as a record in
which everything but the result type may be missing.
-/

namespace SlotQuery

/-!
# Operators
-/

namespace ComparisonOp

def wireName : ComparisonOp → String
  | eq => "Eq"
  | ne => "Ne"
  | ge => "Ge"
  | gt => "Gt"
  | le => "Le"
  | lt => "Lt"

def ofWireName? (name : String) : Option ComparisonOp :=
  [eq, ne, ge, gt, le, lt].find? fun op => op.wireName == name

def decode (tree : Json) : Decoded ComparisonOp :=
  tree.toName ofWireName?

end ComparisonOp

namespace SortOrder

def wireName : SortOrder → String
  | asc => "Asc"
  | desc => "Desc"

def ofWireName? (name : String) : Option SortOrder :=
  [asc, desc].find? fun order => order.wireName == name

def decode (tree : Json) : Decoded SortOrder :=
  tree.toName ofWireName?

end SortOrder

namespace JoinKind

def wireName : JoinKind → String
  | inner => "Inner"
  | left => "Left"

def ofWireName? (name : String) : Option JoinKind :=
  [inner, left].find? fun kind => kind.wireName == name

def decode (tree : Json) : Decoded JoinKind :=
  tree.toName ofWireName?

end JoinKind

namespace SetOp

def wireName : SetOp → String
  | union => "Union"
  | intersect => "Intersect"
  | except => "Except"

def ofWireName? (name : String) : Option SetOp :=
  [union, intersect, except].find? fun op => op.wireName == name

def decode (tree : Json) : Decoded SetOp :=
  tree.toName ofWireName?

end SetOp

/-!
# Predicates

The leaves are records of their own. The combinators hold further predicates.
-/

namespace Predicate

mutual

def encode : Predicate → Json
  | and children => .tagged "And" (.array (encodeChildren children))
  | or children => .tagged "Or" (.array (encodeChildren children))
  | not operand => .tagged "Not" (encode operand)
  | comparison op path value =>
      .tagged "Comparison"
        (.ofEntries [("op", .string op.wireName), ("path", path.encode), ("value", value.encode)])
  | isMatch path regex =>
      .tagged "Matches" (.ofEntries [("path", path.encode), ("regex", .string regex)])
  | contains path value =>
      .tagged "Contains" (.ofEntries [("path", path.encode), ("value", value.encode)])
  | containsAll path values =>
      .tagged "ContainsAll"
        (.ofEntries [("path", path.encode), ("values", .array (values.map Value.encode))])
  | propertyNull path => .tagged "PropertyNull" path.encode
  | propertyNotNull path => .tagged "PropertyNotNull" path.encode
  | associationNull path => .tagged "AssociationNull" path.encode
  | associationNotNull path => .tagged "AssociationNotNull" path.encode
  | manyAssociationContains path identity =>
      .tagged "ManyAssociationContains"
        (.ofEntries [("path", path.encode), ("identity", .string identity)])

def encodeChildren : List Predicate → List Json
  | [] => []
  | child :: rest => encode child :: encodeChildren rest

end

def pathField (medium : Medium) : Record Path :=
  Record.required "path" (Path.decode medium)

def comparisonRecord (medium : Medium) : Record Predicate :=
  ((Record.required "op" ComparisonOp.decode).both
      ((pathField medium).both (Record.required "value" (Value.decode medium)))).map
    fun (op, path, value) => comparison op path value

def isMatchRecord (medium : Medium) : Record Predicate :=
  ((pathField medium).both (Record.required "regex" Json.toText)).map
    fun (path, regex) => isMatch path regex

def containsRecord (medium : Medium) : Record Predicate :=
  ((pathField medium).both (Record.required "value" (Value.decode medium))).map
    fun (path, value) => contains path value

def containsAllRecord (medium : Medium) : Record Predicate :=
  ((pathField medium).both (Record.required "values" (Json.toList (Value.decode medium)))).map
    fun (path, values) => containsAll path values

def manyAssociationContainsRecord (medium : Medium) : Record Predicate :=
  ((pathField medium).both (Record.required "identity" Json.toText)).map
    fun (path, identity) => manyAssociationContains path identity

def decodeLeaf (medium : Medium) (tag : String) (content : Json) : Decoded Predicate :=
  if tag = "Comparison" then
    (comparisonRecord medium).decodeAlternative medium content
  else if tag = "Matches" then
    (isMatchRecord medium).decodeAlternative medium content
  else if tag = "Contains" then
    (containsRecord medium).decodeAlternative medium content
  else if tag = "ContainsAll" then
    (containsAllRecord medium).decodeAlternative medium content
  else if tag = "PropertyNull" then
    (Path.decode medium content).map propertyNull
  else if tag = "PropertyNotNull" then
    (Path.decode medium content).map propertyNotNull
  else if tag = "AssociationNull" then
    (Path.decode medium content).map associationNull
  else if tag = "AssociationNotNull" then
    (Path.decode medium content).map associationNotNull
  else if tag = "ManyAssociationContains" then
    (manyAssociationContainsRecord medium).decodeAlternative medium content
  else
    .error .malformed

mutual

def decode (medium : Medium) : Json → Decoded Predicate
  | .object ((some tag, content) :: rest) =>
      if medium.refusesChoice rest then
        .error .malformed
      else do
        let predicate ←
          if tag = "And" then
            (decodeList medium content).map Predicate.and
          else if tag = "Or" then
            (decodeList medium content).map Predicate.or
          else if tag = "Not" then
            (decode medium content).map Predicate.not
          else
            decodeLeaf medium tag content
        onlyEntry predicate rest
  | _ => .error .malformed

def decodeList (medium : Medium) : Json → Decoded (List Predicate)
  | .array items => decodeChildren medium items
  | _ => .error .malformed

def decodeChildren (medium : Medium) : List Json → Decoded (List Predicate)
  | [] => .ok []
  | item :: rest => do
      let child ← decode medium item
      let children ← decodeChildren medium rest
      return child :: children

end

end Predicate

/-!
# Sort keys and requests
-/

namespace SortKey

def encode : SortKey → Json
  | identity => .string "Identity"
  | path p => .tagged "Path" p.encode

def decode (medium : Medium) : Json → Decoded SortKey
  | .string tag => if tag = "Identity" then .ok .identity else .error .malformed
  | .object ((some tag, content) :: rest) =>
      if medium.refusesChoice rest then
        .error .malformed
      else do
        let key ←
          if tag = "Identity" then
            content.toUnit.map fun _ => SortKey.identity
          else if tag = "Path" then
            (Path.decode medium content).map SortKey.path
          else
            .error .malformed
        onlyEntry key rest
  | _ => .error .malformed

end SortKey

namespace OrderBy

def encode (order : OrderBy) : Json :=
  .ofEntries [("key", order.key.encode), ("order", .string order.order.wireName)]

def record (medium : Medium) : Record OrderBy :=
  ((Record.required "key" (SortKey.decode medium)).both
      (Record.optional "order" SortOrder.decode .asc)).map
    fun (key, order) => { key := key, order := order }

def decode (medium : Medium) (tree : Json) : Decoded OrderBy :=
  (record medium).decode medium tree

end OrderBy

namespace Request

def encodeCount : Option UInt64 → Json
  | some n => .number (.ofInt n.toNat)
  | none => .null

def encodePredicate : Option Predicate → Json
  | some predicate => predicate.encode
  | none => .null

def encode (request : Request) : Json :=
  .ofEntries
    [("result_type", .string request.resultType),
     ("predicate", encodePredicate request.predicate),
     ("order_by", .array (request.orderBy.map OrderBy.encode)),
     ("offset", encodeCount request.offset),
     ("limit", encodeCount request.limit),
     ("count_only", .bool request.countOnly)]

def record (medium : Medium) : Record Request :=
  ((Record.required "result_type" Json.toText).both
    ((Record.optional "predicate" (Json.toOption (Predicate.decode medium)) none).both
      ((Record.optional "order_by" (Json.toList (OrderBy.decode medium)) []).both
        ((Record.optional "offset" (Json.toOption Json.toUInt64) none).both
          ((Record.optional "limit" (Json.toOption Json.toUInt64) none).both
            (Record.optional "count_only" Json.toBool false)))))).map
    fun (resultType, predicate, orderBy, offset, limit, countOnly) =>
      { resultType := resultType
        predicate := predicate
        orderBy := orderBy
        offset := offset
        limit := limit
        countOnly := countOnly }

def decode (medium : Medium) (tree : Json) : Decoded Request :=
  (record medium).decode medium tree

end Request

end SlotQuery
