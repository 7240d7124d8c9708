import SlotQuery.Proofs.Parameters
import SlotQuery.Proofs.Records
import SlotQuery.Wire.Request

/-!
# Requests that are written and read back

What a request is written as is read back as the same request, in every medium.
Only the texts of floats and instants decide for themselves whether they can be
read back.
-/

namespace SlotQuery

/-!
# Lists, names and numbers
-/

namespace Json

theorem eachItem_map {α : Type} {encode : α → Json} {decode : Json → Decoded α}
    {values : List α} (h : ∀ value ∈ values, decode (encode value) = .ok value) :
    eachItem decode (values.map encode) = .ok values := by
  induction values with
  | nil => rfl
  | cons value rest ih =>
      simp only [List.map_cons, eachItem, bind_eq_ok, pure_eq_ok]
      exact ⟨value, h value List.mem_cons_self, rest,
        ih fun other hother => h other (List.mem_cons_of_mem value hother), rfl⟩

end Json

theorem ComparisonOp.decode_wireName (op : ComparisonOp) :
    ComparisonOp.decode (.string op.wireName) = .ok op := by
  cases op <;> rfl

theorem SortOrder.decode_wireName (order : SortOrder) :
    SortOrder.decode (.string order.wireName) = .ok order := by
  cases order <;> rfl

theorem Numeral.toInt?_ofInt (n : Int) : (ofInt n).toInt? = some n := by
  by_cases hneg : n < 0
  · have hwhole : n.natAbs ≠ 0 := by omega
    have hvalue : -(n.natAbs : Int) = n := by omega
    simp only [toInt?, ofInt, hneg, hwhole, hvalue, decide_true, List.isEmpty_nil,
      Option.isNone_none, Bool.and_self, if_true, if_false]
  · have hvalue : (n.natAbs : Int) = n := by omega
    simp only [toInt?, ofInt, hneg, hvalue, decide_false, List.isEmpty_nil, Option.isNone_none,
      Bool.and_self, Bool.false_eq_true, if_true, if_false]

namespace Json

theorem toText_string (s : String) : toText (.string s) = .ok s :=
  rfl

theorem toBool_bool (b : Bool) : toBool (.bool b) = .ok b :=
  rfl

theorem toIntIn_ofInt {low high n : Int} (hlow : low ≤ n) (hhigh : n ≤ high) :
    toIntIn low high (.number (.ofInt n)) = .ok n := by
  simp [toIntIn, Numeral.toInt?_ofInt, hlow, hhigh]

theorem toInt64_ofInt (n : Int64) : toInt64 (.number (.ofInt n.toInt)) = .ok n := by
  have hlow := n.le_toInt
  have hhigh := n.toInt_lt
  rw [toInt64, toIntIn_ofInt (by omega) (by omega)]
  exact congrArg Except.ok (Int64.ofInt_toInt n)

theorem toUInt64_ofInt (n : UInt64) : toUInt64 (.number (.ofInt n.toNat)) = .ok n := by
  have hhigh := n.toNat_lt
  rw [toUInt64, toIntIn_ofInt (by omega) (by omega)]
  exact congrArg Except.ok (UInt64.ofNat_toNat)

end Json

/-!
# Names and paths
-/

theorem bind_onlyEntry_nil {α : Type} (read : Decoded α) :
    (read >>= fun value => onlyEntry value []) = read := by
  cases read <;> rfl

theorem QualifiedName.decode_encode (medium : Medium) (name : QualifiedName) :
    QualifiedName.decode medium name.encode = .ok name := by
  have hfields : ((Record.required "type_name" Json.toText).both
      (Record.required "member" Json.toText)).Writes
      [("type_name", .string name.typeName), ("member", .string name.member)]
      (name.typeName, name.member) :=
    .cons (Json.toText_string _) _ (.field (Json.toText_string _) _) (by simp)
  exact (hfields.map _).decode medium

theorem PathStep.decode_encode (medium : Medium) (step : PathStep) :
    PathStep.decode medium step.encode = .ok step := by
  cases step with
  | property name | association name | manyAssociation name =>
      simp [encode, Json.tagged, Json.ofEntries, decode, make?, QualifiedName.decode_encode,
        onlyEntry]
      rfl

theorem Path.decode_encode (medium : Medium) (path : Path) :
    Path.decode medium path.encode = .ok path := by
  have hsteps : (stepsRecord medium).decode medium path.encode = .ok path.steps :=
    Record.Writes.decode (.field (Json.eachItem_map fun step _ => step.decode_encode medium) _)
      medium
  simp only [decode, hsteps, bind_eq_ok]
  refine ⟨path.steps, rfl, ?_⟩
  rw [Path.ofSteps?_steps]
  rfl

/-!
# Values

By recursion on the value. The fields of a composite are written in the order in
which they are read.
-/

namespace Value

/-- The only entry of a choice is read by its tag, in every medium. -/
theorem decode_tagged (medium : Medium) (tag : String) (content : Json) :
    decode medium (.tagged tag content) =
      if tag = "Null" then content.toUnit.map fun _ => Value.null
      else if tag = "Bool" then content.toBool.map Value.bool
      else if tag = "Int" then content.toInt64.map Value.int
      else if tag = "Float" then (decodeFloat content).map Value.float
      else if tag = "String" then content.toText.map Value.string
      else if tag = "Timestamp" then (decodeInstant content).map Value.instant
      else if tag = "List" then (decodeList medium content).map Value.list
      else if tag = "Composite" then (decodeComposite medium content).map Value.composite
      else .error .malformed := by
  simp only [Json.tagged, Json.ofEntries, List.map_cons, List.map_nil, decode,
    Medium.refusesChoice_nil, bind_onlyEntry_nil]
  rfl

/-- Whether the value is read back from its text, when it is a float or an instant. -/
def IsReadBack : Value → Prop
  | float x => decodeFloat (encodeFloat x) = .ok x
  | instant t => decodeInstant (.string t.text) = .ok t
  | null | bool _ | int _ | string _ | list _ | composite _ => True

theorem decodeField_encode {medium : Medium} {name : QualifiedName} {value : Value}
    (h : decode medium value.encode = .ok value) :
    decodeField medium (.ofEntries [("name", name.encode), ("value", value.encode)]) =
      .ok (name, value) := by
  simp [Json.ofEntries, decodeField, decodeFieldEntries, QualifiedName.decode_encode, h]
  rfl

mutual

theorem decode_encode (medium : Medium) (value : Value)
    (h : ∀ scalar ∈ value.scalars, scalar.IsReadBack) :
    decode medium value.encode = .ok value := by
  cases value with
  | null => rfl
  | bool b => simp [encode, encodeWith, decode_tagged, Json.toBool, Except.map]
  | int n => simp [encode, encodeWith, decode_tagged, Json.toInt64_ofInt, Except.map]
  | float x =>
      have hx : decodeFloat (encodeFloat x) = .ok x := h (.float x) List.mem_cons_self
      simp [encode, encodeWith, decode_tagged, hx, Except.map]
  | string s => simp [encode, encodeWith, decode_tagged, Json.toText_string, Except.map]
  | instant t =>
      have ht : decodeInstant (.string t.text) = .ok t := h (.instant t) List.mem_cons_self
      simp [encode, encodeWith, decode_tagged, ht, Except.map]
  | list items =>
      have hitems := decodeItems_encode medium items h
      simp [encode, encodeWith, decode_tagged, decodeList, hitems, Except.map]
  | composite fields =>
      have hfields := decodeFields_encode medium fields h
      simp [encode, encodeWith, decode_tagged, decodeComposite, hfields, Except.map]

theorem decodeItems_encode (medium : Medium) (items : List Value)
    (h : ∀ scalar ∈ allScalars items, scalar.IsReadBack) :
    decodeItems medium (encodeItems encodeFloat items) = .ok items := by
  cases items with
  | nil => rfl
  | cons value rest =>
      simp only [encodeItems, decodeItems, bind_eq_ok, pure_eq_ok]
      exact ⟨value, decode_encode medium value fun scalar hscalar =>
          h scalar (List.mem_append_left _ hscalar),
        rest, decodeItems_encode medium rest fun scalar hscalar =>
          h scalar (List.mem_append_right _ hscalar), rfl⟩

theorem decodeFields_encode (medium : Medium) (fields : List (QualifiedName × Value))
    (h : ∀ scalar ∈ fieldScalars fields, scalar.IsReadBack) :
    decodeFields medium (encodeFields encodeFloat fields) = .ok fields := by
  cases fields with
  | nil => rfl
  | cons field rest =>
      rcases field with ⟨name, value⟩
      simp only [encodeFields, decodeFields, bind_eq_ok, pure_eq_ok]
      exact ⟨(name, value), decodeField_encode (decode_encode medium value fun scalar hscalar =>
          h scalar (List.mem_append_left _ hscalar)),
        rest, decodeFields_encode medium rest fun scalar hscalar =>
          h scalar (List.mem_append_right _ hscalar), rfl⟩

end

theorem mem_allScalars {scalar value : Value} {values : List Value} (hvalue : value ∈ values)
    (hscalar : scalar ∈ value.scalars) : scalar ∈ allScalars values := by
  induction hvalue with
  | head rest => exact List.mem_append_left _ hscalar
  | tail first _ ih => exact List.mem_append_right _ ih

end Value

/-!
# Predicates

A leaf is a record with its path among the fields, or a path alone.
-/

namespace Predicate

theorem decode_tagged (medium : Medium) (tag : String) (content : Json) :
    decode medium (.tagged tag content) =
      if tag = "And" then (decodeList medium content).map Predicate.and
      else if tag = "Or" then (decodeList medium content).map Predicate.or
      else if tag = "Not" then (decode medium content).map Predicate.not
      else decodeLeaf medium tag content := by
  simp only [Json.tagged, Json.ofEntries, List.map_cons, List.map_nil, decode,
    Medium.refusesChoice_nil, bind_onlyEntry_nil]
  rfl

/-- The fields of a leaf from its path on. -/
theorem leaf_writes {α : Type} (medium : Medium) (path : Path) {name : String} {content : Json}
    {decode : Json → Decoded α} {a : α} (h : decode content = .ok a) (hname : name ≠ "path") :
    ((pathField medium).both (Record.required name decode)).Writes
      [("path", path.encode), (name, content)] (path, a) :=
  .cons (path.decode_encode medium) _ (.field h _) (by simp [hname.symm])

theorem comparison_writes (medium : Medium) (op : ComparisonOp) (path : Path) {value : Value}
    (h : Value.decode medium value.encode = .ok value) :
    (comparisonRecord medium).Writes
      [("op", .string op.wireName), ("path", path.encode), ("value", value.encode)]
      (comparison op path value) := by
  have hfields : ((Record.required "op" ComparisonOp.decode).both ((pathField medium).both
      (Record.required "value" (Value.decode medium)))).Writes
      [("op", .string op.wireName), ("path", path.encode), ("value", value.encode)]
      (op, path, value) :=
    .cons op.decode_wireName _ (leaf_writes medium path h (by decide)) (by simp)
  exact hfields.map _

mutual

theorem decode_encode (medium : Medium) (predicate : Predicate)
    (h : ∀ scalar ∈ predicate.scalars, scalar.IsReadBack) :
    decode medium predicate.encode = .ok predicate := by
  cases predicate with
  | and children =>
      have hchildren := decodeChildren_encode medium children h
      simp [encode, decode_tagged, decodeList, hchildren, Except.map]
  | or children =>
      have hchildren := decodeChildren_encode medium children h
      simp [encode, decode_tagged, decodeList, hchildren, Except.map]
  | not operand =>
      have hoperand := decode_encode medium operand h
      simp [encode, decode_tagged, hoperand, Except.map]
  | comparison op path value =>
      have hvalue := value.decode_encode medium h
      simp [encode, decode_tagged, decodeLeaf,
        (comparison_writes medium op path hvalue).decodeAlternative medium]
  | isMatch path regex =>
      have hfields := leaf_writes medium path (Json.toText_string regex) (by decide : "regex" ≠ _)
      have hrecord : (isMatchRecord medium).Writes _ (isMatch path regex) := hfields.map _
      simp [encode, decode_tagged, decodeLeaf, hrecord.decodeAlternative medium]
  | contains path value =>
      have hvalue := value.decode_encode medium h
      have hfields := leaf_writes medium path hvalue (by decide : "value" ≠ _)
      have hrecord : (containsRecord medium).Writes _ (contains path value) := hfields.map _
      simp [encode, decode_tagged, decodeLeaf, hrecord.decodeAlternative medium]
  | containsAll path values =>
      have hvalues : Json.toList (Value.decode medium) (.array (values.map Value.encode)) =
          .ok values :=
        Json.eachItem_map fun value hvalue => value.decode_encode medium fun scalar hscalar =>
          h scalar (Value.mem_allScalars hvalue hscalar)
      have hfields := leaf_writes medium path hvalues (by decide : "values" ≠ _)
      have hrecord : (containsAllRecord medium).Writes _ (containsAll path values) :=
        hfields.map _
      simp [encode, decode_tagged, decodeLeaf, hrecord.decodeAlternative medium]
  | manyAssociationContains path identity =>
      have hfields := leaf_writes medium path (Json.toText_string identity)
        (by decide : "identity" ≠ _)
      have hrecord : (manyAssociationContainsRecord medium).Writes _
        (manyAssociationContains path identity) := hfields.map _
      simp [encode, decode_tagged, decodeLeaf, hrecord.decodeAlternative medium]
  | propertyNull path | propertyNotNull path | associationNull path | associationNotNull path =>
      simp [encode, decode_tagged, decodeLeaf, path.decode_encode medium, Except.map]

theorem decodeChildren_encode (medium : Medium) (children : List Predicate)
    (h : ∀ scalar ∈ childrenScalars children, scalar.IsReadBack) :
    decodeChildren medium (encodeChildren children) = .ok children := by
  cases children with
  | nil => rfl
  | cons child rest =>
      simp only [encodeChildren, decodeChildren, bind_eq_ok, pure_eq_ok]
      exact ⟨child, decode_encode medium child fun scalar hscalar =>
          h scalar (List.mem_append_left _ hscalar),
        rest, decodeChildren_encode medium rest fun scalar hscalar =>
          h scalar (List.mem_append_right _ hscalar), rfl⟩

end

end Predicate

/-!
# Requests
-/

theorem SortKey.decode_encode (medium : Medium) (key : SortKey) :
    SortKey.decode medium key.encode = .ok key := by
  cases key with
  | identity => rfl
  | path path =>
      simp [encode, Json.tagged, Json.ofEntries, decode, bind_onlyEntry_nil,
        path.decode_encode medium, Except.map]

theorem OrderBy.decode_encode (medium : Medium) (order : OrderBy) :
    OrderBy.decode medium order.encode = .ok order := by
  have hfields : ((Record.required "key" (SortKey.decode medium)).both
      (Record.optional "order" SortOrder.decode .asc)).Writes
      [("key", order.key.encode), ("order", .string order.order.wireName)]
      (order.key, order.order) :=
    .cons (order.key.decode_encode medium) _ (.field order.order.decode_wireName _) (by simp)
  exact (hfields.map _).decode medium

theorem Json.toOption_eq_some {α : Type} {decode : Json → Decoded α} {tree : Json} {a : α}
    (hnull : decode .null ≠ .ok a) (h : decode tree = .ok a) :
    tree.toOption decode = .ok (some a) := by
  cases tree with
  | null => exact absurd h hnull
  | bool b | number n | string s | array items | object entries | unreadable inside | fault =>
      simp [toOption, h, Except.map]

namespace Request

theorem decode_encodePredicate (medium : Medium) (predicate : Option Predicate)
    (h : ∀ scalar ∈ predicate.elim [] Predicate.scalars, scalar.IsReadBack) :
    (encodePredicate predicate).toOption (Predicate.decode medium) = .ok predicate := by
  cases predicate with
  | none => rfl
  | some operand =>
      exact Json.toOption_eq_some (by simp [Predicate.decode]) (operand.decode_encode medium h)

theorem decode_encodeCount (count : Option UInt64) :
    (encodeCount count).toOption Json.toUInt64 = .ok count := by
  cases count with
  | none => rfl
  | some n => simp [encodeCount, Json.toOption, Json.toUInt64_ofInt, Except.map]

/-- A request is read back from its document when its floats and instants are. -/
theorem decode_encode (medium : Medium) (request : Request)
    (h : ∀ scalar ∈ request.scalars, scalar.IsReadBack) :
    Request.decode medium request.encode = .ok request := by
  have horders : Json.toList (OrderBy.decode medium)
      (.array (request.orderBy.map OrderBy.encode)) = .ok request.orderBy :=
    Json.eachItem_map fun order _ => order.decode_encode medium
  have hfields : ((Record.required "result_type" Json.toText).both
      ((Record.optional "predicate" (Json.toOption (Predicate.decode medium)) none).both
        ((Record.optional "order_by" (Json.toList (OrderBy.decode medium)) []).both
          ((Record.optional "offset" (Json.toOption Json.toUInt64) none).both
            ((Record.optional "limit" (Json.toOption Json.toUInt64) none).both
              (Record.optional "count_only" Json.toBool false)))))).Writes _ _ :=
    .cons (Json.toText_string request.resultType) _
      (.cons (decode_encodePredicate medium request.predicate h) _
        (.cons horders _
          (.cons (decode_encodeCount request.offset) _
            (.cons (decode_encodeCount request.limit) _
              (.field (Json.toBool_bool request.countOnly) _) (by simp)) (by simp)) (by simp))
        (by simp))
      (by simp)
  exact (hfields.map _).decode medium

end Request

end SlotQuery
