import Mathlib.Tactic.SplitIfs
import SlotQuery.Proofs.RoundTrip
import SlotQuery.Wire.Text

/-!
# Where documents have paths

The places of a document at which paths are read are found without decoding it.
When the document can be read, what stands there are the paths of the result, in
order. So a document with a path without steps in one of these places cannot be
read.
-/

namespace SlotQuery

/-!
# Places

A choice is read from its first entry. Its tag says whether there is a path in
the content, and under which name or in which place.
-/

namespace Json

def items : Json → List Json
  | array items => items
  | null | bool _ | number _ | string _ | object _ | unreadable _ | fault => []

/-- The document of a path whose list of steps is empty. -/
def LacksSteps (tree : Json) : Prop :=
  .array [] ∈ tree.contents "steps" 0

end Json

namespace Predicate

def leafPathPlaces (tag : String) (content : Json) : List Json :=
  if tag = "Comparison" then
    content.contents "path" 1
  else if tag ∈ ["Matches", "Contains", "ContainsAll", "ManyAssociationContains"] then
    content.contents "path" 0
  else if tag ∈ ["PropertyNull", "PropertyNotNull", "AssociationNull", "AssociationNotNull"] then
    [content]
  else
    []

mutual

def pathPlaces : Json → List Json
  | .object ((some tag, content) :: _) =>
      if tag = "And" ∨ tag = "Or" then
        listPathPlaces content
      else if tag = "Not" then
        pathPlaces content
      else
        leafPathPlaces tag content
  | _ => []

def listPathPlaces : Json → List Json
  | .array items => itemsPathPlaces items
  | _ => []

def itemsPathPlaces : List Json → List Json
  | [] => []
  | item :: rest => pathPlaces item ++ itemsPathPlaces rest

end

mutual

def paths : Predicate → List Path
  | and children | or children => childrenPaths children
  | not operand => paths operand
  | comparison _ path _ | isMatch path _ | contains path _ | containsAll path _
  | propertyNull path | propertyNotNull path | associationNull path | associationNotNull path
  | manyAssociationContains path _ => [path]

def childrenPaths : List Predicate → List Path
  | [] => []
  | child :: rest => paths child ++ childrenPaths rest

end

end Predicate

namespace SortKey

def pathPlaces : Json → List Json
  | .object ((some tag, content) :: _) => if tag = "Path" then [content] else []
  | _ => []

def paths : SortKey → List Path
  | identity => []
  | .path reached => [reached]

end SortKey

namespace OrderBy

def pathPlaces (tree : Json) : List Json :=
  (tree.contents "key" 0).flatMap SortKey.pathPlaces

def paths (order : OrderBy) : List Path :=
  order.key.paths

end OrderBy

namespace Request

def pathPlaces (tree : Json) : List Json :=
  (tree.contents "predicate" 1).flatMap Predicate.pathPlaces ++
    (tree.contents "order_by" 2).flatMap fun content => content.items.flatMap OrderBy.pathPlaces

def paths (request : Request) : List Path :=
  request.predicate.elim [] Predicate.paths ++ request.orderBy.flatMap OrderBy.paths

end Request

/-!
# Paths that are read
-/

/-- The paths stand at the places, in order. -/
def Path.StandAt (medium : Medium) (places : List Json) (paths : List Path) : Prop :=
  places.map (Path.decode medium) = paths.map .ok

namespace Path.StandAt

variable {medium : Medium}

theorem append {places places' : List Json} {paths paths' : List Path}
    (h : StandAt medium places paths) (h' : StandAt medium places' paths') :
    StandAt medium (places ++ places') (paths ++ paths') := by
  rw [StandAt, List.map_append, List.map_append, h, h']

theorem flatMap {α : Type} {trees : List Json} {values : List α} {decode : Json → Decoded α}
    {pathPlaces : Json → List Json} {paths : α → List Path}
    (htrees : trees.map decode = values.map .ok)
    (h : ∀ tree value, decode tree = .ok value → StandAt medium (pathPlaces tree) (paths value)) :
    StandAt medium (trees.flatMap pathPlaces) (values.flatMap paths) := by
  induction trees generalizing values with
  | nil =>
      cases values with
      | nil => rfl
      | cons value rest => cases htrees
  | cons tree others ih =>
      cases values with
      | nil => cases htrees
      | cons value rest =>
          injection htrees with hvalue hrest
          exact (h tree value hvalue).append (ih hrest)

/-- Below a field that has one content, or none and no paths. -/
theorem ofContents {α : Type} {trees : List Json} {value : α} {decode : Json → Decoded α}
    {missing : Decoded α} {pathPlaces : Json → List Json} {paths : List Path}
    (htrees : trees.map decode = [.ok value] ∨ trees.map decode = [] ∧ missing = .ok value)
    (hmissing : missing = .ok value → paths = [])
    (h : ∀ tree, decode tree = .ok value → StandAt medium (pathPlaces tree) paths) :
    StandAt medium (trees.flatMap pathPlaces) paths := by
  rcases htrees with hone | ⟨hnone, hdefault⟩
  · rcases List.map_eq_singleton_iff.mp hone with ⟨tree, htree, hread⟩
    rw [htree, List.flatMap_singleton]
    exact h tree hread
  · rw [List.map_eq_nil_iff.mp hnone, hmissing hdefault]
    rfl

end Path.StandAt

theorem Json.map_of_eachItem_eq_ok {α : Type} {decode : Json → Decoded α} {items : List Json}
    {values : List α} (h : eachItem decode items = .ok values) :
    items.map decode = values.map .ok := by
  induction items generalizing values with
  | nil =>
      cases h
      rfl
  | cons item rest ih =>
      simp only [eachItem, bind_eq_ok, pure_eq_ok] at h
      rcases h with ⟨value, hvalue, others, hrest, hvalues⟩
      rw [← hvalues, List.map_cons, List.map_cons, hvalue, ih hrest]

theorem Json.toOption_eq_ok {α : Type} {decode : Json → Decoded α} {tree : Json}
    {result : Option α} (h : tree.toOption decode = .ok result) :
    tree = .null ∧ result = none ∨ ∃ value, decode tree = .ok value ∧ result = some value := by
  cases tree with
  | null =>
      cases h
      exact Or.inl ⟨rfl, rfl⟩
  | bool b | number n | string s | array items | object entries | unreadable inside | fault =>
      simp only [toOption] at h
      rcases map_eq_ok.mp h with ⟨value, hvalue, hresult⟩
      exact Or.inr ⟨value, hvalue, hresult.symm⟩

theorem onlyEntry_eq_ok {α : Type} {value result : α} {rest : List (Option String × Json)}
    (h : onlyEntry value rest = .ok result) : value = result := by
  cases rest with
  | nil => exact Except.ok.inj h
  | cons entry others => cases h

/-!
# Records with a path
-/

namespace Predicate

variable {medium : Medium}

theorem standAt_of_collects {record : Record Predicate} {index : Nat}
    {seen : record.State → List (Decoded Path)}
    (hpath : record.Collects "path" index (Path.decode medium) (.error .malformed)
      (fun predicate path => predicate.paths = [path]) seen)
    {content : Json} {predicate : Predicate}
    (h : record.decodeAlternative medium content = .ok predicate) :
    Path.StandAt medium (content.contents "path" index) predicate.paths := by
  rcases hpath.contents_of_required (Record.decode_of_decodeAlternative h) with
    ⟨path, hpaths, hcontents⟩
  rw [Path.StandAt, hcontents, hpaths]
  rfl

theorem leafRecord_standAt {α : Type} {name : String} {decode : Json → Decoded α}
    {make : Path × α → Predicate} (hmake : ∀ fields, (make fields).paths = [fields.fst])
    {content : Json} {predicate : Predicate}
    (h : (((pathField medium).both (Record.required name decode)).map make).decodeAlternative medium
      content = .ok predicate) :
    Path.StandAt medium (content.contents "path" 0) predicate.paths := by
  have hfield := Record.Collects.field "path" (Path.decode medium) (.error .malformed)
  refine standAt_of_collects ((hfield.left (Record.required name decode)).map ?_) h
  intro fields path hpath
  rw [hmake, ← hpath]

theorem comparisonRecord_standAt {content : Json} {predicate : Predicate}
    (h : (comparisonRecord medium).decodeAlternative medium content = .ok predicate) :
    Path.StandAt medium (content.contents "path" 1) predicate.paths := by
  have hfield := Record.Collects.field "path" (Path.decode medium) (.error .malformed)
  have hfields := (hfield.left (Record.required "value" (Value.decode medium))).after
    (by decide : "path" ≠ "op") ComparisonOp.decode (.error .malformed)
  refine standAt_of_collects (hfields.map ?_) h
  intro fields path hpath
  rw [← hpath]
  rfl

theorem pathOnly_standAt {make : Path → Predicate} (hmake : ∀ path, (make path).paths = [path])
    {content : Json} {predicate : Predicate}
    (h : (Path.decode medium content).map make = .ok predicate) :
    Path.StandAt medium [content] predicate.paths := by
  rcases map_eq_ok.mp h with ⟨path, hpath, hpredicate⟩
  rw [← hpredicate, hmake, Path.StandAt, List.map_singleton, hpath]
  rfl

theorem decodeLeaf_standAt {tag : String} {content : Json} {predicate : Predicate}
    (h : decodeLeaf medium tag content = .ok predicate) :
    Path.StandAt medium (leafPathPlaces tag content) predicate.paths := by
  unfold decodeLeaf at h
  split_ifs at h with hcomparison hmatches hcontains hall hnull hnotNull hunset hset hmany
  · subst hcomparison
    exact comparisonRecord_standAt h
  · subst hmatches
    exact leafRecord_standAt (fun _ => rfl) h
  · subst hcontains
    exact leafRecord_standAt (fun _ => rfl) h
  · subst hall
    exact leafRecord_standAt (fun _ => rfl) h
  · subst hnull
    exact pathOnly_standAt (fun _ => rfl) h
  · subst hnotNull
    exact pathOnly_standAt (fun _ => rfl) h
  · subst hunset
    exact pathOnly_standAt (fun _ => rfl) h
  · subst hset
    exact pathOnly_standAt (fun _ => rfl) h
  · subst hmany
    exact leafRecord_standAt (fun _ => rfl) h

/-- A predicate is read from its first entry as a combinator or as a leaf. -/
theorem decode_object_eq_ok {tag : String} {content : Json}
    {rest : List (Option String × Json)} {predicate : Predicate}
    (h : decode medium (.object ((some tag, content) :: rest)) = .ok predicate) :
    (tag = "And" ∨ tag = "Or") ∧ (∃ children, decodeList medium content = .ok children ∧
        predicate.paths = childrenPaths children) ∨
      tag = "Not" ∧ (∃ operand, decode medium content = .ok operand ∧
        predicate.paths = operand.paths) ∨
      tag ∉ ["And", "Or", "Not"] ∧ decodeLeaf medium tag content = .ok predicate := by
  simp only [decode] at h
  split_ifs at h with hrefused hand hor hnot
  · rcases bind_eq_ok.mp h with ⟨read, hread, honly⟩
    rcases map_eq_ok.mp hread with ⟨children, hchildren, hpredicate⟩
    rw [← onlyEntry_eq_ok honly, ← hpredicate]
    exact Or.inl ⟨Or.inl hand, children, hchildren, rfl⟩
  · rcases bind_eq_ok.mp h with ⟨read, hread, honly⟩
    rcases map_eq_ok.mp hread with ⟨children, hchildren, hpredicate⟩
    rw [← onlyEntry_eq_ok honly, ← hpredicate]
    exact Or.inl ⟨Or.inr hor, children, hchildren, rfl⟩
  · rcases bind_eq_ok.mp h with ⟨read, hread, honly⟩
    rcases map_eq_ok.mp hread with ⟨operand, hoperand, hpredicate⟩
    rw [← onlyEntry_eq_ok honly, ← hpredicate]
    exact Or.inr (Or.inl ⟨hnot, operand, hoperand, rfl⟩)
  · rcases bind_eq_ok.mp h with ⟨read, hread, honly⟩
    rw [onlyEntry_eq_ok honly] at hread
    exact Or.inr (Or.inr ⟨by simp [hand, hor, hnot], hread⟩)

mutual

theorem decode_standAt {predicate : Predicate} (tree : Json)
    (h : decode medium tree = .ok predicate) :
    Path.StandAt medium (pathPlaces tree) predicate.paths := by
  -- Along the document: the operands of a combinator are smaller parts of it.
  cases tree with
  | object entries =>
      cases entries with
      | nil => cases h
      | cons entry rest =>
          rcases entry with ⟨key, content⟩
          cases key with
          | none => cases h
          | some tag =>
              simp only [pathPlaces]
              rcases decode_object_eq_ok h with ⟨htag, children, hchildren, hpaths⟩ |
                ⟨htag, operand, hoperand, hpaths⟩ | ⟨htag, hleaf⟩
              · rw [if_pos htag, hpaths]
                exact decodeList_standAt content hchildren
              · subst htag
                rw [hpaths]
                exact decode_standAt content hoperand
              · simp only [List.mem_cons, List.not_mem_nil, or_false, not_or] at htag
                rw [if_neg (not_or.mpr ⟨htag.left, htag.right.left⟩), if_neg htag.right.right]
                exact decodeLeaf_standAt hleaf
  | array items | null | bool b | number n | string s | unreadable inside | fault => cases h

theorem decodeList_standAt {children : List Predicate} (tree : Json)
    (h : decodeList medium tree = .ok children) :
    Path.StandAt medium (listPathPlaces tree) (childrenPaths children) := by
  cases tree with
  | array items => exact decodeChildren_standAt items h
  | object entries | null | bool b | number n | string s | unreadable inside | fault => cases h

theorem decodeChildren_standAt {children : List Predicate} (items : List Json)
    (h : decodeChildren medium items = .ok children) :
    Path.StandAt medium (itemsPathPlaces items) (childrenPaths children) := by
  cases items with
  | nil =>
      cases h
      rfl
  | cons item rest =>
      simp only [decodeChildren, bind_eq_ok, pure_eq_ok] at h
      rcases h with ⟨child, hchild, others, hrest, hchildren⟩
      rw [← hchildren]
      exact (decode_standAt item hchild).append (decodeChildren_standAt rest hrest)

end

end Predicate

/-!
# Sort keys and requests
-/

theorem SortKey.decode_standAt {medium : Medium} {tree : Json} {key : SortKey}
    (h : SortKey.decode medium tree = .ok key) :
    Path.StandAt medium (pathPlaces tree) key.paths := by
  cases tree with
  | string s =>
      simp only [decode] at h
      split_ifs at h
      cases h
      rfl
  | object entries =>
      cases entries with
      | nil => cases h
      | cons entry rest =>
          rcases entry with ⟨name, content⟩
          cases name with
          | none => cases h
          | some tag =>
              simp only [decode] at h
              split_ifs at h with hrefused hidentity hpath
              · subst hidentity
                rcases bind_eq_ok.mp h with ⟨read, hread, honly⟩
                rcases map_eq_ok.mp hread with ⟨_, _, hkey⟩
                rw [← onlyEntry_eq_ok honly, ← hkey]
                rfl
              · subst hpath
                rcases bind_eq_ok.mp h with ⟨read, hread, honly⟩
                rcases map_eq_ok.mp hread with ⟨path, hdecode, hkey⟩
                rw [← onlyEntry_eq_ok honly, ← hkey, Path.StandAt]
                exact congrArg (fun result => [result]) hdecode
              · cases h
  | array items | null | bool b | number n | unreadable inside | fault => cases h

theorem OrderBy.decode_standAt {medium : Medium} {tree : Json} {order : OrderBy}
    (h : OrderBy.decode medium tree = .ok order) :
    Path.StandAt medium (pathPlaces tree) order.paths := by
  have hfield := Record.Collects.field "key" (SortKey.decode medium) (.error .malformed)
  have hkey : (record medium).Collects "key" 0 (SortKey.decode medium) (.error .malformed)
      (fun order key => order.key = key) _ :=
    (hfield.left (Record.optional "order" SortOrder.decode .asc)).map fun _ _ hkey => hkey
  rcases hkey.contents h with ⟨key, hstands, hcontents⟩
  cases hstands
  apply Path.StandAt.ofContents hcontents
  · intro hmissing
    cases hmissing
  · exact fun content hcontent => SortKey.decode_standAt hcontent

theorem OrderBy.decodeList_standAt {medium : Medium} {tree : Json} {orders : List OrderBy}
    (h : tree.toList (OrderBy.decode medium) = .ok orders) :
    Path.StandAt medium (tree.items.flatMap pathPlaces) (orders.flatMap paths) := by
  cases tree with
  | array items =>
      exact .flatMap (Json.map_of_eachItem_eq_ok h) fun item order horder =>
        OrderBy.decode_standAt horder
  | object entries | null | bool b | number n | string s | unreadable inside | fault => cases h

theorem Predicate.decodeOption_standAt {medium : Medium} {tree : Json}
    {predicate : Option Predicate}
    (h : tree.toOption (Predicate.decode medium) = .ok predicate) :
    Path.StandAt medium (pathPlaces tree) (predicate.elim [] paths) := by
  rcases Json.toOption_eq_ok h with ⟨htree, hpredicate⟩ | ⟨operand, hoperand, hpredicate⟩
  · rw [htree, hpredicate]
    rfl
  · rw [hpredicate]
    exact decode_standAt tree hoperand

theorem Request.decode_standAt {medium : Medium} {tree : Json} {request : Request}
    (h : Request.decode medium tree = .ok request) :
    Path.StandAt medium (pathPlaces tree) request.paths := by
  have hfield := Record.Collects.field "predicate" (Json.toOption (Predicate.decode medium))
    (.ok none)
  have hpredicate : (record medium).Collects "predicate" 1
      (Json.toOption (Predicate.decode medium)) (.ok none)
      (fun request predicate => request.predicate = predicate) _ :=
    ((hfield.left _).after (by decide) Json.toText (.error .malformed)).map
      fun _ _ hpredicate => hpredicate
  have hfield' := Record.Collects.field "order_by" (Json.toList (OrderBy.decode medium)) (.ok [])
  have horderBy : (record medium).Collects "order_by" 2
      (Json.toList (OrderBy.decode medium)) (.ok [])
      (fun request orderBy => request.orderBy = orderBy) _ :=
    (((hfield'.left _).after (by decide) (Json.toOption (Predicate.decode medium))
      (.ok none)).after (by decide) Json.toText (.error .malformed)).map
        fun _ _ horderBy => horderBy
  rcases hpredicate.contents h with ⟨predicate, hstands, hcontents⟩
  rcases horderBy.contents h with ⟨orderBy, hstands', hcontents'⟩
  cases hstands
  cases hstands'
  apply Path.StandAt.append
  · apply Path.StandAt.ofContents hcontents
    · intro hmissing
      rw [← Except.ok.inj hmissing]
      rfl
    · exact fun _ hcontent => Predicate.decodeOption_standAt hcontent
  · apply Path.StandAt.ofContents hcontents'
    · intro hmissing
      rw [← Except.ok.inj hmissing]
      rfl
    · exact fun _ hcontent => OrderBy.decodeList_standAt hcontent

/-!
# Documents with a path without steps

A path is read only from a document with a list of steps that is not empty.
-/

theorem Path.not_lacksSteps {medium : Medium} {tree : Json} {path : Path}
    (h : Path.decode medium tree = .ok path) : ¬tree.LacksSteps := by
  intro hempty
  simp only [decode, bind_eq_ok] at h
  rcases h with ⟨steps, hsteps, hpath⟩
  have hfield : (stepsRecord medium).Collects "steps" 0 (Json.toList (PathStep.decode medium))
      (.error .malformed) Eq _ :=
    Record.Collects.field "steps" (Json.toList (PathStep.decode medium)) (.error .malformed)
  rcases hfield.contents_of_required hsteps with ⟨read, hread, hcontents⟩
  have hnil : Except.ok [] ∈ (tree.contents "steps" 0).map (Json.toList (PathStep.decode medium)) :=
    List.mem_map.mpr ⟨.array [], hempty, rfl⟩
  rw [hcontents, List.mem_singleton] at hnil
  rw [hread, ← Except.ok.inj hnil] at hpath
  cases hpath

theorem Path.StandAt.not_lacksSteps {medium : Medium} {places : List Json} {paths : List Path}
    (h : StandAt medium places paths) {place : Json} (hplace : place ∈ places) :
    ¬place.LacksSteps := by
  have hmem : Path.decode medium place ∈ paths.map .ok := by
    rw [← h]
    exact List.mem_map_of_mem hplace
  rcases List.mem_map.mp hmem with ⟨path, _, hpath⟩
  exact Path.not_lacksSteps hpath.symm

/-- What is read from a document are the paths at its places, so one with a path without steps
cannot be read. -/
structure KeepsSteps {α : Type} (decode : Medium → Json → Decoded α)
    (pathPlaces : Json → List Json) (paths : α → List Path) : Prop where
  read : ∀ medium tree value, decode medium tree = .ok value →
    Path.StandAt medium (pathPlaces tree) (paths value)
  refused : ∀ medium tree, (∃ place ∈ pathPlaces tree, place.LacksSteps) →
    ∃ error, decode medium tree = .error error

theorem KeepsSteps.of_read {α : Type} {decode : Medium → Json → Decoded α}
    {pathPlaces : Json → List Json} {paths : α → List Path}
    (h : ∀ medium tree value, decode medium tree = .ok value →
      Path.StandAt medium (pathPlaces tree) (paths value)) :
    KeepsSteps decode pathPlaces paths where
  read := h
  refused := by
    intro medium tree hlacks
    rcases hlacks with ⟨place, hplace, hempty⟩
    cases hread : decode medium tree with
    | error error => exact ⟨error, rfl⟩
    | ok value => exact absurd hempty ((h medium tree value hread).not_lacksSteps hplace)

/-- The index of the leaf is in range. -/
theorem Path.getElem?_last (path : Path) :
    0 < path.steps.length ∧ path.steps[path.steps.length - 1]? = some path.leaf := by
  refine ⟨List.length_pos_iff.mpr path.steps_ne_nil, ?_⟩
  rw [leaf, ← List.getLast?_eq_getElem?, List.getLast?_eq_some_getLast path.steps_ne_nil]

/-- A text is decoded from its tree, so its places are those of the tree. -/
theorem KeepsSteps.text_refused {α : Type} {decode : Medium → Json → Decoded α}
    {pathPlaces : Json → List Json} {paths : α → List Path}
    (h : KeepsSteps decode pathPlaces paths) {text : String}
    (hlacks : ∃ place ∈ pathPlaces (Json.Document.ofText text).root, place.LacksSteps) :
    ∃ error, decodeText decode text = .error error := by
  rcases h.refused .jsonText (Json.Document.ofText text).root hlacks with ⟨error, herror⟩
  refine ⟨error, ?_⟩
  simp only [decodeText, herror]
  rfl

/-- A request is read back from what it is written as. Whatever is read has the paths that stand in
the document, none of which lacks steps, and every path has a last step. -/
theorem requests_keep_steps :
    (∀ (medium : Medium) (request : Request),
      (∀ scalar ∈ request.scalars, scalar.IsReadBack) →
        Request.decode medium request.encode = .ok request) ∧
    KeepsSteps Request.decode Request.pathPlaces Request.paths ∧
    KeepsSteps Predicate.decode Predicate.pathPlaces Predicate.paths ∧
    KeepsSteps OrderBy.decode OrderBy.pathPlaces OrderBy.paths ∧
    KeepsSteps Path.decode (fun tree => [tree]) (fun path => [path]) ∧
    (∀ text : String,
      (∃ place ∈ Request.pathPlaces (Json.Document.ofText text).root, place.LacksSteps) →
        ∃ error, Request.ofText text = .error error) ∧
    ∀ path : Path,
      0 < path.steps.length ∧ path.steps[path.steps.length - 1]? = some path.leaf := by
  have hrequest : KeepsSteps Request.decode Request.pathPlaces Request.paths :=
    .of_read fun medium tree request h => Request.decode_standAt h
  refine ⟨Request.decode_encode, hrequest, .of_read ?_, .of_read ?_, .of_read ?_,
    fun text hlacks => hrequest.text_refused hlacks, Path.getElem?_last⟩
  · exact fun medium tree predicate h => Predicate.decode_standAt tree h
  · exact fun medium tree order h => OrderBy.decode_standAt h
  · intro medium tree path h
    rw [Path.StandAt, List.map_singleton, h]
    rfl

namespace People

def newYear : Instant :=
  { date := { year := 2024, month := 1, day := 1 }, minuteOfDay := 0, second := 0, nanosecond := 0 }

theorem newYear_isReadBack : (Value.instant newYear).IsReadBack := by
  have hparse : Instant.parse? newYear.text = some newYear := by decide +kernel
  rw [Value.IsReadBack, Value.decodeInstant, hparse]

/-- People named before the year began, who are not both red and from Paris. -/
def namedEarly : Request :=
  { resultType := "Person"
    predicate := some (.and [.comparison .lt (.property name) (.instant newYear),
      .not (.or [.containsAll (.property tags) [.string "red"],
        .contains (.property addresses) (livesIn "Paris")])])
    orderBy := [.descending (.property name), .byIdentity .asc]
    offset := none
    limit := some 10
    countOnly := false }

def stepless : Json :=
  .ofEntries [("result_type", .string "Person"),
    ("predicate", .tagged "Not" (.tagged "Or" (.array
      [.tagged "PropertyNull" (.ofEntries [("steps", .array [])])])))]

end People

theorem namedEarly_is_read_back_and_stepless_refused :
    (∀ scalar ∈ People.namedEarly.scalars, scalar.IsReadBack) ∧
      Request.decode .jsonText People.namedEarly.encode = .ok People.namedEarly ∧
      (∃ place ∈ Request.pathPlaces People.stepless, place.LacksSteps) ∧
      ∃ error, Request.decode .jsonText People.stepless = .error error := by
  have hscalars : ∀ scalar ∈ People.namedEarly.scalars, scalar.IsReadBack := by
    intro scalar hscalar
    have hlist : People.namedEarly.scalars =
        [.instant People.newYear, .string "red", .string "Paris"] := rfl
    simp only [hlist, List.mem_cons, List.not_mem_nil, or_false] at hscalar
    rcases hscalar with hinstant | hred | hparis
    · rw [hinstant]
      exact People.newYear_isReadBack
    · rw [hred]
      trivial
    · rw [hparis]
      trivial
  have hplace : ∃ place ∈ Request.pathPlaces People.stepless, place.LacksSteps :=
    ⟨_, List.mem_cons_self, List.mem_cons_self⟩
  rcases requests_keep_steps with ⟨hround, hrequest, _⟩
  exact ⟨hscalars, hround .jsonText People.namedEarly hscalars, hplace,
    hrequest.refused .jsonText People.stepless hplace⟩

example : Request.decode .jsonText People.stepless = .error .emptyPath := by cbv

end SlotQuery
