import Mathlib.Data.List.Forall2
import Mathlib.Data.List.Infix
import SlotQuery.Proofs.Database
import SlotQuery.Proofs.Lexemes

/-!
# Patterns of positions

A row lies below the top of its collection when its position begins with the
marker and goes on. Databases test this on the text of the position, with LIKE or
with a pattern of labels. The pattern of labels tells exactly these positions. In
LIKE an underscore stands for any character, so a marker with an underscore lets
positions of other markers through, and only such a marker does.
-/

namespace SlotQuery

/-!
# Labels

A label is a plain word, which may begin with a digit.
-/

def IsLabel (label : List Char) : Prop :=
  label ≠ [] ∧ ∀ c ∈ label, Identifier.isWordCharacter c = true

instance (label : List Char) : Decidable (IsLabel label) :=
  decidable_of_iff ((!label.isEmpty && label.all Identifier.isWordCharacter) = true)
    (by simp [IsLabel])

theorem IsLabel.notMem {label : List Char} (h : IsLabel label) {c : Char}
    (hc : Identifier.isWordCharacter c = false) : c ∉ label := by
  intro hmem
  rw [h.right c hmem] at hc
  cases hc

theorem splitOn_cons_of_isLabel {label : List Char} (h : IsLabel label) (rest : List Char) :
    (label ++ '.' :: rest).splitOn '.' = label :: rest.splitOn '.' := by
  have hplain : ∀ c ∈ label, (c == '.') = false := by
    intro c hc
    rw [beq_eq_false_iff_ne]
    intro heq
    rw [heq] at hc
    exact h.notMem (by decide) hc
  exact List.splitOnP_append_cons_of_forall_mem hplain '.' rfl rest

/-- A position as it is stored: labels with dots between them. -/
def CollectionPath.IsStored (path : CollectionPath) : Prop :=
  path.segments ≠ [] ∧ ∀ segment ∈ path.segments, IsLabel segment.toList

instance (path : CollectionPath) : Decidable path.IsStored :=
  decidable_of_iff
    ((!path.segments.isEmpty && path.segments.all fun segment => IsLabel segment.toList) = true)
    (by simp [CollectionPath.IsStored])

theorem CollectionPath.toList_text (path : CollectionPath) :
    path.text.toList = ['.'].intercalate (path.segments.map String.toList) := by
  rw [text, String.toList_intercalate]
  rfl

theorem CollectionPath.IsStored.splitOn {path : CollectionPath} (h : path.IsStored) :
    path.text.toList.splitOn '.' = path.segments.map String.toList := by
  rw [path.toList_text]
  apply List.splitOn_intercalate
  · intro label hlabel
    rcases List.mem_map.mp hlabel with ⟨segment, hsegment, heq⟩
    rw [← heq]
    exact (h.right segment hsegment).notMem (by decide)
  · intro hnil
    exact h.left (List.map_eq_nil_iff.mp hnil)

/-!
# Below the top
-/

namespace CollectionPathPattern

variable {marker : String} {path : CollectionPath}

theorem covers_below_top_iff :
    (below (.top marker)).covers path = true ↔
      ∃ later, later ≠ [] ∧ path.segments = marker :: later := by
  rw [covers, Bool.and_eq_true, List.isPrefixOf_iff_prefix, decide_eq_true_eq]
  show [marker] <+: path.segments ∧ 1 < path.segments.length ↔ _
  cases path.segments with
  | nil => simp
  | cons first later =>
      rw [List.cons_prefix_cons, List.length_cons, Nat.lt_add_left_iff_pos, List.length_pos_iff]
      constructor
      · intro h
        exact ⟨later, h.right, by rw [h.left.left]⟩
      · intro h
        rcases h with ⟨_, hlater, heq⟩
        cases heq
        exact ⟨⟨rfl, List.nil_prefix⟩, hlater⟩

/-- The text of the position begins with the marker and a dot. -/
theorem covers_iff_text (hmarker : IsLabel marker.toList) (h : path.IsStored) :
    (below (.top marker)).covers path = true ↔
      ∃ rest, path.text.toList = marker.toList ++ '.' :: rest := by
  rw [covers_below_top_iff]
  constructor
  · intro hcovers
    rcases hcovers with ⟨later, hlater, hsegments⟩
    cases later with
    | nil => exact absurd rfl hlater
    | cons next more =>
        refine ⟨['.'].intercalate ((next :: more).map String.toList), ?_⟩
        rw [path.toList_text, hsegments]
        simp [List.intercalate]
  · intro hbegins
    rcases hbegins with ⟨rest, hrest⟩
    have hsplit : path.segments.map String.toList = marker.toList :: rest.splitOn '.' := by
      rw [← h.splitOn, hrest, splitOn_cons_of_isLabel hmarker]
    cases hsegments : path.segments with
    | nil => exact absurd hsegments h.left
    | cons first later =>
        rw [hsegments, List.map_cons, List.cons.injEq] at hsplit
        refine ⟨later, ?_, ?_⟩
        · intro hnil
          rw [hnil] at hsplit
          exact List.splitOnP_ne_nil _ _ hsplit.right.symm
        · rw [String.toList_injective hsplit.left]

end CollectionPathPattern

/-!
# LIKE

A percent sign stands for any text and an underscore for any one character.
-/

def likeAccepts : List Char → List Char → Bool
  | [], text => text.isEmpty
  | c :: pattern, text =>
      if c = '%' then
        text.tails.any (likeAccepts pattern)
      else
        match text with
        | [] => false
        | d :: rest => (c == '_' || c == d) && likeAccepts pattern rest

/-- The character of a pattern lets the other one through. -/
def LetsThrough (c d : Char) : Prop :=
  c = '_' ∨ c = d

theorem any_tails_of_nil {α : Type} {accepts : List α → Bool} (h : accepts [] = true)
    (rest : List α) : rest.tails.any accepts = true :=
  List.any_eq_true.mpr ⟨[], (List.mem_tails [] rest).mpr List.nil_suffix, h⟩

theorem likeAccepts_percent (text : List Char) : likeAccepts ['%'] text = true := by
  have hany : text.tails.any (likeAccepts []) = true := any_tails_of_nil rfl text
  cases text with
  | nil => exact hany
  | cons c rest => exact hany

theorem likeAccepts_cons_iff {c : Char} (hc : c ≠ '%') {pattern text : List Char} :
    likeAccepts (c :: pattern) text = true ↔
      ∃ d rest, text = d :: rest ∧ LetsThrough c d ∧ likeAccepts pattern rest = true := by
  cases text with
  | nil => simp [likeAccepts, hc]
  | cons d rest => simp [likeAccepts, hc, LetsThrough]

/-- Characters without a percent sign, then a dot, then anything. -/
theorem likeAccepts_below_iff {marker text : List Char} (hmarker : '%' ∉ marker) :
    likeAccepts (marker ++ ['.', '%']) text = true ↔
      ∃ beginning rest, text = beginning ++ '.' :: rest ∧
        List.Forall₂ LetsThrough marker beginning := by
  induction marker generalizing text with
  | nil =>
      rw [List.nil_append, likeAccepts_cons_iff (by decide)]
      constructor
      · intro h
        rcases h with ⟨d, rest, htext, hdot, _⟩
        rcases hdot with hunderscore | heq
        · exact absurd hunderscore (by decide)
        · exact ⟨[], rest, by rw [htext, ← heq]; rfl, .nil⟩
      · intro h
        rcases h with ⟨beginning, rest, htext, hbeginning⟩
        cases hbeginning
        exact ⟨'.', rest, htext, Or.inr rfl, likeAccepts_percent rest⟩
  | cons c later ih =>
      rw [List.mem_cons, not_or] at hmarker
      rw [List.cons_append, likeAccepts_cons_iff (Ne.symm hmarker.left)]
      constructor
      · intro h
        rcases h with ⟨d, rest, htext, hd, hrest⟩
        rcases (ih hmarker.right).mp hrest with ⟨beginning, rest', hsplit, hbeginning⟩
        exact ⟨d :: beginning, rest', by rw [htext, hsplit]; rfl, .cons hd hbeginning⟩
      · intro h
        rcases h with ⟨beginning, rest, htext, hbeginning⟩
        cases hbeginning with
        | @cons _ d _ beginning' hd hbeginning' =>
            exact ⟨d, beginning' ++ '.' :: rest, htext, hd,
              (ih hmarker.right).mpr ⟨beginning', rest, rfl, hbeginning'⟩⟩

theorem forall₂_letsThrough_self (marker : List Char) :
    List.Forall₂ LetsThrough marker marker := by
  induction marker with
  | nil => exact .nil
  | cons c rest ih => exact .cons (Or.inr rfl) ih

theorem eq_of_forall₂_letsThrough {marker beginning : List Char} (hmarker : '_' ∉ marker)
    (h : List.Forall₂ LetsThrough marker beginning) : beginning = marker := by
  induction h with
  | nil => rfl
  | cons hd _ ih =>
      rw [List.mem_cons, not_or] at hmarker
      rcases hd with hunderscore | heq
      · exact absurd hunderscore.symm hmarker.left
      · rw [ih hmarker.right, heq]

/-!
# Patterns of labels

A pattern is cut at its dots. What is not a star stands for itself, and a star
for as many labels as its braces ask for at least.
-/

inductive LabelItem where
  | label (text : List Char)
  | several (least : Nat)
deriving DecidableEq, Repr

def LabelItem.read (text : List Char) : Option LabelItem :=
  if IsLabel text then
    some (.label text)
  else
    match text with
    | ['*'] => some (.several 0)
    | '*' :: '\x7b' :: rest =>
        match Digits.readAll rest with
        | some (least, [',', '\x7d']) => some (.several least)
        | _ => none
    | _ => none

def readLabelPattern (text : List Char) : Option (List LabelItem) :=
  (text.splitOn '.').mapM LabelItem.read

def labelsAccept : List LabelItem → List (List Char) → Bool
  | [], labels => labels.isEmpty
  | .label text :: items, labels =>
      match labels with
      | [] => false
      | first :: rest => first == text && labelsAccept items rest
  | .several least :: items, labels =>
      decide (least ≤ labels.length) && (labels.drop least).tails.any (labelsAccept items)

/-- Exactly one label, then one or more. -/
def LabelItem.below (marker : String) : List LabelItem :=
  [.label marker.toList, .several 1]

theorem readLabelPattern_below {marker : String} (h : IsLabel marker.toList) :
    readLabelPattern (CollectionPathPattern.below (.top marker)).labelPattern.toList =
      some (LabelItem.below marker) := by
  have htext : (CollectionPathPattern.below (.top marker)).labelPattern.toList =
      marker.toList ++ '.' :: "*\x7b1,\x7d".toList := by
    simp [CollectionPathPattern.labelPattern, CollectionPathPattern.below, CollectionPath.top,
      CollectionPath.text]
  have hlabel : LabelItem.read marker.toList = some (.label marker.toList) := if_pos h
  have hstar : ("*\x7b1,\x7d".toList.splitOn '.').mapM LabelItem.read = some [.several 1] := by
    decide
  rw [readLabelPattern, htext, splitOn_cons_of_isLabel h, List.mapM_cons, hlabel, hstar]
  rfl

theorem labelsAccept_below_iff {marker : String} {path : CollectionPath} :
    labelsAccept (LabelItem.below marker) (path.segments.map String.toList) = true ↔
      (CollectionPathPattern.below (.top marker)).covers path = true := by
  rw [CollectionPathPattern.covers_below_top_iff]
  cases path.segments with
  | nil => simp [LabelItem.below, labelsAccept]
  | cons first later =>
      rw [LabelItem.below, List.map_cons, labelsAccept, labelsAccept, any_tails_of_nil rfl,
        Bool.and_true, Bool.and_eq_true, beq_iff_eq, decide_eq_true_eq, List.length_map,
        Nat.one_le_iff_ne_zero, ne_eq, List.length_eq_zero_iff]
      constructor
      · intro h
        exact ⟨later, h.right, by rw [String.toList_injective h.left]⟩
      · intro h
        rcases h with ⟨_, hlater, heq⟩
        cases heq
        exact ⟨rfl, hlater⟩

/-!
# Tests of positions

The operator after the column says what kind of pattern follows, which is written
as a literal.
-/

inductive PositionTest where
  | like (pattern : List Char)
  | labels (pattern : List LabelItem)
deriving DecidableEq, Repr

namespace PositionTest

/-- A literal with nothing after it. -/
def readPattern (text : List Char) : Option (List Char) :=
  match readLiteral text with
  | some (pattern, []) => some pattern
  | _ => none

def readTest (text : List Char) : Option PositionTest :=
  match text.dropPrefix? " LIKE ".toList, text.dropPrefix? " ~ ".toList with
  | some literal, _ => (readPattern literal).map like
  | none, some literal => ((readPattern literal).bind readLabelPattern).map labels
  | none, none => none

/-- The test in a text that begins with the column. -/
def read (column text : String) : Option PositionTest :=
  (text.toList.dropPrefix? column.toList).bind readTest

/-- Whether a row with the position is found. -/
def accepts (test : PositionTest) (path : CollectionPath) : Bool :=
  match test with
  | like pattern => likeAccepts pattern path.text.toList
  | labels pattern => labelsAccept pattern (path.text.toList.splitOn '.')

theorem readPattern_stringLiteral (value : String) :
    readPattern (stringLiteral value).toList = some value.toList := by
  have hread := readLiteral_stringLiteral value (by simp : "".toList.head? ≠ some '\x27')
  rw [String.append_empty] at hread
  rw [readPattern, hread]
  rfl

theorem read_likeBelow (column : String) (pattern : CollectionPathPattern) :
    read column (likeBelow column pattern) = some (.like pattern.likePattern.toList) := by
  have hcolumn : (likeBelow column pattern).toList.dropPrefix? column.toList =
      some (" LIKE ".toList ++ (stringLiteral pattern.likePattern).toList) := by
    rw [likeBelow, String.toList_append, String.toList_append, List.append_assoc]
    exact List.dropPrefix?_append_of_beq _ (beq_self_eq_true _)
  have htest : (" LIKE ".toList ++ (stringLiteral pattern.likePattern).toList).dropPrefix?
      " LIKE ".toList = some (stringLiteral pattern.likePattern).toList :=
    List.dropPrefix?_append_of_beq _ (beq_self_eq_true _)
  rw [read, hcolumn, Option.bind_some, readTest, htest]
  simp only [readPattern_stringLiteral, Option.map_some]

theorem read_labels (column : String) (pattern : CollectionPathPattern) :
    read column (Dialect.postgres.pathBelow column pattern) =
      (readLabelPattern pattern.labelPattern.toList).map labels := by
  have hcolumn : (Dialect.postgres.pathBelow column pattern).toList.dropPrefix? column.toList =
      some (" ~ ".toList ++ (stringLiteral pattern.labelPattern).toList) := by
    rw [Dialect.postgres, String.toList_append, String.toList_append, List.append_assoc]
    exact List.dropPrefix?_append_of_beq _ (beq_self_eq_true _)
  have hother : (" ~ ".toList ++ (stringLiteral pattern.labelPattern).toList).dropPrefix?
      " LIKE ".toList = none := by
    rfl
  have htest : (" ~ ".toList ++ (stringLiteral pattern.labelPattern).toList).dropPrefix?
      " ~ ".toList = some (stringLiteral pattern.labelPattern).toList :=
    List.dropPrefix?_append_of_beq _ (beq_self_eq_true _)
  rw [read, hcolumn, Option.bind_some, readTest, hother, htest]
  simp only [readPattern_stringLiteral, Option.bind_some]

end PositionTest

/-!
# What the tests accept

The labels of a position are those of its text. LIKE compares the text character
by character, and does not see where the first label ends.
-/

section

variable {marker : String} {path : CollectionPath}

theorem accepts_labels_iff (h : path.IsStored) :
    (PositionTest.labels (LabelItem.below marker)).accepts path = true ↔
      (CollectionPathPattern.below (.top marker)).covers path = true := by
  rw [PositionTest.accepts, h.splitOn, labelsAccept_below_iff]

theorem accepts_like_iff (hmarker : IsLabel marker.toList) :
    (PositionTest.like (CollectionPathPattern.below (.top marker)).likePattern.toList).accepts
        path = true ↔
      ∃ beginning rest, path.text.toList = beginning ++ '.' :: rest ∧
        List.Forall₂ LetsThrough marker.toList beginning := by
  have hpattern : (CollectionPathPattern.below (.top marker)).likePattern.toList =
      marker.toList ++ ['.', '%'] := by
    simp [CollectionPathPattern.likePattern, CollectionPathPattern.below, CollectionPath.top,
      CollectionPath.text]
  rw [PositionTest.accepts, hpattern, likeAccepts_below_iff (hmarker.notMem (by decide))]

theorem accepts_like_of_covers (hmarker : IsLabel marker.toList) (h : path.IsStored)
    (hcovers : (CollectionPathPattern.below (.top marker)).covers path = true) :
    (PositionTest.like (CollectionPathPattern.below (.top marker)).likePattern.toList).accepts
      path = true := by
  rcases (CollectionPathPattern.covers_iff_text hmarker h).mp hcovers with ⟨rest, htext⟩
  exact (accepts_like_iff hmarker).mpr ⟨_, rest, htext, forall₂_letsThrough_self _⟩

theorem accepts_like_iff_covers (hmarker : IsLabel marker.toList) (hplain : '_' ∉ marker.toList)
    (h : path.IsStored) :
    (PositionTest.like (CollectionPathPattern.below (.top marker)).likePattern.toList).accepts
        path = true ↔
      (CollectionPathPattern.below (.top marker)).covers path = true := by
  constructor
  · intro haccepts
    rcases (accepts_like_iff hmarker).mp haccepts with ⟨beginning, rest, htext, hbeginning⟩
    rw [eq_of_forall₂_letsThrough hplain hbeginning] at htext
    exact (CollectionPathPattern.covers_iff_text hmarker h).mpr ⟨rest, htext⟩
  · intro hcovers
    exact accepts_like_of_covers hmarker h hcovers

end

/-!
# Markers with underscores

Another marker comes from putting a letter in the place of each underscore.
-/

def fillUnderscore (c : Char) : Char :=
  if c = '_' then 'a' else c

/-- The first position below the other marker. -/
def CollectionPath.beside (marker : String) : CollectionPath :=
  { segments := [String.ofList (marker.toList.map fillUnderscore), "0"] }

theorem fillUnderscore_ne (c : Char) : fillUnderscore c ≠ '_' := by
  unfold fillUnderscore
  split
  · decide
  · assumption

theorem letsThrough_fillUnderscore (c : Char) : LetsThrough c (fillUnderscore c) := by
  unfold fillUnderscore
  split
  · rename_i hunderscore
    exact Or.inl hunderscore
  · exact Or.inr rfl

theorem isLabel_fillUnderscore {label : List Char} (h : IsLabel label) :
    IsLabel (label.map fillUnderscore) := by
  constructor
  · intro hnil
    exact h.left (List.map_eq_nil_iff.mp hnil)
  · intro c hc
    rcases List.mem_map.mp hc with ⟨d, hd, heq⟩
    rw [← heq, fillUnderscore]
    split
    · decide
    · exact h.right d hd

section

variable {marker : String}

theorem beside_isStored (h : IsLabel marker.toList) : (CollectionPath.beside marker).IsStored := by
  constructor
  · exact List.cons_ne_nil _ _
  · intro segment hsegment
    rcases List.mem_cons.mp hsegment with hfirst | hsecond
    · rw [hfirst, String.toList_ofList]
      exact isLabel_fillUnderscore h
    · rw [List.mem_singleton.mp hsecond]
      decide

theorem beside_accepted (h : IsLabel marker.toList) :
    (PositionTest.like (CollectionPathPattern.below (.top marker)).likePattern.toList).accepts
      (.beside marker) = true := by
  refine (accepts_like_iff h).mpr ⟨marker.toList.map fillUnderscore, ['0'], ?_, ?_⟩
  · simp [CollectionPath.toList_text, CollectionPath.beside, List.intercalate]
  · rw [List.forall₂_map_right_iff, List.forall₂_same]
    intro c _
    exact letsThrough_fillUnderscore c

theorem beside_not_covered (h : '_' ∈ marker.toList) :
    (CollectionPathPattern.below (.top marker)).covers (.beside marker) = false := by
  rw [Bool.eq_false_iff, ne_eq, CollectionPathPattern.covers_below_top_iff]
  intro hcovers
  rcases hcovers with ⟨later, _, hsegments⟩
  have hfirst : String.ofList (marker.toList.map fillUnderscore) = marker :=
    (List.cons.inj hsegments).left
  rw [← hfirst, String.toList_ofList, List.mem_map] at h
  rcases h with ⟨c, _, hc⟩
  exact fillUnderscore_ne c hc

end

/-- The pattern of labels accepts the positions below the marker. LIKE accepts what begins with the
characters of the marker, any of them for an underscore, and a dot. So it misses none of these
positions, and accepts no others exactly when the marker has no underscore. -/
theorem position_tests_accept {marker : String} (hmarker : IsLabel marker.toList)
    (column : String) :
    (∃ test, PositionTest.read column
          (Dialect.postgres.pathBelow column (.below (.top marker))) = some test ∧
        ∀ path : CollectionPath, path.IsStored → (test.accepts path = true ↔
          (CollectionPathPattern.below (.top marker)).covers path = true)) ∧
      ∀ dialect ∈ [Dialect.mysql, Dialect.sqlite], ∃ test,
        PositionTest.read column (dialect.pathBelow column (.below (.top marker))) = some test ∧
          (∀ path : CollectionPath, path.IsStored → (test.accepts path = true ↔
            ∃ beginning rest, path.text.toList = beginning ++ '.' :: rest ∧
              List.Forall₂ LetsThrough marker.toList beginning)) ∧
          (∀ path : CollectionPath, path.IsStored →
            (CollectionPathPattern.below (.top marker)).covers path = true →
              test.accepts path = true) ∧
          ((∀ path : CollectionPath, path.IsStored → (test.accepts path = true ↔
              (CollectionPathPattern.below (.top marker)).covers path = true)) ↔
            '_' ∉ marker.toList) := by
  constructor
  · refine ⟨.labels (LabelItem.below marker), ?_, fun path => accepts_labels_iff⟩
    rw [PositionTest.read_labels, readLabelPattern_below hmarker]
    rfl
  · intro dialect hdialect
    have hlike : dialect.pathBelow = likeBelow := by
      rcases List.mem_cons.mp hdialect with hmysql | hrest
      · rw [hmysql]
        rfl
      · rw [List.mem_singleton.mp hrest]
        rfl
    refine ⟨.like (CollectionPathPattern.below (.top marker)).likePattern.toList, ?_,
      fun path _ => accepts_like_iff hmarker, fun path => accepts_like_of_covers hmarker, ?_, ?_⟩
    · rw [hlike, PositionTest.read_likeBelow]
    · intro hagree hunderscore
      have hcovers := (hagree _ (beside_isStored hmarker)).mp (beside_accepted hmarker)
      rw [beside_not_covered hunderscore] at hcovers
      cases hcovers
    · intro hplain path hstored
      exact accepts_like_iff_covers hmarker hplain hstored

/-- The marker has an underscore, and the position is below another marker. -/
theorem underscore_lets_another_marker_through :
    IsLabel "T_P".toList ∧ CollectionPath.IsStored { segments := ["TXP", "0"] } ∧
      (∃ test, PositionTest.read "t1.collection_path" (Dialect.sqlite.pathBelow
          "t1.collection_path" (.below (.top "T_P"))) = some test ∧
        test.accepts { segments := ["TXP", "0"] } = true) ∧
      (∃ test, PositionTest.read "t1.collection_path" (Dialect.postgres.pathBelow
          "t1.collection_path" (.below (.top "T_P"))) = some test ∧
        test.accepts { segments := ["TXP", "0"] } = false) ∧
      (CollectionPathPattern.below (.top "T_P")).covers { segments := ["TXP", "0"] } = false := by
  refine ⟨by decide, by decide, ⟨.like "T_P.%".toList, by decide, by decide⟩,
    ⟨.labels [.label "T_P".toList, .several 1], by decide, by decide⟩, by decide⟩

theorem first_tag_is_below_top :
    IsLabel "TOP".toList ∧ CollectionPath.IsStored { segments := ["TOP", "0"] } ∧
      ∃ test, PositionTest.read "t1.collection_path" (Dialect.sqlite.pathBelow
          "t1.collection_path" (.below (.top "TOP"))) = some test ∧
        test.accepts { segments := ["TOP", "0"] } = true := by
  have hmarker : IsLabel "TOP".toList := by decide
  have hstored : CollectionPath.IsStored { segments := ["TOP", "0"] } := by decide
  rcases (position_tests_accept hmarker "t1.collection_path").right .sqlite (by simp) with
    ⟨test, hread, _, hbelow, _⟩
  exact ⟨hmarker, hstored, test, hread, hbelow _ hstored (by decide)⟩

end SlotQuery
