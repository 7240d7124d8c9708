import SlotQuery.Proofs.Placeholders

/-!
# Names and literals in a statement

A database reads the text of a statement from the left and takes off one word, one
quoted name or one literal at a time. A name that was written for a dialect is
taken off as a whole and stands for itself, and so is a literal, whatever their
characters are. What follows has to begin in a way that ends them.
-/

namespace SlotQuery

open Identifier

/-!
# Quotes

A closing quote that stands twice belongs to what is quoted. The first one that
stands alone ends it.
-/

def readQuoted (closing : Char) : List Char → Option (List Char × List Char)
  | [] => none
  | [c] => if c = closing then some ([], []) else none
  | c :: next :: rest =>
      if c = closing then
        if next = closing then
          (readQuoted closing rest).map fun (inner, after) => (closing :: inner, after)
        else
          some ([], next :: rest)
      else
        (readQuoted closing (next :: rest)).map fun (inner, after) => (c :: inner, after)

theorem readQuoted_cons_of_ne {closing c : Char} (h : c ≠ closing) (text : List Char) :
    readQuoted closing (c :: text) =
      (readQuoted closing text).map fun (inner, after) => (c :: inner, after) := by
  cases text with
  | nil => simp [readQuoted, h]
  | cons next rest => simp [readQuoted, h]

theorem readQuoted_doubled {closing : Char} {rest : List Char} (h : rest.head? ≠ some closing)
    (inner : List Char) :
    readQuoted closing (doubled closing inner ++ closing :: rest) = some (inner, rest) := by
  induction inner with
  | nil =>
      cases rest with
      | nil => simp [doubled, readQuoted]
      | cons next later =>
          have hnext : next ≠ closing := by
            intro heq
            exact h (congrArg some heq)
          simp [doubled, readQuoted, hnext]
  | cons c later ih =>
      by_cases hc : c = closing
      · simp [doubled, hc, readQuoted, ih]
      · simp [doubled, hc, readQuoted_cons_of_ne hc, ih]

/-- A literal is opened and closed by a single quote. -/
def readLiteral : List Char → Option (List Char × List Char)
  | [] => none
  | c :: rest => if c = '\x27' then readQuoted '\x27' rest else none

theorem readLiteral_stringLiteral (value : String) {text : String}
    (h : text.toList.head? ≠ some '\x27') :
    readLiteral (stringLiteral value ++ text).toList = some (value.toList, text.toList) := by
  have htext : (stringLiteral value ++ text).toList =
      '\x27' :: (doubled '\x27' value.toList ++ '\x27' :: text.toList) := by
    simp [stringLiteral]
  rw [htext, readLiteral, if_pos rfl]
  exact readQuoted_doubled h value.toList

theorem stringLiteral_injective : Function.Injective stringLiteral := by
  intro value other h
  have hend : "".toList.head? ≠ some '\x27' := by simp
  have hvalue := readLiteral_stringLiteral value hend
  rw [h, readLiteral_stringLiteral other hend] at hvalue
  have hchars := congrArg Prod.fst (Option.some.inj hvalue)
  exact (String.toList_injective hchars).symm

/-!
# Words

A bare word goes on for as long as there are letters, digits and underscores,
and no digit may begin it. Some words are not names, in whatever case they are
written.
-/

def isKeyword (word : List Char) : Bool :=
  reservedWords.any fun reserved => reserved.toList == word.map Char.toLower

inductive Lexeme where
  | keyword (word : List Char)
  | name (name : List Char)
deriving DecidableEq, Repr

/-- What stands in front, if it is a word or a name between quotes, and what follows it. -/
def readLexeme (quote : Char) : List Char → Option (Lexeme × List Char)
  | [] => none
  | c :: rest =>
      if c = quote then
        (readQuoted quote rest).map fun (name, after) => (.name name, after)
      else if isWordCharacter c && !isNumeric c then
        let word := (c :: rest).takeWhile isWordCharacter
        let after := (c :: rest).dropWhile isWordCharacter
        some (if isKeyword word then .keyword word else .name word, after)
      else
        none

/-- No reserved word has the one character whose case is folded outside ASCII. -/
theorem isReserved_of_isKeyword {word : List Char} (h : isKeyword word = true) :
    isReserved word = true := by
  rw [isKeyword, List.any_eq_true] at h
  rcases h with ⟨reserved, hreserved, heq⟩
  have hword : reserved.toList = word.map Char.toLower := eq_of_beq heq
  have hplain : ∀ reserved ∈ reservedWords, '\u212A' ∉ reserved.toList := by decide
  have hfold : word.map foldCase = word.map Char.toLower := by
    apply List.map_congr_left
    intro c hc
    unfold foldCase
    split
    · rename_i hkelvin
      refine absurd ?_ (hplain reserved hreserved)
      rw [hword, List.mem_map]
      exact ⟨c, hc, by rw [hkelvin]; decide⟩
    · rfl
  rw [isReserved, hfold, ← hword, String.ofList_toList, List.contains_iff_mem]
  exact hreserved

theorem needsQuotes_eq_false_iff {name : List Char} :
    needsQuotes name = false ↔ isReserved name = false ∧ name ≠ [] ∧
      (∀ c ∈ name, isWordCharacter c = true) ∧ startsWithNumeral name = false := by
  simp only [needsQuotes, Bool.or_eq_false_iff, Bool.not_eq_false', List.all_eq_true, ne_eq,
    List.isEmpty_eq_false_iff, and_assoc]

/-!
# Written names

A name is read with the quotes of the dialect that it was written for.
-/

/-- A text before which a word or a quoted name ends. -/
def EndsName (quote : Char) (text : String) : Prop :=
  ∀ c ∈ text.toList.head?, isWordCharacter c = false ∧ c ≠ quote

theorem EndsName.of_head {quote c : Char} {text : String} (htext : text.toList.head? = some c)
    (hc : isWordCharacter c = false ∧ c ≠ quote) : EndsName quote text := by
  intro d hd
  rw [htext] at hd
  cases hd
  exact hc

theorem readLexeme_word {quote : Char} {name rest : List Char}
    (hquote : isWordCharacter quote = false) (hname : needsQuotes name = false)
    (hrest : ∀ c ∈ rest.head?, isWordCharacter c = false) :
    readLexeme quote (name ++ rest) = some (.name name, rest) := by
  rcases needsQuotes_eq_false_iff.mp hname with ⟨hreserved, hne, hall, hnumeral⟩
  have hkeyword : isKeyword name = false := by
    rw [Bool.eq_false_iff]
    intro h
    rw [isReserved_of_isKeyword h] at hreserved
    cases hreserved
  have hend : rest.takeWhile isWordCharacter = [] ∧ rest.dropWhile isWordCharacter = rest := by
    cases rest with
    | nil => exact ⟨rfl, rfl⟩
    | cons c later => simp [hrest c rfl]
  have hword : (name ++ rest).takeWhile isWordCharacter = name := by
    rw [List.takeWhile_append_of_pos hall, hend.left, List.append_nil]
  have hafter : (name ++ rest).dropWhile isWordCharacter = rest := by
    rw [List.dropWhile_append_of_pos hall, hend.right]
  cases name with
  | nil => exact absurd rfl hne
  | cons c later =>
      have hc : isWordCharacter c = true := hall c List.mem_cons_self
      have hdigit : isNumeric c = false := hnumeral
      have hopening : c ≠ quote := by
        intro heq
        rw [heq, hquote] at hc
        cases hc
      rw [List.cons_append] at hword hafter ⊢
      simp [readLexeme, hopening, hc, hdigit, hword, hafter, hkeyword]

theorem readLexeme_quoted {quote : Char} (hquote : isWordCharacter quote = false) (name : String)
    {text : String} (h : EndsName quote text) :
    readLexeme quote (quoted quote quote name ++ text).toList =
      some (.name name.toList, text.toList) := by
  rw [quoted, quotedChars, String.toList_append, String.toList_ofList]
  by_cases hquotes : needsQuotes name.toList = true
  · have hnext : text.toList.head? ≠ some quote := by
      intro heq
      exact (h quote heq).right rfl
    rw [if_pos hquotes, List.cons_append, List.append_assoc, List.singleton_append]
    simp [readLexeme, readQuoted_doubled hnext]
  · rw [if_neg hquotes]
    exact readLexeme_word hquote (Bool.eq_false_iff.mpr hquotes) fun c hc => (h c hc).left

namespace Dialect

/-- The quote around names. -/
def nameQuote (dialect : Dialect) : Char :=
  if dialect.name = "mysql" then '\x60' else '"'

theorem quoteIdentifier_of_mem_builtIn {dialect : Dialect} (h : dialect ∈ builtIn) :
    dialect.quoteIdentifier = quoted dialect.nameQuote dialect.nameQuote ∧
      isWordCharacter dialect.nameQuote = false := by
  simp only [builtIn, List.mem_cons, List.not_mem_nil, or_false] at h
  rcases h with hpostgres | hmysql | hsqlite
  · rw [hpostgres]
    exact ⟨rfl, by decide⟩
  · rw [hmysql]
    exact ⟨rfl, by decide⟩
  · rw [hsqlite]
    exact ⟨rfl, by decide⟩

theorem readLexeme_quoteIdentifier {dialect : Dialect} (hdialect : dialect ∈ builtIn)
    (name : String) {text : String} (h : EndsName dialect.nameQuote text) :
    readLexeme dialect.nameQuote (dialect.quoteIdentifier name ++ text).toList =
      some (.name name.toList, text.toList) := by
  rcases quoteIdentifier_of_mem_builtIn hdialect with ⟨hquoted, hquote⟩
  rw [hquoted]
  exact readLexeme_quoted hquote name h

theorem quoteIdentifier_injective {dialect : Dialect} (hdialect : dialect ∈ builtIn) :
    Function.Injective dialect.quoteIdentifier := by
  intro name other h
  have hend : EndsName dialect.nameQuote "" := by simp [EndsName]
  have hname := readLexeme_quoteIdentifier hdialect name hend
  rw [h, readLexeme_quoteIdentifier hdialect other hend] at hname
  have hchars := Lexeme.name.inj (congrArg Prod.fst (Option.some.inj hname))
  exact (String.toList_injective hchars).symm

end Dialect

/-- A name or a literal is read as a whole, stands for what was written, and leaves what follows.
So no two names and no two literals are written alike. -/
theorem names_and_literals_read_back :
    (∀ dialect ∈ Dialect.builtIn, ∀ name text : String, EndsName dialect.nameQuote text →
        readLexeme dialect.nameQuote (dialect.quoteIdentifier name ++ text).toList =
          some (.name name.toList, text.toList)) ∧
      (∀ value text : String, text.toList.head? ≠ some '\x27' →
        readLiteral (stringLiteral value ++ text).toList = some (value.toList, text.toList)) ∧
      (∀ dialect ∈ Dialect.builtIn, Function.Injective dialect.quoteIdentifier) ∧
      Function.Injective stringLiteral := by
  refine ⟨?_, ?_, fun _ => Dialect.quoteIdentifier_injective, stringLiteral_injective⟩
  · intro dialect hdialect name text hend
    exact Dialect.readLexeme_quoteIdentifier hdialect name hend
  · intro value text hend
    exact readLiteral_stringLiteral value hend

/-- A reserved word, an empty name, a name that begins and ends with the quote, and a literal with
a quote inside. -/
theorem awkward_names_read_back :
    (EndsName '"' " ASC" ∧
        readLexeme '"' "\"Order\" ASC".toList = some (.name "Order".toList, " ASC".toList)) ∧
      (EndsName '\x60' ".pk" ∧
        readLexeme '\x60' "\x60\x60.pk".toList = some (.name [], ".pk".toList)) ∧
      (EndsName '"' ", " ∧
        readLexeme '"' "\"\"\"a\"\"\", ".toList = some (.name "\"a\"".toList, ", ".toList)) ∧
      (")".toList.head? ≠ some '\x27' ∧
        readLiteral "'O''Brien')".toList = some ("O'Brien".toList, ")".toList)) := by
  rcases names_and_literals_read_back with ⟨hnames, hliterals, _⟩
  have hspace : EndsName '"' " ASC" := .of_head rfl (by decide)
  have hdot : EndsName '\x60' ".pk" := .of_head rfl (by decide)
  have hcomma : EndsName '"' ", " := .of_head rfl (by decide)
  have hbracket : ")".toList.head? ≠ some '\x27' := by decide
  refine ⟨⟨hspace, ?_⟩, ⟨hdot, ?_⟩, ⟨hcomma, ?_⟩, ⟨hbracket, ?_⟩⟩
  · exact hnames .postgres (by simp [Dialect.builtIn]) "Order" " ASC" hspace
  · exact hnames .mysql (by simp [Dialect.builtIn]) "" ".pk" hdot
  · exact hnames .sqlite (by simp [Dialect.builtIn]) "\"a\"" ", " hcomma
  · exact hliterals "O'Brien" ")" hbracket

end SlotQuery
