import Mathlib
import SlotQuery.Proofs.Placeholders

/-!
# Windows

The text after the sort keys says which rows are kept. Databases differ in how
they read it: in whether rows may be skipped without a limit, and in which limit
stands for none.
-/

namespace SlotQuery

/-- How many rows are kept at most, and how many are skipped before. -/
structure Window where
  limit : Option Nat
  offset : Nat
deriving DecidableEq, Repr, Inhabited

namespace Window

variable {α : Type} {rows : List α}

def cut (window : Window) (rows : List α) : List α :=
  match window.limit with
  | some n => (rows.drop window.offset).take n
  | none => rows.drop window.offset

/-- The window that is asked for. -/
def asked (limit offset : Option UInt64) : Window :=
  { limit := limit.map UInt64.toNat
    offset := (offset.map UInt64.toNat).getD 0 }

/-!
# Pages

A page begins where the one before it ends.
-/

end Window

/-!
# Words
-/

/-- What stands between the blanks of a text. -/
def words (text : String) : List String :=
  (text.toList.splitOn ' ').map String.ofList

theorem words_of_no_blank {word : String} (h : ' ' ∉ word.toList) : words word = [word] := by
  simp [words, List.splitOn_eq_singleton h]

theorem words_cons {word : String} (h : ' ' ∉ word.toList) (rest : String) :
    words (word ++ (" " ++ rest)) = word :: words rest := by
  have hblank : ∀ c ∈ word.toList, (c == ' ') = false := by
    intro c hc
    rw [beq_eq_false_iff_ne]
    exact fun heq => h (heq ▸ hc)
  have hsplit : (word.toList ++ ' ' :: rest.toList).splitOn ' ' =
      word.toList :: rest.toList.splitOn ' ' :=
    List.splitOnP_append_cons_of_forall_mem hblank ' ' rfl rest.toList
  have htext : (word ++ (" " ++ rest)).toList = word.toList ++ ' ' :: rest.toList := by
    rw [String.toList_append, String.toList_append]
    rfl
  rw [words, htext, hsplit, List.map_cons, String.ofList_toList, words]

theorem no_blank_toString (n : Nat) : ' ' ∉ (toString n).toList := by
  intro hmem
  have hdigit := Nat.isDigit_of_mem_toDigits (by decide) (by decide) (Nat.toList_repr ▸ hmem)
  cases hdigit

/-!
# Reading windows
-/

namespace Dialect

/-- The inner answer is missing where the number says that there is no limit. -/
def readLimit (dialect : Dialect) (number : String) : Option (Option Nat) :=
  match dialect.name with
  | "postgres" => number.toNat?.map some
  | "mysql" =>
      number.toNat?.map fun n => if n = 18446744073709551615 then none else some n
  | "sqlite" => number.toInt?.map fun n => if n < 0 then none else some n.toNat
  | _ => none

/-- Whether rows may be skipped where no limit is written. -/
def skipsAlone (dialect : Dialect) : Bool :=
  dialect.name == "postgres"

/-- The window that the text after the sort keys stands for. Numbers may be of any size. -/
def readWindow (dialect : Dialect) (text : String) : Option Window :=
  match words text with
  | [""] => some { limit := none, offset := 0 }
  | ["", "LIMIT", number] => do
      let limit ← dialect.readLimit number
      return { limit := limit, offset := 0 }
  | ["", "LIMIT", number, "OFFSET", skipped] => do
      let limit ← dialect.readLimit number
      let offset ← skipped.toNat?
      return { limit := limit, offset := offset }
  | ["", "OFFSET", skipped] =>
      if dialect.skipsAlone then do
        let offset ← skipped.toNat?
        return { limit := none, offset := offset }
      else
        none
  | _ => none

/-!
# Windows that were written

A number that is written is read as itself, or as no limit. The text that stands
for no limit is read as that.
-/

variable {dialect : Dialect}

theorem readLimit_toString (h : dialect ∈ builtIn) (n : Nat) :
    dialect.readLimit (toString n) = some (some n) ∨
      (dialect.readLimit (toString n) = some none ∧ n = 18446744073709551615) := by
  simp only [builtIn, List.mem_cons, List.not_mem_nil, or_false] at h
  rcases h with hdialect | hdialect | hdialect
  · subst hdialect
    exact Or.inl (by simp [readLimit, postgres])
  · subst hdialect
    by_cases hmax : n = 18446744073709551615
    · exact Or.inr ⟨by simp [readLimit, mysql, hmax], hmax⟩
    · exact Or.inl (by simp [readLimit, mysql, hmax])
  · subst hdialect
    have hnonneg : ¬(n : Int) < 0 := by omega
    exact Or.inl (by simp [readLimit, sqlite, hnonneg])

/-- A limit that is read as no limit is one that the rows do not go beyond. -/
def Bounds (dialect : Dialect) (limit : UInt64) (length : Nat) : Prop :=
  dialect.readLimit (toString limit.toNat) = some none → length ≤ limit.toNat

/-- Rows are skipped alone, or with a limit that is none. -/
theorem limitOffset_of_mem_builtIn (h : dialect ∈ builtIn) :
    (dialect.limitOffset = window "" ∧ dialect.skipsAlone = true) ∨
      ∃ word, dialect.limitOffset = window (" LIMIT " ++ word) ∧ ' ' ∉ word.toList ∧
        dialect.readLimit word = some none := by
  simp only [builtIn, List.mem_cons, List.not_mem_nil, or_false] at h
  rcases h with hdialect | hdialect | hdialect
  · subst hdialect
    exact Or.inl ⟨rfl, rfl⟩
  · subst hdialect
    refine Or.inr ⟨toString 18446744073709551615, rfl, no_blank_toString _, ?_⟩
    simp [readLimit, mysql]
  · subst hdialect
    refine Or.inr ⟨toString (-1 : Int), rfl, by decide, ?_⟩
    simp [readLimit, sqlite]

theorem limitOffset_none (h : dialect ∈ builtIn) : dialect.limitOffset none none = "" := by
  rcases limitOffset_of_mem_builtIn h with ⟨hwindow, _⟩ | ⟨_, hwindow, _⟩ <;> rw [hwindow] <;> rfl

theorem words_offsetText {word : String} (h : ' ' ∉ word.toList) (n : UInt64) :
    words (word ++ offsetText (some n)) = [word, "OFFSET", toString n.toNat] := by
  have htext : " OFFSET " = " " ++ ("OFFSET" ++ " ") := rfl
  rw [offsetText, htext, String.append_assoc, String.append_assoc, words_cons h,
    words_cons (by decide), words_of_no_blank (no_blank_toString _)]

theorem words_limit (rest : String) :
    words (" LIMIT " ++ rest) = "" :: "LIMIT" :: words rest := by
  have htext : " LIMIT " ++ rest = "" ++ (" " ++ ("LIMIT" ++ (" " ++ rest))) := by
    rw [String.empty_append, ← String.append_assoc, ← String.append_assoc]
    rfl
  rw [htext, words_cons (by decide), words_cons (by decide)]

theorem readWindow_limit {word : String} (h : ' ' ∉ word.toList) {limit : Option Nat}
    (hread : dialect.readLimit word = some limit) (offset : Option UInt64) :
    dialect.readWindow (" LIMIT " ++ word ++ offsetText offset) =
      some { limit := limit, offset := (offset.map UInt64.toNat).getD 0 } := by
  rw [String.append_assoc, readWindow, words_limit]
  cases offset with
  | none =>
      rw [offsetText, String.append_empty, words_of_no_blank h]
      simp [hread]
  | some n =>
      rw [words_offsetText h]
      simp [hread]

/-- What is read cuts the way that was asked for. -/
theorem exists_readWindow (h : dialect ∈ builtIn) (limit offset : Option UInt64) :
    ∃ window, dialect.readWindow (dialect.limitOffset limit offset) = some window ∧
      ∀ {α : Type} (rows : List α), (∀ n, limit = some n → dialect.Bounds n rows.length) →
        window.cut rows = (Window.asked limit offset).cut rows := by
  cases limit with
  | some n =>
      have htext : dialect.limitOffset (some n) offset =
          " LIMIT " ++ toString n.toNat ++ offsetText offset := by
        rcases limitOffset_of_mem_builtIn h with ⟨hwindow, _⟩ | ⟨_, hwindow, _⟩ <;>
          rw [hwindow] <;> rfl
      rcases readLimit_toString h n.toNat with hsome | ⟨hnone, _⟩
      · exact ⟨_, htext ▸ readWindow_limit (no_blank_toString _) hsome offset, fun _ _ => rfl⟩
      · refine ⟨_, htext ▸ readWindow_limit (no_blank_toString _) hnone offset, ?_⟩
        intro α rows hlength
        have hle := hlength n rfl hnone
        simp only [Window.cut, Window.asked, Option.map_some]
        rw [List.take_of_length_le]
        rw [List.length_drop]
        omega
  | none =>
      cases offset with
      | none =>
          refine ⟨{ limit := none, offset := 0 }, ?_, fun _ _ => rfl⟩
          rw [limitOffset_none h, readWindow, words_of_no_blank (by decide)]
          rfl
      | some n =>
          rcases limitOffset_of_mem_builtIn h with ⟨hwindow, halone⟩ | ⟨word, hwindow, hword, hnone⟩
          · refine ⟨{ limit := none, offset := n.toNat }, ?_, fun _ _ => rfl⟩
            have htext : dialect.limitOffset none (some n) = "" ++ offsetText (some n) := by
              rw [hwindow]
              rfl
            rw [htext, readWindow, words_offsetText (by decide)]
            simp [halone]
          · have htext : dialect.limitOffset none (some n) =
                " LIMIT " ++ word ++ offsetText (some n) := by
              rw [hwindow]
              rfl
            exact ⟨_, htext ▸ readWindow_limit hword hnone (some n), fun _ _ => rfl⟩

end Dialect

end SlotQuery
