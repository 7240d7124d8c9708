import Mathlib.Data.Set.Function
import SlotQuery.Name

/-!
# Names and their texts

The text of a name does not say which of its colons stands between the two parts,
and is read as if it were the last one. So a name is read back from its text if
both parts are there and the member has no colon, and no other name is ever read.
-/

namespace SlotQuery

namespace QualifiedName

/-!
# The last separator

The separator does not occur again behind the place where a list is cut. There is
only one such place, and it is the last one that has the separator.
-/

section

variable {separator : Char} {text before after : List Char}

theorem splitAtLast_eq_none_iff : splitAtLast separator text = none ↔ separator ∉ text := by
  induction text with
  | nil => simp [splitAtLast]
  | cons c rest ih =>
      rw [splitAtLast, List.mem_cons, not_or, ← ih]
      cases splitAtLast separator rest with
      | some parts => simp
      | none => simp [eq_comm]

theorem splitAtLast_append (before : List Char) (h : separator ∉ after) :
    splitAtLast separator (before ++ separator :: after) = some (before, after) := by
  induction before with
  | nil => simp [splitAtLast, splitAtLast_eq_none_iff.mpr h]
  | cons c rest ih => rw [List.cons_append, splitAtLast, ih]

theorem eq_append_of_splitAtLast (h : splitAtLast separator text = some (before, after)) :
    text = before ++ separator :: after ∧ separator ∉ after := by
  induction text generalizing before with
  | nil => cases h
  | cons c rest ih =>
      rw [splitAtLast] at h
      cases hrest : splitAtLast separator rest with
      | some parts =>
          rw [hrest] at h
          cases h
          rcases ih hrest with ⟨heq, hafter⟩
          exact ⟨by rw [heq, List.cons_append], hafter⟩
      | none =>
          -- The separator is not in the rest, so this is its last place if it is one at all.
          rw [hrest] at h
          by_cases hc : c = separator
          · simp only [if_pos hc] at h
            cases h
            exact ⟨by rw [hc, List.nil_append], splitAtLast_eq_none_iff.mp hrest⟩
          · simp only [if_neg hc] at h
            cases h

theorem splitAtLast_eq_some_iff :
    splitAtLast separator text = some (before, after) ↔
      text = before ++ separator :: after ∧ separator ∉ after := by
  constructor
  · exact eq_append_of_splitAtLast
  · intro h
    rw [h.left]
    exact splitAtLast_append before h.right

/-- The place is the last one where the list has the separator. -/
def IsLastPlace (separator : Char) (text : List Char) (place : Nat) : Prop :=
  text[place]? = some separator ∧ ∀ later, place < later → text[later]? ≠ some separator

theorem isLastPlace_length_append (before : List Char) (h : separator ∉ after) :
    IsLastPlace separator (before ++ separator :: after) before.length := by
  constructor
  · simp
  · intro later hlater heq
    rw [List.getElem?_append_right hlater.le, List.getElem?_cons] at heq
    rw [if_neg (by omega)] at heq
    exact h (List.mem_of_getElem? heq)

theorem IsLastPlace.splitAtLast_eq {place : Nat} (h : IsLastPlace separator text place) :
    splitAtLast separator text = some (text.take place, text.drop (place + 1)) := by
  rcases h with ⟨hplace, hlater⟩
  rcases List.getElem?_eq_some_iff.mp hplace with ⟨hlt, hseparator⟩
  rw [splitAtLast_eq_some_iff]
  constructor
  · rw [← hseparator, List.getElem_cons_drop, List.take_append_drop]
  · intro hmem
    rcases List.mem_iff_getElem?.mp hmem with ⟨i, hi⟩
    rw [List.getElem?_drop] at hi
    exact hlater (place + 1 + i) (by omega) hi

end

/-!
# Reading names

A member that has a colon itself seems to begin behind it, and the text of a name
that lacks a part is not read at all or is cut somewhere else.
-/

structure IsUnambiguous (name : QualifiedName) : Prop where
  typeName_ne_empty : name.typeName ≠ ""
  member_ne_empty : name.member ≠ ""
  colon_notMem_member : ':' ∉ name.member.toList

/-- The last colon of the text has characters on both of its sides. -/
def HasTwoParts (text : String) : Prop :=
  ∃ place, IsLastPlace ':' text.toList place ∧ 0 < place ∧ place + 1 < text.length

theorem toList_text (name : QualifiedName) :
    name.text.toList = name.typeName.toList ++ ':' :: name.member.toList := by
  simp [text]

variable {text : String} {name : QualifiedName}

theorem parse?_eq_some_iff_splitAtLast :
    parse? text = some name ↔
      splitAtLast ':' text.toList = some (name.typeName.toList, name.member.toList) ∧
        name.typeName ≠ "" ∧ name.member ≠ "" := by
  rw [parse?]
  cases splitAtLast ':' text.toList with
  | none => simp
  | some parts =>
      rcases parts with ⟨before, after⟩
      have hmissing : (before.isEmpty || after.isEmpty) = true ↔ before = [] ∨ after = [] := by
        rw [Bool.or_eq_true, List.isEmpty_iff, List.isEmpty_iff]
      simp only [hmissing]
      constructor
      · intro h
        by_cases hempty : before = [] ∨ after = []
        · rw [if_pos hempty] at h
          cases h
        · rw [if_neg hempty] at h
          cases h
          rw [not_or] at hempty
          simp only [String.toList_ofList, ne_eq, String.ofList_eq_empty_iff, true_and]
          exact hempty
      · intro h
        rcases h with ⟨hparts, htypeName, hmember⟩
        cases hparts
        rw [if_neg (by simp [htypeName, hmember]), String.ofList_toList, String.ofList_toList]

/-- The only name that is read from a text is the unambiguous one that it is the text of. -/
theorem parse?_eq_some_iff : parse? text = some name ↔ name.IsUnambiguous ∧ name.text = text := by
  rw [parse?_eq_some_iff_splitAtLast, splitAtLast_eq_some_iff, ← toList_text, String.toList_inj]
  constructor
  · intro h
    rcases h with ⟨⟨htext, hcolon⟩, htypeName, hmember⟩
    exact ⟨⟨htypeName, hmember, hcolon⟩, htext.symm⟩
  · intro h
    rcases h with ⟨⟨htypeName, hmember, hcolon⟩, htext⟩
    exact ⟨⟨htext.symm, hcolon⟩, htypeName, hmember⟩

theorem parse?_text_iff (name : QualifiedName) :
    parse? name.text = some name ↔ name.IsUnambiguous := by
  rw [parse?_eq_some_iff, and_iff_left rfl]

theorem IsUnambiguous.hasTwoParts (h : name.IsUnambiguous) : HasTwoParts name.text := by
  have htypeName : 0 < name.typeName.toList.length :=
    List.length_pos_iff.mpr (mt String.toList_eq_nil_iff.mp h.typeName_ne_empty)
  have hmember : 0 < name.member.toList.length :=
    List.length_pos_iff.mpr (mt String.toList_eq_nil_iff.mp h.member_ne_empty)
  refine ⟨name.typeName.toList.length, ?_, htypeName, ?_⟩
  · rw [toList_text]
    exact isLastPlace_length_append _ h.colon_notMem_member
  · rw [← String.length_toList, toList_text, List.length_append, List.length_cons]
    omega

/-- A text is read exactly if its last colon has characters on both of its sides. -/
theorem exists_parse?_iff : (∃ name, parse? text = some name) ↔ HasTwoParts text := by
  constructor
  · intro h
    rcases h with ⟨name, hname⟩
    rcases parse?_eq_some_iff.mp hname with ⟨hunambiguous, htext⟩
    rw [← htext]
    exact hunambiguous.hasTwoParts
  · intro h
    rcases h with ⟨place, hlast, hbefore, hafter⟩
    refine ⟨⟨String.ofList (text.toList.take place), String.ofList (text.toList.drop (place + 1))⟩,
      parse?_eq_some_iff_splitAtLast.mpr ⟨?_, ?_, ?_⟩⟩
    · rw [hlast.splitAtLast_eq, String.toList_ofList, String.toList_ofList]
    · rw [ne_eq, String.ofList_eq_empty_iff, ← List.length_eq_zero_iff, List.length_take,
        String.length_toList]
      omega
    · rw [ne_eq, String.ofList_eq_empty_iff, List.drop_eq_nil_iff, String.length_toList]
      omega

/-!
# Names for texts

Reading pairs the texts with two parts and the unambiguous names one to one, and
the way back is to write the name.
-/

theorem parse?_injOn : Set.InjOn parse? {text | HasTwoParts text} := by
  intro text htext other _ heq
  rcases exists_parse?_iff.mpr htext with ⟨name, hname⟩
  have hother : parse? other = some name := heq.symm.trans hname
  rw [← (parse?_eq_some_iff.mp hname).right, (parse?_eq_some_iff.mp hother).right]

theorem parse?_bijOn :
    Set.BijOn parse? {text | HasTwoParts text} (some '' {name | IsUnambiguous name}) := by
  refine Set.BijOn.mk ?_ parse?_injOn ?_
  · intro text htext
    rcases exists_parse?_iff.mpr htext with ⟨name, hname⟩
    exact ⟨name, (parse?_eq_some_iff.mp hname).left, hname.symm⟩
  · intro result hresult
    rcases hresult with ⟨name, hname, heq⟩
    exact ⟨name.text, hname.hasTwoParts, ((parse?_text_iff name).mpr hname).trans heq⟩

/-- A name is read back from its text exactly if it is unambiguous, and what any text is read as is
unambiguous and has this text. So reading pairs all texts whose last colon has something on both
sides with all unambiguous names. -/
theorem unambiguous_names_read_back :
    (∀ name : QualifiedName, parse? name.text = some name ↔ name.IsUnambiguous) ∧
      (∀ text name, parse? text = some name → name.IsUnambiguous ∧ name.text = text) ∧
      (∀ text, (∃ name, parse? text = some name) ↔ HasTwoParts text) ∧
      Set.BijOn parse? {text | HasTwoParts text} (some '' {name | IsUnambiguous name}) := by
  refine ⟨parse?_text_iff, ?_, ?_, parse?_bijOn⟩
  · intro text name h
    exact parse?_eq_some_iff.mp h
  · intro text
    exact exists_parse?_iff

/-- A colon in the type name does no harm. With the colon in the member, the same text is read as
another name. -/
theorem nested_type_is_read_back :
    (parse? "acme:Person:age" = some ⟨"acme:Person", "age"⟩ ∧
        IsUnambiguous ⟨"acme:Person", "age"⟩ ∧
        QualifiedName.text ⟨"acme:Person", "age"⟩ = "acme:Person:age") ∧
      parse? (QualifiedName.text ⟨"acme", "Person:age"⟩) ≠ some ⟨"acme", "Person:age"⟩ := by
  rcases unambiguous_names_read_back with ⟨hback, hread, _, _⟩
  have hname : parse? "acme:Person:age" = some ⟨"acme:Person", "age"⟩ := by decide
  refine ⟨⟨hname, hread _ _ hname⟩, ?_⟩
  intro hother
  have hunambiguous := (hback ⟨"acme", "Person:age"⟩).mp hother
  exact hunambiguous.colon_notMem_member (by decide)

end QualifiedName

end SlotQuery
