import SlotQuery.Proofs.Joins
import SlotQuery.Wire.Record

/-!
# Records of fields

A record is read entry by entry or item by item, and each of its fields sees only
what is meant for it. What a field has seen at the end is then what the document
has under its name or in its place. A record that is written with one entry for
each field, in order, is read back.
-/

namespace SlotQuery

variable {α β γ : Type}

theorem map_eq_ok {read : Decoded α} {f : α → β} {result : β} :
    read.map f = .ok result ↔ ∃ value, read = .ok value ∧ f value = result := by
  cases read with
  | error error => simp [Except.map]
  | ok value => simp [Except.map]

/-!
# Documents

What a document has for a field: the contents under its name, or the item in its
place.
-/

namespace Json

def named (name : String) (entries : List (Option String × Json)) : List Json :=
  (entries.filter fun entry => entry.fst = some name).map Prod.snd

theorem named_cons_self (name : String) (content : Json)
    (rest : List (Option String × Json)) :
    named name ((some name, content) :: rest) = content :: named name rest := by
  simp [named]

theorem named_cons_of_ne {name key : String} (h : key ≠ name) (content : Json)
    (rest : List (Option String × Json)) :
    named name ((some key, content) :: rest) = named name rest := by
  simp [named, h]

def contents (name : String) (index : Nat) : Json → List Json
  | object entries => named name entries
  | array items => items[index]?.toList
  | null | bool _ | number _ | string _ | unreadable _ | fault => []

end Json

namespace Record

/-- An array may be refused as the content of an alternative, but is not read differently. -/
theorem decode_of_decodeAlternative {record : Record α} {medium : Medium} {tree : Json} {a : α}
    (h : record.decodeAlternative medium tree = .ok a) : record.decode medium tree = .ok a := by
  cases tree with
  | array items =>
      simp only [decodeAlternative] at h
      split at h
      · exact h
      · cases h
  | object entries => exact h
  | null | bool b | number n | string s | unreadable inside | fault => cases h

/-!
# Fields that are read

A field is followed through the states of its record by the list of what it has
seen so far: its own entries and items add to the list, all others leave it as it
is.
-/

/-- The record has a field with this name and place. What the field has seen is part of the state,
and the value that it gives stands in the result. -/
structure Collects (record : Record α) (name : String) (index : Nat) (decode : Json → Decoded β)
    (missing : Decoded β) (stands : α → β → Prop) (seen : record.State → List (Decoded β)) :
    Prop where
  start : seen record.start = []
  entry_self : ∀ content state, ∃ read, record.entry name content state = some read ∧
    ∀ state', read = .ok state' → seen state' = seen state ++ [decode content]
  entry_other : ∀ key content state state', key ≠ name →
    record.entry key content state = some (.ok state') → seen state' = seen state
  items : ∀ items state state' left, record.items items state = .ok (state', left) →
    seen state = [] → seen state' = items[index]?.toList.map decode
  finish : ∀ state a, record.finish state = .ok a → ∃ b, stands a b ∧
    (seen state = [.ok b] ∨ seen state = [] ∧ missing = .ok b)

namespace Collects

section

variable {record : Record α} {name : String} {index : Nat} {decode : Json → Decoded β}
  {missing : Decoded β} {stands : α → β → Prop} {seen : record.State → List (Decoded β)}

theorem readEntries (h : record.Collects name index decode missing stands seen)
    {entries : List (Option String × Json)} {state state' : record.State}
    (hread : record.readEntries entries state = .ok state') :
    seen state' = seen state ++ (Json.named name entries).map decode := by
  induction entries generalizing state with
  | nil =>
      cases hread
      exact (List.append_nil _).symm
  | cons entry rest ih =>
      rcases entry with ⟨key, content⟩
      cases key with
      | none => cases hread
      | some key =>
          rw [Record.readEntries] at hread
          by_cases hkey : key = name
          · subst hkey
            rcases h.entry_self content state with ⟨read, hentry, hself⟩
            simp only [hentry, bind_eq_ok] at hread
            rcases hread with ⟨middle, hmiddle, hrest⟩
            rw [ih hrest, hself middle hmiddle, Json.named_cons_self, List.map_cons,
              List.append_assoc, List.singleton_append]
          · rw [Json.named_cons_of_ne hkey]
            cases hentry : record.entry key content state with
            | none =>
                -- The entry is passed over.
                simp only [hentry] at hread
                split at hread
                · exact ih hread
                · cases hread
            | some read =>
                simp only [hentry, bind_eq_ok] at hread
                rcases hread with ⟨middle, hmiddle, hrest⟩
                rw [hmiddle] at hentry
                rw [ih hrest, h.entry_other key content state middle hkey hentry]

/-- A document that is read has one content for the field, or none where the field may be
missing. -/
theorem contents (h : record.Collects name index decode missing stands seen) {medium : Medium}
    {tree : Json} {a : α} (hread : record.decode medium tree = .ok a) :
    ∃ b, stands a b ∧ ((tree.contents name index).map decode = [.ok b] ∨
      (tree.contents name index).map decode = [] ∧ missing = .ok b) := by
  cases tree with
  | object entries =>
      simp only [Record.decode, bind_eq_ok] at hread
      rcases hread with ⟨state, hentries, hfinish⟩
      have hseen := h.readEntries hentries
      rw [h.start, List.nil_append] at hseen
      rw [Json.contents, ← hseen]
      exact h.finish state a hfinish
  | array items =>
      simp only [Record.decode, bind_eq_ok] at hread
      rcases hread with ⟨⟨state, left⟩, hitems, hfinish⟩
      rw [Json.contents, ← h.items items record.start state left hitems h.start]
      split at hfinish
      · exact h.finish state a hfinish
      · cases hfinish
  | null | bool b | number n | string s | unreadable inside | fault => cases hread

theorem contents_of_required {error : DecodeError}
    (h : record.Collects name index decode (.error error) stands seen) {medium : Medium}
    {tree : Json} {a : α} (hread : record.decode medium tree = .ok a) :
    ∃ b, stands a b ∧ (tree.contents name index).map decode = [.ok b] := by
  rcases h.contents hread with ⟨b, hb, hcontents | ⟨_, hmissing⟩⟩
  · exact ⟨b, hb, hcontents⟩
  · cases hmissing

theorem map (h : record.Collects name index decode missing stands seen) {f : α → γ}
    {stands' : γ → β → Prop} (hstands : ∀ a b, stands a b → stands' (f a) b) :
    (record.map f).Collects name index decode missing stands' seen where
  start := h.start
  entry_self := h.entry_self
  entry_other := h.entry_other
  items := h.items
  finish := by
    intro state c hfinish
    rcases map_eq_ok.mp hfinish with ⟨a, ha, hc⟩
    rcases h.finish state a ha with ⟨b, hb, hseen⟩
    rw [← hc]
    exact ⟨b, hstands a b hb, hseen⟩

end

theorem field (name : String) (decode : Json → Decoded α) (missing : Decoded α) :
    (Record.field name decode missing).Collects name 0 decode missing Eq
      (fun state => state.toList.map .ok) where
  start := rfl
  entry_self := by
    intro content state
    refine ⟨_, if_pos rfl, ?_⟩
    intro state' hread
    cases state with
    | some value => cases hread
    | none =>
        rcases map_eq_ok.mp hread with ⟨value, hvalue, hstate⟩
        rw [← hstate, hvalue]
        rfl
  entry_other := by
    intro key content state state' hkey hentry
    simp [Record.field, hkey] at hentry
  items := by
    intro items state state' left hitems hseen
    cases items with
    | nil =>
        cases hitems
        exact hseen
    | cons item rest =>
        rcases map_eq_ok.mp hitems with ⟨value, hvalue, hstate⟩
        cases hstate
        simp [hvalue]
  finish := by
    intro state a hfinish
    cases state with
    | some value =>
        cases hfinish
        exact ⟨a, rfl, Or.inl rfl⟩
    | none => exact ⟨a, rfl, Or.inr ⟨rfl, hfinish⟩⟩

end Collects

/-!
# Two records in one

An entry goes to the first record that knows its name. Items go to the first
record as far as it takes them.
-/

section

variable {first : Record α} {second : Record β} {state state' : (first.both second).State}

theorem both_entry_eq_ok {key : String} {content : Json}
    (h : (first.both second).entry key content state = some (.ok state')) :
    first.entry key content state.fst = some (.ok state'.fst) ∧ state'.snd = state.snd ∨
      first.entry key content state.fst = none ∧
        second.entry key content state.snd = some (.ok state'.snd) ∧ state'.fst = state.fst := by
  simp only [both] at h
  cases hfirst : first.entry key content state.fst with
  | some read =>
      simp only [hfirst, Option.some.injEq] at h
      rcases map_eq_ok.mp h with ⟨s, hread, hstate⟩
      rw [hread, ← hstate]
      exact Or.inl ⟨rfl, rfl⟩
  | none =>
      simp only [hfirst, Option.map_eq_some_iff] at h
      rcases h with ⟨read, hsecond, hread⟩
      rcases map_eq_ok.mp hread with ⟨t, ht, hstate⟩
      rw [hsecond, ht, ← hstate]
      exact Or.inr ⟨rfl, rfl, rfl⟩

theorem both_items_eq_ok {items left : List Json}
    (h : (first.both second).items items state = .ok (state', left)) :
    ∃ middle, first.items items state.fst = .ok (state'.fst, middle) ∧
      second.items middle state.snd = .ok (state'.snd, left) := by
  simp only [both, bind_eq_ok, pure_eq_ok] at h
  rcases h with ⟨⟨s, middle⟩, hfirst, ⟨t, left'⟩, hsecond, hresult⟩
  cases hresult
  exact ⟨middle, hfirst, hsecond⟩

theorem both_finish_eq_ok {result : α × β} (h : (first.both second).finish state = .ok result) :
    first.finish state.fst = .ok result.fst ∧ second.finish state.snd = .ok result.snd := by
  simp only [both, bind_eq_ok, pure_eq_ok] at h
  rcases h with ⟨a, hfirst, b, hsecond, hresult⟩
  cases hresult
  exact ⟨hfirst, hsecond⟩

end

theorem field_items_eq_ok {name : String} {decode : Json → Decoded α} {missing : Decoded α}
    {items left : List Json} {state state' : Option α}
    (h : (field name decode missing).items items state = .ok (state', left)) :
    left = items.tail := by
  cases items with
  | nil => exact (congrArg Prod.snd (Except.ok.inj h)).symm
  | cons item rest =>
      rcases map_eq_ok.mp h with ⟨value, _, hresult⟩
      exact (congrArg Prod.snd hresult).symm

namespace Collects

theorem left {first : Record α} {name : String} {index : Nat} {decode : Json → Decoded γ}
    {missing : Decoded γ} {stands : α → γ → Prop} {seen : first.State → List (Decoded γ)}
    (h : first.Collects name index decode missing stands seen) (second : Record β) :
    (first.both second).Collects name index decode missing (fun result => stands result.fst)
      (fun state => seen state.fst) where
  start := h.start
  entry_self := by
    intro content state
    rcases h.entry_self content state.fst with ⟨read, hentry, hself⟩
    refine ⟨read.map fun s => (s, state.snd), by simp [both, hentry], ?_⟩
    intro state' hread
    rcases map_eq_ok.mp hread with ⟨s, hs, hstate⟩
    rw [← hstate]
    exact hself s hs
  entry_other := by
    intro key content state state' hkey hentry
    rcases both_entry_eq_ok hentry with ⟨hfirst, _⟩ | ⟨_, _, hsame⟩
    · exact h.entry_other key content state.fst state'.fst hkey hfirst
    · rw [hsame]
  items := by
    intro items state state' rest hitems hseen
    rcases both_items_eq_ok hitems with ⟨middle, hfirst, _⟩
    exact h.items items state.fst state'.fst middle hfirst hseen
  finish := fun state result hfinish =>
    h.finish state.fst result.fst (both_finish_eq_ok hfinish).left

/-- The fields after the first one stand one place later. -/
theorem after {rest : Record α} {name key : String} {index : Nat} {decode : Json → Decoded γ}
    {missing : Decoded γ} {stands : α → γ → Prop} {seen : rest.State → List (Decoded γ)}
    (h : rest.Collects name index decode missing stands seen) (hkey : name ≠ key)
    (decode' : Json → Decoded β) (missing' : Decoded β) :
    ((Record.field key decode' missing').both rest).Collects name (index + 1) decode missing
      (fun result => stands result.snd) (fun state => seen state.snd) where
  start := h.start
  entry_self := by
    intro content state
    rcases h.entry_self content state.snd with ⟨read, hentry, hself⟩
    refine ⟨read.map fun t => (state.fst, t), by simp [both, Record.field, hkey, hentry], ?_⟩
    intro state' hread
    rcases map_eq_ok.mp hread with ⟨t, ht, hstate⟩
    rw [← hstate]
    exact hself t ht
  entry_other := by
    intro other content state state' hother hentry
    rcases both_entry_eq_ok hentry with ⟨_, hsame⟩ | ⟨_, hsecond, _⟩
    · rw [hsame]
    · exact h.entry_other other content state.snd state'.snd hother hsecond
  items := by
    intro items state state' left hitems hseen
    rcases both_items_eq_ok hitems with ⟨middle, hfirst, hsecond⟩
    rw [h.items middle state.snd state'.snd left hsecond hseen, field_items_eq_ok hfirst,
      List.getElem?_tail]
  finish := fun state result hfinish =>
    h.finish state.snd result.snd (both_finish_eq_ok hfinish).right

end Collects

/-!
# Records that are written
-/

/-- All of the entries are known, and they lead from one state to the other. -/
def Takes {σ : Type} (entry : String → Json → σ → Option (Decoded σ)) :
    List (String × Json) → σ → σ → Prop
  | [], state, state' => state' = state
  | (name, content) :: rest, state, state' =>
      ∃ middle, entry name content state = some (.ok middle) ∧ Takes entry rest middle state'

/-- The entries stand for the record. -/
def Writes (record : Record α) (entries : List (String × Json)) (a : α) : Prop :=
  ∃ state, Takes record.entry entries record.start state ∧ record.finish state = .ok a

theorem Takes.readEntries {record : Record α} {entries : List (String × Json)}
    {state state' : record.State} (h : Takes record.entry entries state state') :
    record.readEntries (entries.map fun (name, content) => (some name, content)) state =
      .ok state' := by
  induction entries generalizing state with
  | nil =>
      cases h
      rfl
  | cons entry rest ih =>
      rcases h with ⟨middle, hentry, hrest⟩
      simp only [List.map_cons, Record.readEntries, hentry]
      exact ih hrest

theorem Takes.after {rest : Record α} {key : String} {entries : List (String × Json)}
    {state state' : rest.State} (h : Takes rest.entry entries state state')
    (hkey : key ∉ entries.map Prod.fst) (decode : Json → Decoded β) (missing : Decoded β)
    (first : Option β) :
    Takes ((field key decode missing).both rest).entry entries (first, state) (first, state') := by
  induction entries generalizing state with
  | nil =>
      cases h
      rfl
  | cons entry others ih =>
      rcases h with ⟨middle, hentry, hrest⟩
      simp only [List.map_cons, List.mem_cons, not_or] at hkey
      refine ⟨(first, middle), ?_, ih hrest hkey.right⟩
      simp [both, field, Ne.symm hkey.left, hentry]
      rfl

namespace Writes

theorem field {name : String} {content : Json} {decode : Json → Decoded α} {a : α}
    (h : decode content = .ok a) (missing : Decoded α) :
    (Record.field name decode missing).Writes [(name, content)] a := by
  refine ⟨some a, ⟨some a, ?_, rfl⟩, rfl⟩
  simp [Record.field, h]
  rfl

theorem cons {name : String} {content : Json} {decode : Json → Decoded α} {a : α}
    {rest : Record β} {entries : List (String × Json)} {b : β} (h : decode content = .ok a)
    (missing : Decoded α) (hrest : rest.Writes entries b) (hname : name ∉ entries.map Prod.fst) :
    ((Record.field name decode missing).both rest).Writes ((name, content) :: entries) (a, b) := by
  rcases hrest with ⟨state, htakes, hfinish⟩
  refine ⟨(some a, state), ⟨(some a, rest.start), ?_, htakes.after hname decode missing _⟩, ?_⟩
  · simp [both, Record.field, h]
    rfl
  · simp [both, Record.field, hfinish]
    rfl

theorem map {record : Record α} {entries : List (String × Json)} {a : α}
    (h : record.Writes entries a) (f : α → β) : (record.map f).Writes entries (f a) := by
  rcases h with ⟨state, htakes, hfinish⟩
  refine ⟨state, htakes, ?_⟩
  simp [Record.map, hfinish]
  rfl

theorem decode {record : Record α} {entries : List (String × Json)} {a : α}
    (h : record.Writes entries a) (medium : Medium) :
    record.decode medium (.ofEntries entries) = .ok a := by
  rcases h with ⟨state, htakes, hfinish⟩
  simp only [Json.ofEntries, Record.decode, bind_eq_ok]
  exact ⟨state, htakes.readEntries, hfinish⟩

theorem decodeAlternative {record : Record α} {entries : List (String × Json)} {a : α}
    (h : record.Writes entries a) (medium : Medium) :
    record.decodeAlternative medium (.ofEntries entries) = .ok a :=
  h.decode medium

end Writes

end Record
end SlotQuery
