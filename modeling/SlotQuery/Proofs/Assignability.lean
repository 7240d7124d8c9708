import Mathlib.Data.List.Basic
import Mathlib.Logic.Relation
import SlotQuery.Schema

/-!
# Assignability as reachability

Supertypes make the names of types the nodes of a graph, which may have cycles
and names without an entry. The search for a target meets exactly what can be
reached in this graph: what it has followed is closed under supertypes but for
the names that are still pending, and at its end none are.
-/

namespace SlotQuery
namespace Schema

variable {types : List EntityType} {name supertype target : String}
  {followed pending : List String}

/-!
# The graph of names
-/

/-- The first entry with the name lists the other name among its supertypes. -/
def IsSupertype (types : List EntityType) (name supertype : String) : Prop :=
  ∃ before type after, types = before ++ type :: after ∧ type.name = name ∧
    (∀ earlier ∈ before, earlier.name ≠ name) ∧ supertype ∈ type.supertypes

/-- A chain of no, one or more supertypes goes from the name to the target. -/
def Leads (types : List EntityType) : String → String → Prop :=
  Relation.ReflTransGen (IsSupertype types)

theorem mem_supertypesOf_iff :
    supertype ∈ supertypesOf types name ↔ IsSupertype types name supertype := by
  unfold supertypesOf
  constructor
  · intro h
    cases hfind : types.find? fun type => type.name == name with
    | none =>
        rw [hfind] at h
        cases h
    | some type =>
        rw [hfind] at h
        rcases List.find?_eq_some_iff_append.mp hfind with ⟨hname, before, after, hsplit, hbefore⟩
        refine ⟨before, type, after, hsplit, by simpa using hname, ?_, h⟩
        intro earlier hearlier
        simpa using hbefore earlier hearlier
  · intro h
    rcases h with ⟨before, type, after, hsplit, hname, hbefore, hmem⟩
    have hfind : (types.find? fun type => type.name == name) = some type := by
      refine List.find?_eq_some_iff_append.mpr ⟨by simpa using hname, before, after, hsplit, ?_⟩
      intro earlier hearlier
      simpa using hbefore earlier hearlier
    rw [hfind]
    exact hmem

/-- An entry behind the others hides none of them. -/
theorem IsSupertype.append (h : IsSupertype types name supertype) (later : List EntityType) :
    IsSupertype (types ++ later) name supertype := by
  rcases h with ⟨before, type, after, hsplit, hrest⟩
  refine ⟨before, type, after ++ later, ?_, hrest⟩
  rw [hsplit, List.append_assoc, List.cons_append]

theorem Leads.append (h : Leads types name target) (later : List EntityType) :
    Leads (types ++ later) name target :=
  Relation.ReflTransGen.mono (fun _ _ hstep => IsSupertype.append hstep later) _ _ h

/-!
# The search

Both directions are by induction along the search. A target that is met was
reached from a pending name. A search that ends without it has followed a set of
names that no chain of supertypes leaves.
-/

theorem leads_of_reaches (h : reaches types target followed pending = true) :
    ∃ name ∈ pending, Leads types name target := by
  induction followed, pending using reaches.induct types target with
  | case1 followed => simp [reaches] at h
  | case2 followed rest => exact ⟨target, List.mem_cons_self, .refl⟩
  | case3 followed name rest htarget hfollowed ih =>
      rw [reaches, if_neg htarget, if_pos hfollowed] at h
      rcases ih h with ⟨found, hfound, hleads⟩
      exact ⟨found, List.mem_cons_of_mem name hfound, hleads⟩
  | case4 followed name rest htarget hfollowed ih =>
      rw [reaches, if_neg htarget, if_neg hfollowed] at h
      rcases ih h with ⟨found, hfound, hleads⟩
      rcases List.mem_append.mp hfound with hsuper | hrest
      · exact ⟨name, List.mem_cons_self, .head (mem_supertypesOf_iff.mp hsuper) hleads⟩
      · exact ⟨found, List.mem_cons_of_mem name hrest, hleads⟩

/-- What was followed leads to names that were followed or are still pending. -/
def ClosedUpTo (types : List EntityType) (followed pending : List String) : Prop :=
  ∀ name ∈ followed, ∀ supertype, IsSupertype types name supertype →
    supertype ∈ followed ∨ supertype ∈ pending

theorem ClosedUpTo.skip (h : ClosedUpTo types followed (name :: pending))
    (hfollowed : name ∈ followed) : ClosedUpTo types followed pending := by
  intro other hother supertype hsuper
  rcases h other hother supertype hsuper with hseen | hpending
  · exact Or.inl hseen
  · rcases List.mem_cons.mp hpending with heq | hrest
    · rw [heq]
      exact Or.inl hfollowed
    · exact Or.inr hrest

theorem ClosedUpTo.follow (h : ClosedUpTo types followed (name :: pending)) :
    ClosedUpTo types (name :: followed) (supertypesOf types name ++ pending) := by
  intro other hother supertype hsuper
  rcases List.mem_cons.mp hother with heq | hseen
  · rw [heq] at hsuper
    exact Or.inr (List.mem_append_left pending (mem_supertypesOf_iff.mpr hsuper))
  · rcases h other hseen supertype hsuper with hfollowed | hpending
    · exact Or.inl (List.mem_cons_of_mem name hfollowed)
    · rcases List.mem_cons.mp hpending with heq | hrest
      · rw [heq]
        exact Or.inl List.mem_cons_self
      · exact Or.inr (List.mem_append_right _ hrest)

theorem exists_closed_of_not_reaches (h : reaches types target followed pending = false)
    (hclosed : ClosedUpTo types followed pending) (htarget : target ∉ followed) :
    ∃ seen : List String, (∀ name ∈ followed, name ∈ seen) ∧ (∀ name ∈ pending, name ∈ seen) ∧
      ClosedUpTo types seen [] ∧ target ∉ seen := by
  induction followed, pending using reaches.induct types target with
  | case1 followed => exact ⟨followed, fun _ hmem => hmem, by simp, hclosed, htarget⟩
  | case2 followed rest => simp [reaches] at h
  | case3 followed name rest hname hfollowed ih =>
      rw [reaches, if_neg hname, if_pos hfollowed] at h
      rcases ih h (hclosed.skip hfollowed) htarget with ⟨seen, hold, hpending, hseen, hmiss⟩
      refine ⟨seen, hold, ?_, hseen, hmiss⟩
      intro other hother
      rcases List.mem_cons.mp hother with heq | hrest
      · rw [heq]
        exact hold name hfollowed
      · exact hpending other hrest
  | case4 followed name rest hname hfollowed ih =>
      rw [reaches, if_neg hname, if_neg hfollowed] at h
      have hfresh : target ∉ name :: followed := by
        intro hmem
        rcases List.mem_cons.mp hmem with heq | hold
        · exact hname heq.symm
        · exact htarget hold
      rcases ih h hclosed.follow hfresh with ⟨seen, hold, hpending, hseen, hmiss⟩
      refine ⟨seen, fun other hother => hold other (List.mem_cons_of_mem name hother), ?_, hseen,
        hmiss⟩
      intro other hother
      rcases List.mem_cons.mp hother with heq | hrest
      · rw [heq]
        exact hold name List.mem_cons_self
      · exact hpending other (List.mem_append_right _ hrest)

theorem ClosedUpTo.mem_of_leads {seen : List String} (h : ClosedUpTo types seen [])
    (hname : name ∈ seen) (hleads : Leads types name target) : target ∈ seen := by
  induction hleads with
  | refl => exact hname
  | tail _ hstep ih =>
      rcases h _ ih _ hstep with hseen | hpending
      · exact hseen
      · cases hpending

theorem reaches_iff_leads :
    reaches types target [] pending = true ↔ ∃ name ∈ pending, Leads types name target := by
  constructor
  · exact leads_of_reaches
  · intro h
    rcases h with ⟨name, hname, hleads⟩
    cases hreaches : reaches types target [] pending with
    | true => rfl
    | false =>
        have hstart : ClosedUpTo types [] pending := by simp [ClosedUpTo]
        rcases exists_closed_of_not_reaches hreaches hstart List.not_mem_nil with
          ⟨seen, _, hpending, hclosed, hmiss⟩
        exact absurd (hclosed.mem_of_leads (hpending name hname) hleads) hmiss

/-!
# Assignable types
-/

section

variable (schema : Schema)

theorem isAssignable_iff_leads :
    schema.isAssignable name target = true ↔ Leads schema.types name target := by
  rw [isAssignable, reaches_iff_leads]
  simp only [List.mem_singleton, exists_eq_left]

/-- An entry is assignable where it is concrete and its name leads to the target. -/
theorem isAssignableEntry_iff (type : EntityType) :
    (!type.isAbstract && schema.isAssignable type.name target) = true ↔
      type.isAbstract = false ∧ Leads schema.types type.name target := by
  rw [Bool.and_eq_true, Bool.not_eq_true', isAssignable_iff_leads]

theorem assignableTypeIds_sublist_addType (type : EntityType) (target : String) :
    (schema.assignableTypeIds target).Sublist
      ((schema.addType type).assignableTypeIds target) := by
  unfold assignableTypeIds
  apply List.Sublist.map
  have hkept : (schema.types.filter fun entry =>
      !entry.isAbstract && schema.isAssignable entry.name target).Sublist
      (schema.types.filter fun entry =>
        !entry.isAbstract && (schema.addType type).isAssignable entry.name target) := by
    apply List.monotone_filter_right
    intro entry hentry
    rw [isAssignableEntry_iff] at hentry ⊢
    exact ⟨hentry.left, hentry.right.append [type]⟩
  refine hkept.trans ?_
  show List.Sublist _ ((schema.types ++ [type]).filter _)
  rw [List.filter_append]
  exact List.sublist_append_left _ _

end

open Classical in
/-- A name is assignable to what it leads to, the ids of a target are those of the concrete entries
that lead to it, as declared, and one more entry takes no id away. -/
theorem assignability_is_reachability (schema : Schema) :
    (∀ name target, schema.isAssignable name target = true ↔ Leads schema.types name target) ∧
      (∀ target, schema.assignableTypeIds target =
        (schema.types.filter fun type =>
          type.isAbstract = false ∧ Leads schema.types type.name target).map EntityType.id) ∧
      ∀ type target, (schema.assignableTypeIds target).Sublist
        ((schema.addType type).assignableTypeIds target) := by
  refine ⟨fun _ _ => schema.isAssignable_iff_leads, ?_, schema.assignableTypeIds_sublist_addType⟩
  intro target
  unfold assignableTypeIds
  congr 1
  apply List.filter_congr
  intro type _
  rw [Bool.eq_iff_iff, isAssignableEntry_iff, decide_eq_true_eq]

example : ((Schema.empty.addEntity "A" 1 ["B"]).addEntity "B" 2 ["A"]).isAssignable "A" "C" =
    false := by
  cbv

end Schema
end SlotQuery
