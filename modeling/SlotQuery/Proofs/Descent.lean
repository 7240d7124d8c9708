import SlotQuery.Proofs.Selection

/-!
# Joins inside a row

Slots nested in a row are reached by outer joins, one for each name. The joins
below one row form a tree, and what they hold is a choice of one row for each
place inside that row.
-/

namespace SlotQuery

variable {engine : Engine} {db : Database engine} {ctx : Context}

/-!
# Choices

A choice names a row for every place inside a row. A place is the list of slots
that lead there, the innermost one first.
-/

def Choice (engine : Engine) : Type :=
  List QualifiedName → Row engine

namespace Choice

/-- Each row belongs to the one around it, or is missing where the slot has none. -/
structure Fits (choice : Choice engine) (db : Database engine) (ctx : Context)
    (around : Row engine) : Prop where
  outermost : choice [] = around
  nested : ∀ name place, choice (name :: place) ∈
    JoinKind.left.continues (db.slotRows ctx (.row (choice place)) name)

end Choice

/-- The first row of a slot inside a row, which is missing where the slot has none. -/
def Database.nested (db : Database engine) (ctx : Context) (around : Row engine)
    (name : QualifiedName) : Row engine :=
  (db.slotRows ctx (.row around) name).headD Row.missing

theorem Database.nested_mem (db : Database engine) (ctx : Context) (around : Row engine)
    (name : QualifiedName) :
    db.nested ctx around name ∈ JoinKind.left.continues (db.slotRows ctx (.row around) name) := by
  unfold Database.nested
  cases db.slotRows ctx (.row around) name with
  | nil => exact List.mem_singleton_self _
  | cons first rest => exact List.mem_cons_self

namespace Choice

/-- The first row everywhere. -/
def first (db : Database engine) (ctx : Context) (around : Row engine) : Choice engine
  | [] => around
  | name :: place => db.nested ctx (first db ctx around place) name

theorem first_fits (db : Database engine) (ctx : Context) (around : Row engine) :
    (first db ctx around).Fits db ctx around where
  outermost := rfl
  nested := fun name place => db.nested_mem ctx (first db ctx around place) name

end Choice

/-!
# Table numbers
-/

namespace Alias

theorem eq_of_index_eq {left right : Alias} (h : left.index = right.index) : left = right := by
  cases left
  cases right
  exact congrArg mk h

theorem ne_of_index_lt {left right : Alias} (h : left.index < right.index) : left ≠ right := by
  intro heq
  rw [heq] at h
  exact Nat.lt_irrefl _ h

theorem eq_or_index_lt_of_lt_succ {left : Alias} (right : Alias)
    (h : left.index < right.index + 1) :
    left = right ∨ left.index < right.index := by
  rcases Nat.lt_succ_iff_lt_or_eq.mp h with hlt | heq
  · exact Or.inr hlt
  · exact Or.inl (eq_of_index_eq heq)

end Alias

/-!
# Joins inside a row

The joins below a row form a tree. Each table has the place it stands for as its
address, no two tables have the same one, and the rows of the tables are exactly
the choices inside the row.
-/

/-- The tables from the root on hold what is chosen for their addresses. -/
def Choice.Agrees (choice : Choice engine) (root : Alias) (draft : Draft)
    (address : Alias → List QualifiedName) (scope : Scope engine) : Prop :=
  ∀ occurrence : Alias, root.index ≤ occurrence.index → occurrence.index < draft.nextIndex →
    scope (.table occurrence) = choice (address occurrence)

/-- The joins that were added to `base` below the table `root`. -/
structure Descent (db : Database engine) (ctx : Context) (root : Alias) (base draft : Draft)
    (joins : List Join) (address : Alias → List QualifiedName) : Prop where
  grows : base.Grows joins draft
  root_lt : root.index < base.nextIndex
  address_root : address root = []
  known : ∀ parent name child, root.index ≤ parent.index →
    draft.known? (.slot parent name) = some child →
      parent.index < child.index ∧ child.index < draft.nextIndex ∧
        address child = name :: address parent
  parent : ∀ child : Alias, root.index < child.index → child.index < draft.nextIndex →
    ∃ parent name, root.index ≤ parent.index ∧ draft.known? (.slot parent name) = some child
  injective : ∀ left right : Alias, root.index ≤ left.index → left.index < draft.nextIndex →
    root.index ≤ right.index → right.index < draft.nextIndex →
      address left = address right → left = right
  rows : ∀ (source scope : Scope engine), scope ∈ Join.extendAll db ctx.layout source joins →
    ∀ parent name child, root.index ≤ parent.index →
      draft.known? (.slot parent name) = some child →
        scope (.table child) ∈
          JoinKind.left.continues (db.slotRows ctx (.row (scope (.table parent))) name)
  choices : ∀ (source : Scope engine) (choice : Choice engine),
    choice.Fits db ctx (source (.table root)) →
      ∃ scope ∈ Join.extendAll db ctx.layout source joins,
        choice.Agrees root draft address scope

namespace Descent

variable {root : Alias} {base draft : Draft} {joins : List Join}
  {address : Alias → List QualifiedName}

theorem start (db : Database engine) (ctx : Context) (hnext : base.nextIndex = root.index + 1)
    (hsettled : base.Settled root.index) :
    Descent db ctx root base base [] (fun _ => []) where
  grows := Draft.Grows.refl base
  root_lt := by omega
  address_root := rfl
  known := by
    intro parent name child hparent hknown
    rw [hsettled (.slot parent name) hparent] at hknown
    cases hknown
  parent := by
    intro child hroot hchild
    omega
  injective := by
    intro left right hleft hleft' hright hright' _
    exact Alias.eq_of_index_eq (by omega)
  rows := by
    intro source scope _ parent name child hparent hknown
    rw [hsettled (.slot parent name) hparent] at hknown
    cases hknown
  choices := by
    intro source choice hfits
    refine ⟨source, by simp [Join.extendAll], ?_⟩
    intro occurrence hle hlt
    have hroot : occurrence = root := Alias.eq_of_index_eq (by omega)
    rw [hroot]
    exact hfits.outermost.symm

theorem root_lt_of_address (h : Descent db ctx root base draft joins address)
    {occurrence : Alias} {name : QualifiedName} {place : List QualifiedName}
    (hfrom : root.index ≤ occurrence.index) (haddress : address occurrence = name :: place) :
    root.index < occurrence.index := by
  apply Nat.lt_of_le_of_ne hfrom
  intro hindex
  rw [← Alias.eq_of_index_eq hindex, h.address_root] at haddress
  cases haddress

/-- The rows of the tables, and below them the first row of each slot. -/
noncomputable def choiceOf (db : Database engine) (ctx : Context) (root : Alias) (draft : Draft)
    (address : Alias → List QualifiedName) (scope : Scope engine) : Choice engine
  | [] => scope (.table root)
  | name :: place =>
      open Classical in
      if h : ∃ occurrence : Alias, root.index ≤ occurrence.index ∧
          occurrence.index < draft.nextIndex ∧ address occurrence = name :: place then
        scope (.table h.choose)
      else
        db.nested ctx (choiceOf db ctx root draft address scope place) name

theorem choiceOf_agrees (h : Descent db ctx root base draft joins address)
    (scope : Scope engine) :
    (choiceOf db ctx root draft address scope).Agrees root draft address scope := by
  have hroot := h.root_lt
  have hle := h.grows.le
  intro occurrence hfrom hto
  cases haddress : address occurrence with
  | nil =>
      have heq : occurrence = root := h.injective occurrence root hfrom hto (Nat.le_refl _)
        (by omega) (haddress.trans h.address_root.symm)
      rw [heq]
      rfl
  | cons name place =>
      have hexists : ∃ other : Alias, root.index ≤ other.index ∧
          other.index < draft.nextIndex ∧ address other = name :: place :=
        ⟨occurrence, hfrom, hto, haddress⟩
      have hchosen := hexists.choose_spec
      have heq : occurrence = hexists.choose := h.injective _ _ hfrom hto hchosen.left
        hchosen.right.left (haddress.trans hchosen.right.right.symm)
      rw [choiceOf, dif_pos hexists, ← heq]

theorem choiceOf_fits (h : Descent db ctx root base draft joins address)
    {source scope : Scope engine} (hscope : scope ∈ Join.extendAll db ctx.layout source joins) :
    (choiceOf db ctx root draft address scope).Fits db ctx (source (.table root)) where
  outermost := h.grows.frame hscope h.root_lt
  nested := by
    intro name place
    by_cases hexists : ∃ occurrence : Alias, root.index ≤ occurrence.index ∧
        occurrence.index < draft.nextIndex ∧ address occurrence = name :: place
    · -- The table with this address was joined to the table of the place around it.
      have hagrees := h.choiceOf_agrees scope
      rcases hexists with ⟨child, hfrom, hto, haddress⟩
      have hbelow := h.root_lt_of_address hfrom haddress
      rcases h.parent child hbelow hto with ⟨parent, name', hparent, hknown⟩
      rcases h.known parent name' child hparent hknown with ⟨hlt, _, hchild⟩
      rw [haddress] at hchild
      cases hchild
      rw [← haddress, ← hagrees child hfrom hto, ← hagrees parent hparent (by omega)]
      exact h.rows source scope hscope parent name child hparent hknown
    · rw [choiceOf, dif_neg hexists]
      exact db.nested_mem ctx _ name

end Descent

/-!
# One more join

A field that was joined before is found again. A new one gets the next table,
whose address no other table has: a table with that address would have been
joined to the same parent under the same name.
-/

namespace Alias

def withAddress (address : Alias → List QualifiedName) (child : Alias)
    (place : List QualifiedName) : Alias → List QualifiedName :=
  fun occurrence => if occurrence = child then place else address occurrence

theorem withAddress_self (address : Alias → List QualifiedName) (child : Alias)
    (place : List QualifiedName) : withAddress address child place child = place := by
  simp [withAddress]

theorem withAddress_of_ne {address : Alias → List QualifiedName} {child occurrence : Alias}
    (place : List QualifiedName) (h : occurrence ≠ child) :
    withAddress address child place occurrence = address occurrence := by
  simp [withAddress, h]

/-- Addresses stay as they were when more tables are joined. -/
structure Keeps (draft draft' : Draft) (address address' : Alias → List QualifiedName) :
    Prop where
  le : draft.nextIndex ≤ draft'.nextIndex
  eq : ∀ occurrence : Alias, occurrence.index < draft.nextIndex →
    address' occurrence = address occurrence

theorem Keeps.trans {draft middle draft' : Draft}
    {address address' address'' : Alias → List QualifiedName}
    (h : Keeps draft middle address address') (h' : Keeps middle draft' address' address'') :
    Keeps draft draft' address address'' where
  le := Nat.le_trans h.le h'.le
  eq := by
    intro occurrence hold
    rw [h'.eq occurrence (Nat.lt_of_lt_of_le hold h.le), h.eq occurrence hold]

end Alias

theorem Choice.Agrees.of_keeps {choice : Choice engine} {root : Alias} {draft draft' : Draft}
    {address address' : Alias → List QualifiedName} {scope : Scope engine}
    (h : choice.Agrees root draft' address' scope)
    (hkeeps : Alias.Keeps draft draft' address address') :
    choice.Agrees root draft address scope := by
  intro occurrence hfrom hto
  rw [h occurrence hfrom (Nat.lt_of_lt_of_le hto hkeeps.le), hkeeps.eq occurrence hto]

namespace Descent

variable {root : Alias} {base draft draft' : Draft} {joins : List Join}
  {address : Alias → List QualifiedName} {parent child : Alias} {name : QualifiedName}

theorem address_ne_of_unknown (h : Descent db ctx root base draft joins address)
    (hfrom : root.index ≤ parent.index) (hto : parent.index < draft.nextIndex)
    (hunknown : draft.known? (.slot parent name) = none) {occurrence : Alias}
    (hfrom' : root.index ≤ occurrence.index) (hto' : occurrence.index < draft.nextIndex) :
    address occurrence ≠ name :: address parent := by
  intro haddress
  have hbelow := h.root_lt_of_address hfrom' haddress
  rcases h.parent occurrence hbelow hto' with ⟨parent', name', hfrom'', hknown⟩
  rcases h.known parent' name' occurrence hfrom'' hknown with ⟨hlt, _, haddress'⟩
  rw [haddress] at haddress'
  injection haddress' with hname hplace
  have heq : parent = parent' := h.injective parent parent' hfrom hto hfrom'' (by omega) hplace
  rw [← heq, ← hname, hunknown] at hknown
  cases hknown

theorem withJoin_known (h : Descent db ctx root base draft joins address)
    (hto : parent.index < draft.nextIndex) {join : Join} (htarget : join.target = draft.next)
    {parent' child' : Alias} {name' : QualifiedName} (hfrom' : root.index ≤ parent'.index)
    (hknown : (draft.withJoin (.slot parent name) join).known? (.slot parent' name') =
      some child') :
    parent'.index < child'.index ∧ child'.index < draft.nextIndex + 1 ∧
      Alias.withAddress address draft.next (name :: address parent) child' =
        name' :: Alias.withAddress address draft.next (name :: address parent) parent' := by
  by_cases hkey : JoinKey.slot parent' name' = .slot parent name
  · rw [hkey, Draft.withJoin_known?_self, htarget] at hknown
    cases hkey
    cases hknown
    refine ⟨hto, Nat.lt_succ_self _, ?_⟩
    have hne : parent ≠ draft.next := Alias.ne_of_index_lt hto
    rw [Alias.withAddress_of_ne _ hne]
    exact Alias.withAddress_self _ _ _
  · rw [Draft.withJoin_known?_of_ne _ hkey] at hknown
    rcases h.known parent' name' child' hfrom' hknown with ⟨hlt, hto', haddress⟩
    refine ⟨hlt, Nat.lt_succ_of_lt hto', ?_⟩
    rw [Alias.withAddress_of_ne _ (Alias.ne_of_index_lt hto'),
      Alias.withAddress_of_ne _ (Alias.ne_of_index_lt (Nat.lt_trans hlt hto'))]
    exact haddress

theorem withJoin_parent (h : Descent db ctx root base draft joins address)
    (hfrom : root.index ≤ parent.index) (hunknown : draft.known? (.slot parent name) = none)
    {join : Join} (htarget : join.target = draft.next) {child' : Alias}
    (hbelow : root.index < child'.index) (hlt : child'.index < draft.nextIndex + 1) :
    ∃ parent' name', root.index ≤ parent'.index ∧
      (draft.withJoin (.slot parent name) join).known? (.slot parent' name') = some child' := by
  rcases Alias.eq_or_index_lt_of_lt_succ draft.next hlt with heq | hlt'
  · refine ⟨parent, name, hfrom, ?_⟩
    rw [heq, ← htarget]
    exact Draft.withJoin_known?_self _ _ _
  · rcases h.parent child' hbelow hlt' with ⟨parent', name', hfrom', hknown⟩
    refine ⟨parent', name', hfrom', ?_⟩
    rw [Draft.withJoin_known?_of_ne]
    · exact hknown
    · intro hkey
      rw [hkey, hunknown] at hknown
      cases hknown

theorem withAddress_injective (h : Descent db ctx root base draft joins address)
    (hfrom : root.index ≤ parent.index) (hto : parent.index < draft.nextIndex)
    (hunknown : draft.known? (.slot parent name) = none) {left right : Alias}
    (hleft : root.index ≤ left.index) (hleft' : left.index < draft.nextIndex + 1)
    (hright : root.index ≤ right.index) (hright' : right.index < draft.nextIndex + 1)
    (haddress : Alias.withAddress address draft.next (name :: address parent) left =
      Alias.withAddress address draft.next (name :: address parent) right) : left = right := by
  rcases Alias.eq_or_index_lt_of_lt_succ draft.next hleft' with heq | hlt
  · rcases Alias.eq_or_index_lt_of_lt_succ draft.next hright' with heq' | hlt'
    · rw [heq, heq']
    · rw [heq, Alias.withAddress_self,
        Alias.withAddress_of_ne _ (Alias.ne_of_index_lt hlt')] at haddress
      exact absurd haddress.symm (h.address_ne_of_unknown hfrom hto hunknown hright hlt')
  · rcases Alias.eq_or_index_lt_of_lt_succ draft.next hright' with heq' | hlt'
    · rw [heq', Alias.withAddress_self,
        Alias.withAddress_of_ne _ (Alias.ne_of_index_lt hlt)] at haddress
      exact absurd haddress (h.address_ne_of_unknown hfrom hto hunknown hleft hlt)
    · rw [Alias.withAddress_of_ne _ (Alias.ne_of_index_lt hlt),
        Alias.withAddress_of_ne _ (Alias.ne_of_index_lt hlt')] at haddress
      exact h.injective left right hleft hlt hright hlt' haddress

theorem mem_extendAll_nested {info : SlotInfo} (hinfo : ctx.schema.slot? name = some info)
    (hto : parent.index < draft.nextIndex) {source scope : Scope engine} :
    scope ∈ Join.extendAll db ctx.layout source
        (joins ++ [slotJoin ctx (.row parent) draft.next info .left]) ↔
      ∃ middle ∈ Join.extendAll db ctx.layout source joins,
        ∃ row ∈ JoinKind.left.continues
            (db.slotRows ctx (.row (middle (.table parent))) name),
          middle.bind (.table draft.next) row = scope := by
  have hextend : ∀ middle : Scope engine,
      Join.extend db ctx.layout middle (slotJoin ctx (.row parent) draft.next info .left) =
        (JoinKind.left.continues
          (db.slotRows ctx (.row (middle (.table parent))) name)).map fun row =>
            middle.bind (.table draft.next) row :=
    fun middle => extend_slotJoin .left middle hinfo (Alias.ne_of_index_lt hto)
  simp only [Join.extendAll_append, List.mem_flatMap, Join.extendAll_singleton, hextend,
    List.mem_map]

theorem withJoin (h : Descent db ctx root base draft joins address)
    (hfrom : root.index ≤ parent.index) (hto : parent.index < draft.nextIndex)
    (hunknown : draft.known? (.slot parent name) = none) {info : SlotInfo}
    (hinfo : ctx.schema.slot? name = some info) :
    Descent db ctx root base
      (draft.withJoin (.slot parent name) (slotJoin ctx (.row parent) draft.next info .left))
      (joins ++ [slotJoin ctx (.row parent) draft.next info .left])
      (Alias.withAddress address draft.next (name :: address parent)) := by
  have hold : ∀ occurrence : Alias, occurrence.index < draft.nextIndex →
      occurrence ≠ draft.next := fun _ hlt => Alias.ne_of_index_lt hlt
  constructor
  case grows => exact h.grows.trans (Draft.Grows.withJoin draft _ rfl)
  case root_lt => exact h.root_lt
  case address_root =>
    rw [Alias.withAddress_of_ne _ (hold root (Nat.lt_of_lt_of_le h.root_lt h.grows.le))]
    exact h.address_root
  case known =>
    intro parent' name' child' hfrom' hknown
    exact h.withJoin_known hto rfl hfrom' hknown
  case parent =>
    intro child' hbelow hlt
    exact h.withJoin_parent hfrom hunknown rfl hbelow hlt
  case injective =>
    intro left right hleft hleft' hright hright' haddress
    exact h.withAddress_injective hfrom hto hunknown hleft hleft' hright hright' haddress
  case rows =>
    intro source scope hscope parent' name' child' hfrom' hknown
    rcases (mem_extendAll_nested hinfo hto).mp hscope with ⟨middle, hmiddle, row, hrow, hscope⟩
    subst hscope
    by_cases hkey : JoinKey.slot parent' name' = .slot parent name
    · rw [hkey, Draft.withJoin_known?_self] at hknown
      cases hkey
      cases hknown
      rw [Scope.bind_table_of_ne _ _ (hold parent hto)]
      exact (Scope.bind_self middle (.table draft.next) row).symm ▸ hrow
    · rw [Draft.withJoin_known?_of_ne _ hkey] at hknown
      rcases h.known parent' name' child' hfrom' hknown with ⟨hlt, hto', _⟩
      rw [Scope.bind_table_of_ne _ _ (hold child' hto'),
        Scope.bind_table_of_ne _ _ (hold parent' (Nat.lt_trans hlt hto'))]
      exact h.rows source middle hmiddle parent' name' child' hfrom' hknown
  case choices =>
    intro source choice hfits
    rcases h.choices source choice hfits with ⟨middle, hmiddle, hagrees⟩
    refine ⟨middle.bind (.table draft.next) (choice (name :: address parent)), ?_, ?_⟩
    · refine (mem_extendAll_nested hinfo hto).mpr ⟨middle, hmiddle, _, ?_, rfl⟩
      rw [hagrees parent hfrom hto]
      exact hfits.nested name (address parent)
    · intro occurrence hfrom' hlt
      rcases Alias.eq_or_index_lt_of_lt_succ draft.next hlt with heq | hlt'
      · rw [heq, Scope.bind_self, Alias.withAddress_self]
      · rw [Scope.bind_table_of_ne _ _ (hold occurrence hlt'),
          Alias.withAddress_of_ne _ (hold occurrence hlt')]
        exact hagrees occurrence hfrom' hlt'

theorem joinSlot (h : Descent db ctx root base draft joins address)
    (hfrom : root.index ≤ parent.index) (hto : parent.index < draft.nextIndex)
    (hjoin : draft.joinSlot ctx (.row parent) name .left = .ok (child, draft')) :
    ∃ joins' address', Descent db ctx root base draft' joins' address' ∧
      Alias.Keeps draft draft' address address' ∧ root.index ≤ child.index ∧
      child.index < draft'.nextIndex ∧ address' child = name :: address parent := by
  rcases Draft.joinSlot_cases hjoin with ⟨hknown, hdraft⟩ | ⟨hunknown, info, hinfo, hchild, hdraft⟩
  · subst hdraft
    rcases h.known parent name child hfrom hknown with ⟨hlt, hlt', haddress⟩
    exact ⟨joins, address, h, ⟨Nat.le_refl _, fun _ _ => rfl⟩, by omega, hlt', haddress⟩
  · subst hchild hdraft
    refine ⟨_, _, h.withJoin hfrom hto hunknown hinfo, ⟨Nat.le_succ _, ?_⟩, ?_, ?_, ?_⟩
    · intro occurrence hlt
      exact Alias.withAddress_of_ne _ (Alias.ne_of_index_lt hlt)
    · exact Nat.le_trans hfrom (Nat.le_of_lt hto)
    · exact Nat.lt_succ_self _
    · exact Alias.withAddress_self _ _ _

end Descent

end SlotQuery
