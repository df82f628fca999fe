import Mathlib.Logic.Equiv.Basic
import ClassInspect.Proofs.Pool.Slots

/-!
# References between constants

The check of a pool looks at every reference of every constant once. It fails exactly if there is
an offence (`Pool.Offends`): a component that refers to a constant and leads out of the pool, to a
slot kept free, or to a constant of another kind. Of all offences it reports the one in the lowest
slot, and in it the first (`Pool.IsFirst`). `Pool.check_reports_first` says so for every pool that
can be put together, whether it was read from a file or not.

## What the theorem rests on

* Which components refer to constants is said by the kind (`Tag.components`), for each component on
  its own, and laid beside the numbers of the constant. That the references of a constant are these
  is seen constructor by constructor (`Constant.references_eq`), and is all that is used of them.
* A look-up fails for one of three reasons, which are told apart by what stands in the slot
  (`Pool.get_eq_error_iff`).
* The check is a loop over the constants around a loop over their components, and a loop of checks
  fails as its first failing check does (`exists_first_of_forM_eq_error`). Used for both loops, this
  gives the first offence in the lowest slot, since constants are listed in the order of their
  slots.

A reference may lead to a slot in front or behind. Constants can be moved to other slots in any
order, with all references to them (`Pool.renumber`), and the verdict stays the same
(`Pool.check_renumber`). For that the check is put as a condition on each reference alone
(`Pool.check_eq_ok_iff_holds`), where no order of slots is left.
-/

namespace ClassInspect

/-- The first check of a list that fails decides how the list fails. -/
theorem exists_first_of_forM_eq_error {ε α : Type} {check : α → Except ε Unit} {items : List α}
    {fault : ε} (h : items.forM check = .error fault) :
    ∃ before item after, items = before ++ item :: after ∧
      (∀ earlier ∈ before, check earlier = .ok ()) ∧ check item = .error fault := by
  induction items with
  | nil => cases h
  | cons item items ih =>
    rw [List.forM, bind_eq_error_iff] at h
    obtain hitem | ⟨_, hitem, hitems⟩ := h
    · exact ⟨[], item, items, rfl, fun _ hmem ↦ (List.not_mem_nil hmem).elim, hitem⟩
    · obtain ⟨before, first, after, rfl, hbefore, hfirst⟩ := ih hitems
      exact ⟨item :: before, first, after, rfl, List.forall_mem_cons.2 ⟨hitem, hbefore⟩, hfirst⟩

/-- Checks of what a list holds are checks of the list, where nothing is checked for what it does
not hold. -/
theorem forM_filterMap {ε α β : Type} (check : β → Except ε Unit) (found : α → Option β)
    (items : List α) :
    (items.filterMap found).forM check =
      items.forM fun item ↦ (found item).elim (.ok ()) check := by
  induction items with
  | nil => rfl
  | cons item items ih =>
    rw [List.filterMap_cons, List.forM, ← ih]
    cases found item with
    | none => rfl
    | some value => rfl

/-! ### Components -/

/-- For each component of the constants of a kind, the kinds of constants that it may refer to. A
component without any is a number of its own and refers to nothing. -/
def Tag.components : Tag → List (Option (List Tag))
  | classRef | string | methodType | module | package => [some [.utf8]]
  | fieldRef | methodRef | interfaceMethodRef => [some [.classRef], some [.nameAndType]]
  | nameAndType => [some [.utf8], some [.utf8]]
  | methodHandle => [none, some [.fieldRef, .methodRef, .interfaceMethodRef]]
  | dynamic | invokeDynamic => [none, some [.nameAndType]]
  | utf8 | integer | float | long | double => []

namespace Constant

/-- The components of a constant, each with what its kind says about it. -/
def components (constant : Constant) : List (Int × Option (List Tag)) :=
  constant.payload.numbers.zip constant.tag.components

/-- The component at a position refers to a constant of one of the given kinds. -/
def Refers (constant : Constant) (component : Nat) (index : Int) (tags : List Tag) : Prop :=
  constant.components[component]? = some (index, some tags)

/-- The references of a constant are its components without those that refer to nothing. -/
theorem references_eq (constant : Constant) :
    constant.references =
      constant.components.filterMap fun component ↦ component.2.map (component.1, ·) := by
  cases constant <;> rfl

/-- Some kind is allowed at every reference. -/
theorem Refers.tags_ne_nil {constant : Constant} {component : Nat} {index : Int} {tags : List Tag}
    (h : constant.Refers component index tags) : tags ≠ [] := by
  have hmem : (index, some tags) ∈ constant.components := List.mem_of_getElem? h
  obtain ⟨-, htags⟩ := List.of_mem_zip hmem
  rintro rfl
  cases hkind : constant.tag <;> rw [hkind] at htags <;> simp [Tag.components] at htags

theorem tags_ne_nil {constant : Constant} {reference : Int × List Tag}
    (h : reference ∈ constant.references) : reference.2 ≠ [] := by
  rw [references_eq, List.mem_filterMap] at h
  obtain ⟨⟨index, tags?⟩, hmem, hmap⟩ := h
  obtain ⟨tags, rfl, rfl⟩ := Option.map_eq_some_iff.1 hmap
  obtain ⟨component, hcomponent⟩ := List.getElem?_of_mem hmem
  have hrefers : constant.Refers component index tags := hcomponent
  exact hrefers.tags_ne_nil

end Constant

namespace Pool

variable {pool : Pool} {index : Int} {tags : List Tag} {cause : PoolProblem}

/-! ### Offences -/

/-- What is wrong with an index where a constant of one of some kinds is meant. -/
inductive Violates (pool : Pool) (index : Int) (tags : List Tag) : PoolProblem → Prop
  | outOfRange (h : ¬ (1 ≤ index ∧ index < pool.count)) :
    Violates pool index tags (.outOfRange index (pool.count - 1))
  | reserved (h : pool.Reserved index) : Violates pool index tags (.reserved index)
  | unexpectedTag {constant : Constant} (h : pool.Live index constant)
    (htag : constant.tag ∉ tags) : Violates pool index tags (.unexpectedTag index constant.tag tags)

/-- A component of the constant in a slot refers to what is not there. -/
structure Offends (pool : Pool) (holder : Nat) (constant : Constant) (component : Nat)
    (cause : PoolProblem) : Prop where
  live : pool.Live holder constant
  violates : ∃ index tags, constant.Refers component index tags ∧ pool.Violates index tags cause

/-- No offence stands in a lower slot, or before this one in its own slot. -/
def IsFirst (pool : Pool) (holder component : Nat) : Prop :=
  ∀ holder' constant component' cause, pool.Offends holder' constant component' cause →
    holder < holder' ∨ holder = holder' ∧ component ≤ component'

/-! ### Look-ups -/

theorem item_of_outside (h : ¬ (1 ≤ index ∧ index < pool.count)) :
    pool.item index = .error (.outOfRange index (pool.count - 1)) := by
  rw [item, if_neg]
  exact h

theorem item_of_reserved (h : pool.Reserved index) :
    pool.item index = .error (.reserved index) := by
  obtain ⟨hindex, hslot⟩ := h
  obtain ⟨hlt, -⟩ := Array.getElem?_eq_some_iff.1 hslot
  rw [item, if_pos ⟨hindex, (lt_count_iff hindex).2 hlt⟩, hslot]

/-- A look-up where no constant stands is refused for one of two reasons. -/
theorem violates_of_item {tags : List Tag} (h : pool.item index = .error cause) :
    pool.Violates index tags cause := by
  by_cases hinside : 1 ≤ index ∧ index < pool.count
  · by_cases hreserved : pool.Reserved index
    · rw [item_of_reserved hreserved] at h
      cases h
      exact .reserved hreserved
    · obtain ⟨constant, hlive⟩ := exists_live_iff.2 ⟨hinside.1, hinside.2, hreserved⟩
      rw [item_eq_ok_iff_live.2 hlive] at h
      cases h
  · rw [item_of_outside hinside] at h
    cases h
    exact .outOfRange hinside

/-- A look-up among some kinds fails if the index is not one of them, and for that reason. -/
theorem get_eq_error_iff (htags : tags ≠ []) :
    pool.get index tags = .error cause ↔ pool.Violates index tags cause := by
  have hallowed (constant : Constant) :
      (tags.isEmpty || tags.contains constant.tag) = true ↔ constant.tag ∈ tags := by
    simp [htags]
  rw [get, bind_eq_error_iff]
  constructor
  · rintro (hitem | ⟨constant, hitem, hrest⟩)
    · exact violates_of_item hitem
    · split at hrest
      · cases hrest
      · rename_i hother
        cases hrest
        exact .unexpectedTag (item_eq_ok_iff_live.1 hitem) fun htag ↦ hother ((hallowed _).2 htag)
  · rintro (houtside | hreserved | ⟨hlive, htag⟩)
    · exact .inl (item_of_outside houtside)
    · exact .inl (item_of_reserved hreserved)
    · refine .inr ⟨_, item_eq_ok_iff_live.2 hlive, ?_⟩
      rw [if_neg fun hmem ↦ htag ((hallowed _).1 hmem)]
      rfl

theorem mem_entries_iff_live {number : Nat} {constant : Constant} :
    (number, constant) ∈ pool.entries ↔ pool.Live number constant := by
  rw [mem_entries_iff, slot?, ← item_eq_ok_iff, item_eq_ok_iff_live]

/-- The constant in a slot is one. -/
theorem Live.unique {constant constant' : Constant} (h : pool.Live index constant)
    (h' : pool.Live index constant') : constant = constant' :=
  Except.ok.inj ((item_eq_ok_iff_live.2 h).symm.trans (item_eq_ok_iff_live.2 h'))

/-! ### The check of a constant -/

theorem forM_references (pool : Pool) (holder : Nat) (constant : Constant) :
    constant.references.forM (pool.checkReference holder constant.tag) =
      constant.components.forM (pool.checkComponent holder constant.tag) := by
  rw [constant.references_eq, forM_filterMap]
  refine congrArg (List.forM constant.components) (funext fun component ↦ ?_)
  obtain ⟨index, tags?⟩ := component
  cases tags? <;> rfl

theorem checkReference_eq_error_iff {holder : Nat} {tag : Tag} {problem : PoolProblem}
    (htags : tags ≠ []) :
    pool.checkReference holder tag (index, tags) = .error problem ↔
      ∃ cause, pool.Violates index tags cause ∧ problem = .badReference holder tag cause := by
  simp only [← get_eq_error_iff htags]
  constructor
  · intro h
    rcases hget : pool.get index tags with cause | constant
    · rw [checkReference_of_error hget] at h
      cases h
      exact ⟨cause, rfl, rfl⟩
    · rw [checkReference, hget] at h
      cases h
  · rintro ⟨cause, hcause, rfl⟩
    exact checkReference_of_error hcause holder tag

/-- A component that passes is no offence. -/
theorem checkComponent_ne_ok {holder component : Nat} {constant : Constant}
    (hrefers : constant.Refers component index tags) (hviolates : pool.Violates index tags cause) :
    pool.checkComponent holder constant.tag (index, some tags) ≠ .ok () := by
  have herror : pool.checkComponent holder constant.tag (index, some tags) =
      .error (.badReference holder constant.tag cause) :=
    (checkReference_eq_error_iff hrefers.tags_ne_nil).2 ⟨cause, hviolates, rfl⟩
  rw [herror]
  exact fun h ↦ by cases h

/-- A component that does not pass is the first offence of its constant, if those before it pass. -/
theorem exists_offends_of_checkComponents {holder : Nat} {constant : Constant}
    (hlive : pool.Live holder constant) {problem : PoolProblem}
    (h : constant.components.forM (pool.checkComponent holder constant.tag) = .error problem) :
    ∃ component cause, pool.Offends holder constant component cause ∧
      problem = .badReference holder constant.tag cause ∧
      ∀ component' cause', pool.Offends holder constant component' cause' →
        component ≤ component' := by
  obtain ⟨before, ⟨index, tags?⟩, after, hcomponents, hbefore, herror⟩ :=
    exists_first_of_forM_eq_error h
  cases tags? with
  | none => cases herror
  | some tags =>
    have hrefers : constant.Refers before.length index tags := by
      rw [Constant.Refers, hcomponents, List.getElem?_append_right (Nat.le_refl _), Nat.sub_self]
      rfl
    obtain ⟨cause, hviolates, hproblem⟩ :=
      (checkReference_eq_error_iff hrefers.tags_ne_nil).1 herror
    refine ⟨before.length, cause, ⟨hlive, index, tags, hrefers, hviolates⟩, hproblem, ?_⟩
    rintro component' cause' ⟨-, index', tags', hrefers', hviolates'⟩
    refine Nat.le_of_not_lt fun hlt ↦ ?_
    -- an earlier component has passed
    have hearlier : (index', some tags') ∈ before := by
      have hget := hrefers'
      rw [Constant.Refers, hcomponents, List.getElem?_append_left hlt] at hget
      exact List.mem_of_getElem? hget
    exact checkComponent_ne_ok hrefers' hviolates' (hbefore _ hearlier)

/-! ### The check of a pool -/

theorem check_eq (pool : Pool) :
    pool.check = pool.entries.forM fun entry ↦
      entry.2.components.forM (pool.checkComponent entry.1 entry.2.tag) := by
  simp only [check_eq_forM_references, forM_references]

/-- An offence makes the check fail. -/
theorem Offends.check_ne_ok {holder component : Nat} {constant : Constant}
    (h : pool.Offends holder constant component cause) : pool.check ≠ .ok () := by
  obtain ⟨hlive, index, tags, hrefers, hviolates⟩ := h
  rw [check_eq]
  intro hcheck
  have hconstant := forM_eq_ok_iff.1 hcheck _ (mem_entries_iff_live.2 hlive)
  have hcomponent := forM_eq_ok_iff.1 hconstant _ (List.mem_of_getElem? hrefers)
  exact checkComponent_ne_ok hrefers hviolates hcomponent

/-- A check that fails reports the first offence. -/
theorem exists_first_of_check {problem : PoolProblem} (h : pool.check = .error problem) :
    ∃ holder constant component cause, pool.Offends holder constant component cause ∧
      pool.IsFirst holder component ∧ problem = .badReference holder constant.tag cause := by
  rw [check_eq] at h
  obtain ⟨before, ⟨holder, constant⟩, after, hentries, hbefore, herror⟩ :=
    exists_first_of_forM_eq_error h
  have hlive : pool.Live holder constant := by
    rw [← mem_entries_iff_live, hentries]
    exact List.mem_append_cons_self
  obtain ⟨component, cause, hoffends, hproblem, hfirst⟩ :=
    exists_offends_of_checkComponents hlive herror
  refine ⟨holder, constant, component, cause, hoffends, ?_, hproblem⟩
  intro holder' constant' component' cause' hoffends'
  rcases Nat.lt_trichotomy holder holder' with hlt | rfl | hlt
  · exact .inl hlt
  · obtain rfl := hlive.unique hoffends'.live
    exact .inr ⟨rfl, hfirst component' cause' hoffends'⟩
  · -- constants are listed in the order of their slots, so a lower one has passed
    have hsorted := pool.sorted_entries
    have hmem := mem_entries_iff_live.2 hoffends'.live
    rw [hentries, List.map_append, List.map_cons, List.pairwise_append, List.pairwise_cons]
      at hsorted
    rw [hentries, List.mem_append, List.mem_cons] at hmem
    obtain hearlier | hsame | hlater := hmem
    · obtain ⟨-, index, tags, hrefers, hviolates⟩ := hoffends'
      have hcomponent := forM_eq_ok_iff.1 (hbefore _ hearlier) _ (List.mem_of_getElem? hrefers)
      exact absurd hcomponent (checkComponent_ne_ok hrefers hviolates)
    · cases hsame
      exact absurd hlt (Nat.lt_irrefl _)
    · have hless := hsorted.2.1.1 _ (List.mem_map_of_mem hlater)
      exact absurd hless (Nat.lt_asymm hlt)

theorem exists_get_iff (htags : tags ≠ []) :
    (∃ constant, pool.get index tags = .ok constant) ↔ pool.Holds index tags := by
  rw [get]
  simp only [bind_eq_ok_iff, item_eq_ok_iff_live]
  constructor
  · rintro ⟨constant, found, hlive, hrest⟩
    refine ⟨found, hlive, ?_⟩
    split at hrest
    · rename_i hmem
      simpa [htags] using hmem
    · cases hrest
  · rintro ⟨constant, hlive, htag⟩
    refine ⟨constant, constant, hlive, ?_⟩
    rw [if_pos (by simp [htag])]
    rfl

/-- The check passes if every reference leads to a constant of an allowed kind. -/
theorem check_eq_ok_iff_holds :
    pool.check = .ok () ↔ ∀ index constant, pool.Live index constant →
      ∀ reference ∈ constant.references, pool.Holds reference.1 reference.2 := by
  have hconstant (holder : Nat) (constant : Constant) :
      constant.references.forM (pool.checkReference holder constant.tag) = .ok () ↔
        ∀ reference ∈ constant.references, pool.Holds reference.1 reference.2 := by
    rw [forM_eq_ok_iff]
    refine forall₂_congr fun reference hreference ↦ ?_
    rw [checkReference_eq_ok_iff, exists_get_iff (Constant.tags_ne_nil hreference)]
  rw [check_eq_forM_references, forM_eq_ok_iff]
  constructor
  · intro hcheck index constant hlive
    obtain ⟨number, rfl⟩ := Int.eq_ofNat_of_zero_le (Int.le_of_lt hlive.1)
    exact (hconstant number constant).1 (hcheck _ (mem_entries_iff_live.2 hlive))
  · rintro hholds ⟨number, constant⟩ hmem
    exact (hconstant number constant).2 (hholds number constant (mem_entries_iff_live.1 hmem))

theorem check_eq_ok_iff :
    pool.check = .ok () ↔
      ¬ ∃ holder constant component cause, pool.Offends holder constant component cause := by
  constructor
  · rintro hcheck ⟨_, _, _, _, hoffends⟩
    exact hoffends.check_ne_ok hcheck
  · intro hnone
    rcases hcheck : pool.check with problem | _
    · obtain ⟨holder, constant, component, cause, hoffends, -⟩ := exists_first_of_check hcheck
      exact absurd ⟨holder, constant, component, cause, hoffends⟩ hnone
    · rfl

end Pool

/-! ### Moving constants -/

/-- The constant with other numbers for what it refers to. -/
def Constant.renumber (number : Int → Int) : Constant → Constant
  | classRef name => classRef (number name)
  | string text => string (number text)
  | fieldRef owner member => fieldRef (number owner) (number member)
  | methodRef owner member => methodRef (number owner) (number member)
  | interfaceMethodRef owner member => interfaceMethodRef (number owner) (number member)
  | nameAndType name descriptor => nameAndType (number name) (number descriptor)
  | methodHandle kind reference => methodHandle kind (number reference)
  | methodType descriptor => methodType (number descriptor)
  | dynamic bootstrap member => dynamic bootstrap (number member)
  | invokeDynamic bootstrap member => invokeDynamic bootstrap (number member)
  | module name => module (number name)
  | package name => package (number name)
  | constant => constant

theorem Constant.tag_renumber (number : Int → Int) (constant : Constant) :
    (constant.renumber number).tag = constant.tag := by
  cases constant <;> rfl

theorem Constant.references_renumber (number : Int → Int) (constant : Constant) :
    (constant.renumber number).references =
      constant.references.map fun reference ↦ (number reference.1, reference.2) := by
  cases constant <;> rfl

namespace Pool

variable {pool : Pool} {index : Int} {number : Equiv.Perm Int}

/-- The pool with its constants moved to other slots, along with all references to them. -/
def renumber (pool : Pool) (number : Equiv.Perm Int) : Pool :=
  ⟨((List.range pool.slots.size).map fun (position : Nat) ↦
    (pool.slots[(number.symm (position + 1) - 1).toNat]?.join).map (.renumber number)).toArray⟩

/-- Numbers of the pool go to numbers of the pool, and others to others. -/
def Rearranges (pool : Pool) (number : Equiv.Perm Int) : Prop :=
  ∀ index, 1 ≤ number index ∧ number index < pool.count ↔ 1 ≤ index ∧ index < pool.count

theorem count_renumber (pool : Pool) (number : Equiv.Perm Int) :
    (pool.renumber number).count = pool.count := by
  simp [count, renumber]

/-- What stood in a slot stands in the slot of its new number. -/
theorem slot_renumber (h : pool.Rearranges number) (hlow : 1 ≤ index) (hhigh : index < pool.count) :
    (pool.renumber number).slots[(number index - 1).toNat]? =
      pool.slots[(index - 1).toNat]?.map (.map (.renumber number)) := by
  obtain ⟨hlow', hhigh'⟩ := (h index).2 ⟨hlow, hhigh⟩
  have hposition : ((number index - 1).toNat : Int) + 1 = number index := by omega
  rw [renumber, List.getElem?_toArray, List.getElem?_map,
    List.getElem?_range ((lt_count_iff hlow').1 hhigh'), Option.map_some, hposition,
    Equiv.symm_apply_apply, Array.getElem?_eq_getElem ((lt_count_iff hlow).1 hhigh)]
  rfl

theorem live_renumber_iff (h : pool.Rearranges number) {found : Constant} :
    (pool.renumber number).Live (number index) found ↔
      ∃ constant, pool.Live index constant ∧ found = constant.renumber number := by
  constructor
  · intro hlive
    obtain ⟨hlow', hhigh', -⟩ := exists_live_iff.1 ⟨found, hlive⟩
    rw [count_renumber] at hhigh'
    obtain ⟨hlow, hhigh⟩ := (h index).1 ⟨hlow', hhigh'⟩
    have hslot := hlive.2
    rw [slot_renumber h hlow hhigh] at hslot
    obtain ⟨slot, hold, hmap⟩ := Option.map_eq_some_iff.1 hslot
    obtain ⟨constant, rfl, rfl⟩ := Option.map_eq_some_iff.1 hmap
    exact ⟨constant, ⟨hlow, hold⟩, rfl⟩
  · rintro ⟨constant, hlive, rfl⟩
    obtain ⟨hlow, hhigh, -⟩ := exists_live_iff.1 ⟨constant, hlive⟩
    refine ⟨((h index).2 ⟨hlow, hhigh⟩).1, ?_⟩
    rw [slot_renumber h hlow hhigh, hlive.2]
    rfl

/-- References lead to the same constants under their new numbers. -/
theorem holds_renumber_iff (h : pool.Rearranges number) {tags : List Tag} :
    (pool.renumber number).Holds (number index) tags ↔ pool.Holds index tags := by
  constructor
  · rintro ⟨found, hfound, htag⟩
    obtain ⟨constant, hlive, rfl⟩ := (live_renumber_iff h).1 hfound
    rw [Constant.tag_renumber] at htag
    exact ⟨constant, hlive, htag⟩
  · rintro ⟨constant, hlive, htag⟩
    refine ⟨_, (live_renumber_iff h).2 ⟨constant, hlive, rfl⟩, ?_⟩
    rw [Constant.tag_renumber]
    exact htag

/-- The verdict does not depend on the slots that the constants stand in. -/
theorem check_renumber (h : pool.Rearranges number) :
    (pool.renumber number).check = .ok () ↔ pool.check = .ok () := by
  rw [check_eq_ok_iff_holds, check_eq_ok_iff_holds]
  constructor
  · intro hholds index constant hlive reference hreference
    have hmoved := hholds _ _ ((live_renumber_iff h).2 ⟨constant, hlive, rfl⟩)
    rw [Constant.references_renumber, List.forall_mem_map] at hmoved
    exact (holds_renumber_iff h).1 (hmoved reference hreference)
  · intro hholds index found hfound
    -- every slot of the new pool is that of an old number
    obtain ⟨index, rfl⟩ := number.surjective index
    obtain ⟨constant, hlive, rfl⟩ := (live_renumber_iff h).1 hfound
    rw [Constant.references_renumber, List.forall_mem_map]
    intro reference hreference
    exact (holds_renumber_iff h).2 (hholds index constant hlive reference hreference)

/-- The report of a check that fails is about the first offence. -/
theorem exists_first_of_lift_check {fault : Fault} (h : lift pool.check = .error fault) :
    ∃ holder constant component cause, pool.Offends holder constant component cause ∧
      pool.IsFirst holder component ∧
      fault = .nowhere (.pool (.badReference holder constant.tag cause)) := by
  rcases hcheck : pool.check with problem | _
  · rw [hcheck] at h
    cases h
    obtain ⟨holder, constant, component, cause, hoffends, hfirst, rfl⟩ :=
      exists_first_of_check hcheck
    exact ⟨holder, constant, component, cause, hoffends, hfirst, rfl⟩
  · rw [hcheck] at h
    cases h

/-- However a pool has been put together, its check fails if some constant refers to what is not
there. It then reports, without a position, the first reference of the lowest such constant. It
passes otherwise, and does so wherever the constants stand. -/
theorem check_reports_first (slots : List (Option Constant)) :
    let pool := slots.foldl append empty
    ((∃ fault, lift pool.check = .error fault) ↔
      ∃ holder constant component cause, pool.Offends holder constant component cause) ∧
    (∀ fault, lift pool.check = .error fault →
      ∃ holder constant component cause, pool.Offends holder constant component cause ∧
        pool.IsFirst holder component ∧
        fault.formatError? = some ⟨.invalidPoolIndex,
          .lit (s!"Constant #{holder} ({constant.tag.name}): " ++ cause.message), none⟩) ∧
    ((¬ ∃ holder constant component cause, pool.Offends holder constant component cause) →
      lift pool.check = .ok ()) ∧
    ∀ number, pool.Rearranges number →
      (lift (pool.renumber number).check = .ok () ↔ lift pool.check = .ok ()) := by
  intro pool
  have hlift {pool : Pool} : lift pool.check = .ok () ↔ pool.check = .ok () := mapError_eq_ok_iff
  refine ⟨⟨?_, ?_⟩, ?_, ?_, ?_⟩
  · rintro ⟨fault, h⟩
    obtain ⟨holder, constant, component, cause, hoffends, -⟩ := exists_first_of_lift_check h
    exact ⟨holder, constant, component, cause, hoffends⟩
  · rintro ⟨holder, constant, component, cause, hoffends⟩
    rcases hcheck : lift pool.check with fault | _
    · exact ⟨fault, rfl⟩
    · exact absurd (hlift.1 hcheck) hoffends.check_ne_ok
  · intro fault h
    obtain ⟨holder, constant, component, cause, hoffends, hfirst, rfl⟩ :=
      exists_first_of_lift_check h
    exact ⟨holder, constant, component, cause, hoffends, hfirst, rfl⟩
  · exact fun hnone ↦ hlift.2 (check_eq_ok_iff.2 hnone)
  · exact fun number h ↦ hlift.trans ((check_renumber h).trans hlift.symm)

/-- A class whose name stands behind it and, with the two exchanged, before it, and a pool with two
bad references. -/
theorem check_reports_first_sample :
    let forward := [some (.classRef 2), some (.utf8 (.lit "A"))].foldl append empty
    let bad := [some (.utf8 (.lit "A")), some (.nameAndType 1 4), none, some (.classRef 3)].foldl
      append empty
    let fault := .nowhere (.pool (.badReference 2 .nameAndType
      (.unexpectedTag 4 .classRef [.utf8])))
    (forward.renumber (Equiv.swap 1 2)).slots.toList =
        [some (.utf8 (.lit "A")), some (.classRef 1)] ∧
      lift (forward.renumber (Equiv.swap 1 2)).check = .ok () ∧
      lift bad.check = .error fault ∧
      ∃ holder constant component cause, bad.Offends holder constant component cause ∧
        bad.IsFirst holder component ∧
        fault.formatError? = some ⟨.invalidPoolIndex,
          .lit (s!"Constant #{holder} ({constant.tag.name}): " ++ cause.message), none⟩ := by
  intro forward bad fault
  have hrearranges : forward.Rearranges (Equiv.swap 1 2) := by
    intro index
    rw [Equiv.swap_apply_def, show forward.count = 3 from rfl]
    split_ifs <;> omega
  exact ⟨by decide, ((check_reports_first _).2.2.2 _ hrearranges).2 rfl, rfl,
    (check_reports_first _).2.1 fault rfl⟩

end Pool

end ClassInspect
