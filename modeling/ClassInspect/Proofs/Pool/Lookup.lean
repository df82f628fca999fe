import ClassInspect.Pool.Describe
import ClassInspect.Proofs.Pool.Format

/-!
# Look-ups in a pool

A pool is sound (`Pool.Sound`) if every index inside a constant leads to a constant of an allowed
kind, and every method handle is of a kind that exists. Each pool that was read is sound
(`Pool.sound_of_run`): reading ends with a check of the references, and has checked the handles on
the way.

The check looks one reference far, and a description follows up to three of them. Soundness closes
the gap. What a reference leads to has references of its own that hold, so no chain breaks
(`Pool.Sound.exists_describeConstant`), and a look-up in a sound pool can only be refused for the
index it was asked for.
-/

namespace ClassInspect

/-! ### Refusals -/

/-- A problem is about the index that was asked for, not about one found on the way. -/
inductive PoolProblem.Concerns (index : Int) : PoolProblem → Prop
  | outOfRange (last : Nat) : Concerns index (.outOfRange index last)
  | reserved : Concerns index (.reserved index)
  | unexpectedTag (found : Tag) (expected : List Tag) :
    Concerns index (.unexpectedTag index found expected)

/-- A fault is the report of an invalid index, without a position and with the index in its
wording. -/
def Fault.ReportsIndex (index : Int) (fault : Fault) : Prop :=
  ∃ message, fault.formatError? = some ⟨.invalidPoolIndex, message, none⟩ ∧
    Text.lit s!"Constant pool index {index} " <+: message

theorem Text.lit_append (first second : String) :
    lit (first ++ second) = lit first ++ lit second := by
  simp [lit, ofChars]

theorem Text.lit_prefix_append (first second : String) : lit first <+: lit (first ++ second) := by
  rw [lit_append]
  exact List.prefix_append _ _

/-- The wording of a problem starts with the index that it is about. -/
theorem PoolProblem.Concerns.reportsIndex {index : Int} {problem : PoolProblem}
    (h : problem.Concerns index) : (Fault.ofPool problem).ReportsIndex index := by
  -- the blank keeps an index apart from longer ones that start with its digits
  have hindex (next : String) (hnext : Text.lit " " <+: Text.lit next) :
      Text.lit s!"Constant pool index {index} " <+:
        Text.lit (s!"Constant pool index {index}" ++ next) := by
    simp only [Text.lit_append, List.append_assoc, List.prefix_append_right_inj]
    exact hnext
  refine ⟨.lit problem.message, by cases h <;> rfl, ?_⟩
  cases h with
  | outOfRange last =>
    exact (hindex " out of range 1.." (by decide)).trans (Text.lit_prefix_append _ _)
  | reserved => exact hindex " is a reserved slot" (by decide)
  | unexpectedTag found expected =>
    have hfound := (hindex " is " (by decide)).trans (Text.lit_prefix_append _ found.name)
    exact (hfound.trans (Text.lit_prefix_append _ ", expected ")).trans
      (Text.lit_prefix_append _ _)

namespace Pool

variable {pool : Pool} {index : Int} {α : Type}

/-! ### Slots -/

/-- A constant stands in the slot of a number. -/
def Live (pool : Pool) (index : Int) (constant : Constant) : Prop :=
  0 < index ∧ pool.slots[(index - 1).toNat]? = some (some constant)

/-- The slot of a number is kept free. -/
def Reserved (pool : Pool) (index : Int) : Prop :=
  0 < index ∧ pool.slots[(index - 1).toNat]? = some none

/-- A constant of one of the given kinds stands in the slot of a number. -/
def Holds (pool : Pool) (index : Int) (tags : List Tag) : Prop :=
  ∃ constant, pool.Live index constant ∧ constant.tag ∈ tags

/-- The numbers of the pool are those of its slots. -/
theorem lt_count_iff (hindex : 0 < index) :
    index < pool.count ↔ (index - 1).toNat < pool.slots.size := by
  rw [count]
  omega

/-- The numbers of constants are those of the pool whose slots are not kept free. -/
theorem exists_live_iff :
    (∃ constant, pool.Live index constant) ↔
      1 ≤ index ∧ index < pool.count ∧ ¬ pool.Reserved index := by
  constructor
  · rintro ⟨constant, hindex, hslot⟩
    obtain ⟨hlt, -⟩ := Array.getElem?_eq_some_iff.1 hslot
    refine ⟨hindex, (lt_count_iff hindex).2 hlt, ?_⟩
    rintro ⟨-, hreserved⟩
    rw [hslot] at hreserved
    cases hreserved
  · rintro ⟨hindex, hcount, hfree⟩
    have hslot := Array.getElem?_eq_getElem ((lt_count_iff hindex).1 hcount)
    rcases hfound : pool.slots[(index - 1).toNat]? with _ | _ | constant
    · rw [hfound] at hslot
      cases hslot
    · exact absurd ⟨hindex, hfound⟩ hfree
    · exact ⟨constant, hindex, hfound⟩

/-- A look-up gives the constant in the slot of its number. -/
theorem item_eq_ok_iff_live {constant : Constant} :
    pool.item index = .ok constant ↔ pool.Live index constant := by
  rcases Int.lt_or_le 0 index with hindex | hindex
  · obtain ⟨number, rfl⟩ := Int.eq_ofNat_of_zero_le (Int.le_of_lt hindex)
    rw [item_eq_ok_iff, Live]
    cases number with
    | zero => simp at hindex
    | succ number => simp
  · unfold item Live
    rw [if_neg (by omega)]
    exact iff_of_false (fun h ↦ by cases h) fun h ↦ by omega

/-- A look-up where no constant stands is refused for its own index. -/
theorem exists_item_eq_error (h : ¬ ∃ constant, pool.Live index constant) :
    ∃ problem, pool.item index = .error problem ∧ problem.Concerns index := by
  unfold item
  split
  · rename_i inside
    have hlt := (lt_count_iff inside.1).1 inside.2
    rcases hslot : pool.slots[(index - 1).toNat]? with _ | _ | constant
    · exact absurd hlt (Nat.not_lt.2 (Array.getElem?_eq_none_iff.1 hslot))
    · exact ⟨_, rfl, .reserved⟩
    · exact absurd ⟨constant, inside.1, hslot⟩ h
  · exact ⟨_, rfl, .outOfRange _⟩

/-- The constants that are listed are those in the slots of their numbers. -/
theorem live_of_mem_entries {number : Nat} {constant : Constant}
    (h : (number, constant) ∈ pool.entries) : pool.Live number constant := by
  obtain ⟨⟨slot, position⟩, hmem, hslot⟩ := List.mem_filterMap.1 h
  obtain ⟨_, rfl, hpair⟩ := Option.map_eq_some_iff.1 hslot
  cases hpair
  obtain ⟨hposition, hget⟩ := List.mk_mem_zipIdx_iff_le_and_getElem?_sub.1 hmem
  have hindex : ((number : Int) - 1).toNat = number - 1 := by omega
  refine ⟨by omega, ?_⟩
  rw [hindex, ← Array.getElem?_toList]
  exact hget

theorem Live.some_mem_slots {constant : Constant} (h : pool.Live index constant) :
    some constant ∈ pool.slots.toList := by
  rw [Array.mem_toList_iff]
  exact Array.mem_of_getElem? h.2

/-! ### Soundness -/

/-- Every index inside a constant leads to a constant of an allowed kind, and every method handle
is of a kind that exists. -/
structure Sound (pool : Pool) : Prop where
  references : ∀ {index constant}, pool.Live index constant →
    ∀ reference ∈ constant.references, pool.Holds reference.1 reference.2
  handles : ∀ {index kind reference}, pool.Live index (.methodHandle kind reference) →
    ∃ name, ReferenceKind.ofCode? kind = some name

end Pool

/-- A well-formed description means a sound pool. -/
theorem RawPool.sound_denote {raw : RawPool} (h : raw.WellFormed) : raw.denote.Sound := by
  have hraw {index : Int} {constant : Constant} (hlive : raw.denote.Live index constant) :
      ∃ c ∈ raw, constant = c.denote :=
    mem_entries_denote.1 (Pool.exists_mem_entries_iff.2 hlive.some_mem_slots)
  constructor
  · intro index constant hlive
    obtain ⟨c, hc, rfl⟩ := hraw hlive
    rw [RawConstant.references_denote, List.forall_mem_map]
    intro reference hreference
    obtain ⟨target, htarget, htag⟩ := h.references c hc reference hreference
    refine ⟨target.denote, ?_, by rw [RawConstant.tag_denote]; exact htag⟩
    exact Pool.item_eq_ok_iff_live.1 (item_denote.2 ⟨target, htarget, rfl⟩)
  · intro index kind reference hlive
    obtain ⟨c, hc, hdenote⟩ := hraw hlive
    cases c with
    | methodHandle code target =>
      cases hdenote
      have hcode := ReferenceKind.isSome_ofCode?_iff.2 (h.constants _ hc)
      exact Option.isSome_iff_exists.1 hcode
    | _ => cases hdenote

namespace Pool

variable {pool : Pool} {index : Int} {α : Type}

/-- Every pool that was read is sound. -/
theorem sound_of_run {verbose : Bool} {s : Scan.State} {c : Cursor}
    (h : Scan.run (read verbose) s = (.ok pool, c)) : pool.Sound := by
  obtain ⟨_, -, -, raw, hraw, rfl, -⟩ := (reads_read verbose s pool c).1 h
  exact raw.sound_denote hraw

/-! ### Chains of references -/

theorem exists_lift_eq_ok {outcome : Except PoolProblem α} (h : ∃ value, outcome = .ok value) :
    ∃ value, lift outcome = .ok value :=
  h.imp fun _ ↦ mapError_eq_ok_iff.2

theorem exists_utf8 (h : pool.Holds index [.utf8]) : ∃ text, pool.utf8 index = .ok text := by
  obtain ⟨constant, hlive, htag⟩ := h
  cases constant with
  | utf8 text => exact ⟨text, bind_eq_ok_iff.2 ⟨_, item_eq_ok_iff_live.2 hlive, rfl⟩⟩
  | _ => simp [Constant.tag] at htag

theorem lift_item_of_live {constant : Constant} (h : pool.Live index constant) :
    lift (pool.item index) = .ok constant :=
  mapError_eq_ok_iff.2 (item_eq_ok_iff_live.2 h)

namespace Sound

variable (hsound : pool.Sound)
include hsound

theorem exists_className (h : pool.Holds index [.classRef]) :
    ∃ name, pool.className index = .ok name := by
  obtain ⟨constant, hlive, htag⟩ := h
  cases constant with
  | classRef name =>
    obtain ⟨text, htext⟩ := exists_utf8 (hsound.references hlive _ (.head _))
    exact ⟨text, bind_eq_ok_iff.2 ⟨_, item_eq_ok_iff_live.2 hlive, htext⟩⟩
  | _ => simp [Constant.tag] at htag

theorem exists_nameAndType (h : pool.Holds index [.nameAndType]) :
    ∃ texts, pool.nameAndType index = .ok texts := by
  obtain ⟨constant, hlive, htag⟩ := h
  cases constant with
  | nameAndType name descriptor =>
    have hname := exists_utf8 (hsound.references hlive _ (.head _))
    have hdescriptor := exists_utf8 (hsound.references hlive _ (.tail _ (.head _)))
    obtain ⟨texts, htexts⟩ := exists_bind_eq_ok hname fun name _ ↦
      exists_bind_eq_ok hdescriptor fun descriptor _ ↦ ⟨(name, descriptor), rfl⟩
    exact ⟨texts, bind_eq_ok_iff.2 ⟨_, item_eq_ok_iff_live.2 hlive, htexts⟩⟩
  | _ => simp [Constant.tag] at htag

theorem exists_nameAndTypeText (h : pool.Holds index [.nameAndType]) :
    ∃ text, pool.nameAndTypeText index = .ok text :=
  exists_bind_eq_ok (exists_lift_eq_ok (hsound.exists_nameAndType h)) fun _ _ ↦ ⟨_, rfl⟩

theorem exists_memberText {owner member : Int} (howner : pool.Holds owner [.classRef])
    (hmember : pool.Holds member [.nameAndType]) :
    ∃ text, pool.memberText owner member = .ok text :=
  exists_bind_eq_ok (exists_lift_eq_ok (hsound.exists_className howner)) fun _ _ ↦
    exists_bind_eq_ok (exists_lift_eq_ok (hsound.exists_nameAndType hmember)) fun _ _ ↦ ⟨_, rfl⟩

/-- The payload of a member is a pair of indices that lead to a class and to a name and type. -/
theorem exists_handleText {constant : Constant} (hlive : pool.Live index constant)
    (htag : constant.tag ∈ [Tag.fieldRef, .methodRef, .interfaceMethodRef]) :
    ∃ text, pool.handleText constant.payload = .ok text := by
  have hreferences := hsound.references hlive
  cases constant with
  | fieldRef | methodRef | interfaceMethodRef =>
    exact hsound.exists_memberText (hreferences _ (.head _)) (hreferences _ (.tail _ (.head _)))
  | _ => simp [Constant.tag] at htag

/-- Every constant of a sound pool has a description. -/
theorem exists_describeConstant {constant : Constant} (hlive : pool.Live index constant) :
    ∃ text, pool.describeConstant index constant = .ok text := by
  have hreferences := hsound.references hlive
  cases constant with
  | utf8 | integer | float | long | double => exact ⟨_, rfl⟩
  | classRef | string | methodType | module | package =>
    have htext := exists_utf8 (hreferences _ (.head _))
    exact exists_bind_eq_ok (exists_lift_eq_ok htext) fun _ _ ↦ ⟨_, rfl⟩
  | fieldRef | methodRef | interfaceMethodRef =>
    have hmember := hsound.exists_memberText (hreferences _ (.head _))
      (hreferences _ (.tail _ (.head _)))
    exact exists_bind_eq_ok hmember fun _ _ ↦ ⟨_, rfl⟩
  | nameAndType => exact hsound.exists_nameAndTypeText ⟨_, hlive, List.mem_singleton.2 rfl⟩
  | dynamic | invokeDynamic =>
    have hmember := hsound.exists_nameAndTypeText (hreferences _ (.head _))
    exact exists_bind_eq_ok hmember fun _ _ ↦ ⟨_, rfl⟩
  | methodHandle kind reference =>
    obtain ⟨name, hname⟩ := hsound.handles hlive
    obtain ⟨target, htarget, htag⟩ := hreferences _ (.head _)
    have hitem := lift_item_of_live htarget
    refine exists_bind_eq_ok ⟨target, hitem⟩ fun found hfound ↦ ?_
    obtain rfl : target = found := Except.ok.inj (hitem.symm.trans hfound)
    rw [hname]
    exact exists_bind_eq_ok (hsound.exists_handleText htarget htag) fun _ _ ↦ ⟨_, rfl⟩

theorem exists_describe {constant : Constant} (hlive : pool.Live index constant) :
    ∃ text, pool.describe index = .ok text := by
  obtain ⟨text, htext⟩ := hsound.exists_describeConstant hlive
  exact ⟨text, bind_eq_ok_iff.2 ⟨constant, lift_item_of_live hlive, htext⟩⟩

end Sound

/-- A description where no constant stands is refused for its own index. -/
theorem exists_describe_eq_error (h : ¬ ∃ constant, pool.Live index constant) :
    ∃ fault, pool.describe index = .error fault ∧ fault.ReportsIndex index := by
  obtain ⟨problem, hitem, hconcerns⟩ := exists_item_eq_error h
  refine ⟨.ofPool problem, ?_, hconcerns.reportsIndex⟩
  rw [describe, hitem]
  rfl

/-! ### Decided look-ups -/

/-- An outcome is a success if a condition holds, and else a report about an index. -/
structure Decides {α : Type} (outcome : Except Fault α) (index : Int) (condition : Prop) :
    Prop where
  succeeds_iff : (∃ value, outcome = .ok value) ↔ condition
  refuses : ¬ condition → ∃ fault, outcome = .error fault ∧ fault.ReportsIndex index

theorem Decides.of_refuses {outcome : Except Fault α} {condition : Prop}
    (hok : condition → ∃ value, outcome = .ok value)
    (herror : ¬ condition → ∃ fault, outcome = .error fault ∧ fault.ReportsIndex index) :
    Decides outcome index condition := by
  refine ⟨⟨?_, hok⟩, herror⟩
  rintro ⟨value, hvalue⟩
  by_contra hcondition
  obtain ⟨fault, hfault, -⟩ := herror hcondition
  rw [hvalue] at hfault
  cases hfault

/-- A look-up of a constant of one kind, which refuses all other kinds, is decided by the kind of
what stands in the slot. -/
theorem Decides.of_item {tag : Tag} {next : Constant → Except PoolProblem α}
    (hok : pool.Holds index [tag] → ∃ value, (pool.item index >>= next) = .ok value)
    (hother : ∀ constant : Constant, constant.tag ≠ tag →
      ∃ problem, next constant = .error problem ∧ problem.Concerns index) :
    Decides (lift (pool.item index >>= next)) index (pool.Holds index [tag]) := by
  refine Decides.of_refuses (fun hholds ↦ exists_lift_eq_ok (hok hholds)) fun hholds ↦ ?_
  obtain ⟨problem, hproblem, hconcerns⟩ : ∃ problem,
      (pool.item index >>= next) = .error problem ∧ problem.Concerns index := by
    by_cases hlive : ∃ constant, pool.Live index constant
    · obtain ⟨constant, hlive⟩ := hlive
      rw [item_eq_ok_iff_live.2 hlive]
      refine hother constant fun htag ↦ hholds ⟨constant, hlive, ?_⟩
      exact List.mem_singleton.2 htag
    · obtain ⟨problem, hitem, hconcerns⟩ := exists_item_eq_error hlive
      rw [hitem]
      exact ⟨problem, rfl, hconcerns⟩
  rw [hproblem]
  exact ⟨_, rfl, hconcerns.reportsIndex⟩

/-- In a pool that was read, descriptions exist for exactly the numbers of the pool whose slots are
not kept free, and look-ups of classes, of names and types and of texts succeed for exactly the
numbers where a constant of this kind stands. Nothing fails but with a report of an invalid index,
and the index is the one that was asked for. -/
theorem decides_of_run {verbose : Bool} {s : Scan.State} {c : Cursor}
    (h : Scan.run (read verbose) s = (.ok pool, c)) (index : Int) :
    Decides (pool.describe index) index
      (1 ≤ index ∧ index < pool.count ∧ ¬ pool.Reserved index) ∧
    Decides (lift (pool.className index)) index (pool.Holds index [.classRef]) ∧
    Decides (lift (pool.nameAndType index)) index (pool.Holds index [.nameAndType]) ∧
    Decides (lift (pool.utf8 index)) index (pool.Holds index [.utf8]) := by
  have hsound := sound_of_run h
  refine ⟨?_, ?_, ?_, ?_⟩
  · rw [← exists_live_iff]
    refine Decides.of_refuses ?_ fun hlive ↦ ?_
    · rintro ⟨constant, hlive⟩
      exact hsound.exists_describe hlive
    · exact exists_describe_eq_error hlive
  · refine Decides.of_item hsound.exists_className fun constant htag ↦ ?_
    cases constant with
    | classRef => exact absurd rfl htag
    | _ => exact ⟨_, rfl, .unexpectedTag _ _⟩
  · refine Decides.of_item hsound.exists_nameAndType fun constant htag ↦ ?_
    cases constant with
    | nameAndType => exact absurd rfl htag
    | _ => exact ⟨_, rfl, .unexpectedTag _ _⟩
  · refine Decides.of_item exists_utf8 fun constant htag ↦ ?_
    cases constant with
    | utf8 => exact absurd rfl htag
    | _ => exact ⟨_, rfl, .unexpectedTag _ _⟩

/-- A pool with a chain of references from a method handle down to texts, and with a number that
takes two slots. -/
def sample : Pool :=
  ⟨#[some (.utf8 (.lit "A")), some (.classRef 1), some (.utf8 (.lit "m")),
    some (.utf8 (.lit "()V")), some (.nameAndType 3 4), some (.methodRef 2 5),
    some (.methodHandle 6 6), some (.long 1), none]⟩

/-- The bytes of the sample. -/
def sampleBytes : Bytes :=
  [0, 10, 1, 0, 1, 0x41, 7, 0, 1, 1, 0, 1, 0x6D, 1, 0, 3, 0x28, 0x29, 0x56, 12, 0, 3, 0, 4,
    10, 0, 2, 0, 5, 15, 6, 0, 6, 5, 0, 0, 0, 0, 0, 0, 0, 1]

/-- In the sample, the method handle is described, the slot behind the number is refused, and so is
a name and type where a class is asked for. -/
theorem decides_of_run_sample :
    (Scan.run (read false) (.start sampleBytes 0)).1 = .ok sample ∧
    (∃ text, sample.describe 7 = .ok text) ∧
    (∃ fault, sample.describe 9 = .error fault ∧ fault.ReportsIndex 9) ∧
    (∃ fault, lift (sample.className 5) = .error fault ∧ fault.ReportsIndex 5) := by
  have hread : (Scan.run (read false) (.start sampleBytes 0)).1 = .ok sample := by
    decide +kernel
  have hdecides := decides_of_run (Prod.ext hread rfl)
  refine ⟨hread, (hdecides 7).1.succeeds_iff.2 ⟨by decide, by decide, ?_⟩,
    (hdecides 9).1.refuses ?_, (hdecides 5).2.1.refuses ?_⟩
  · rintro ⟨-, hslot⟩
    cases hslot
  · rintro ⟨-, -, hfree⟩
    exact hfree ⟨by decide, rfl⟩
  · rintro ⟨constant, ⟨-, hslot⟩, htag⟩
    cases hslot
    simp [Constant.tag] at htag

end Pool

end ClassInspect
