import Mathlib.Data.Nat.Bitwise
import ClassInspect.Flags
import ClassInspect.Proofs.Outcome

/-!
# The names of access flags

Showing flags succeeds if every set bit has a name on its owner (`Flags.names_of_named`), and else
fails with the lowest bit that has none (`Flags.names_eq_error`). Methods have names for all sixteen
bits, classes for all but two, and fields for all but one; so which flags can be shown is a question
about three bits of the word.
-/

namespace ClassInspect

/-- The positions of the bits without a name on an owner, the lowest first. -/
def FlagOwner.unnamed : FlagOwner → List Nat
  | type => [6, 7]
  | field => [5]
  | method => []

theorem FlagOwner.lt_of_mem_unnamed (owner : FlagOwner) :
    ∀ position ∈ owner.unnamed, position < 16 := by
  cases owner <;> decide

theorem FlagOwner.name?_eq_none_iff (owner : FlagOwner) :
    ∀ position < 16, owner.name? (Nat.pow 2 position) = none ↔ position ∈ owner.unnamed := by
  cases owner <;> decide

namespace Flags

variable {flags : Flags} {owner : FlagOwner}

/-- A bit of the word is set. -/
def Has (flags : Flags) (bit : UInt16) : Prop :=
  flags.word &&& bit ≠ 0

instance (flags : Flags) (bit : UInt16) : Decidable (flags.Has bit) :=
  inferInstanceAs (Decidable (flags.word &&& bit ≠ 0))

/-- Every set bit has a name on the owner. -/
def Named (flags : Flags) (owner : FlagOwner) : Prop :=
  ∀ bit ∈ flags.bits, owner.name? bit ≠ none

/-! ### Bits and positions -/

/-- A bit is set if the binary digit at its position is one. -/
theorem has_iff_testBit (flags : Flags) {position : Nat} (h : position < 16) :
    flags.Has (.ofNat (Nat.pow 2 position)) ↔ flags.word.toNat.testBit position = true := by
  have hpow : Nat.pow 2 position < 65536 := Nat.pow_lt_pow_right (by decide) h
  have hand : flags.word.toNat &&& Nat.pow 2 position =
      (flags.word.toNat.testBit position).toNat * Nat.pow 2 position := Nat.and_two_pow _ _
  rw [Has, ne_eq, ← UInt16.toNat_inj, UInt16.toNat_and, UInt16.toNat_ofNat',
    Nat.mod_eq_of_lt hpow, hand]
  cases flags.word.toNat.testBit position with
  | false => simp
  | true => simp

/-- The values of the set bits are those of their positions. -/
theorem forall_mem_bits_iff {p : Nat → Prop} :
    (∀ bit ∈ flags.bits, p bit) ↔
      ∀ position < 16, flags.word.toNat.testBit position = true → p (Nat.pow 2 position) := by
  rw [bits, List.forall_mem_map]
  simp only [List.mem_filter, List.mem_range, and_imp]

/-- All set bits have names if none of the bits without a name is set. -/
theorem named_iff :
    flags.Named owner ↔ ∀ position ∈ owner.unnamed, flags.word.toNat.testBit position ≠ true := by
  rw [Named, forall_mem_bits_iff]
  constructor
  · intro hnamed position hposition hset
    have hlt := owner.lt_of_mem_unnamed position hposition
    exact hnamed position hlt hset ((owner.name?_eq_none_iff position hlt).2 hposition)
  · intro hunset position hlt hset hname
    exact hunset position ((owner.name?_eq_none_iff position hlt).1 hname) hset

theorem has_32_iff : flags.Has 0x20 ↔ flags.word.toNat.testBit 5 = true :=
  flags.has_iff_testBit (show 5 < 16 by decide)

theorem has_64_iff : flags.Has 0x40 ↔ flags.word.toNat.testBit 6 = true :=
  flags.has_iff_testBit (show 6 < 16 by decide)

theorem has_128_iff : flags.Has 0x80 ↔ flags.word.toNat.testBit 7 = true :=
  flags.has_iff_testBit (show 7 < 16 by decide)

theorem named_type_iff : flags.Named .type ↔ ¬ flags.Has 0x40 ∧ ¬ flags.Has 0x80 := by
  rw [named_iff, has_64_iff, has_128_iff, FlagOwner.unnamed, List.forall_mem_cons,
    List.forall_mem_singleton]

theorem named_field_iff : flags.Named .field ↔ ¬ flags.Has 0x20 := by
  rw [named_iff, has_32_iff, FlagOwner.unnamed, List.forall_mem_singleton]

theorem named_method (flags : Flags) : flags.Named .method := by
  rw [named_iff, FlagOwner.unnamed]
  exact List.forall_mem_nil _

/-! ### Names -/

theorem names_of_named (h : flags.Named owner) :
    flags.names owner = .ok (flags.bits.filterMap owner.name?) := by
  unfold Named at h
  unfold names
  generalize flags.bits = bits at h ⊢
  induction bits with
  | nil => rfl
  | cons bit bits ih =>
    obtain ⟨hbit, hbits⟩ := List.forall_mem_cons.1 h
    obtain ⟨name, hname⟩ := Option.ne_none_iff_exists'.1 hbit
    rw [List.mapM_cons, ih hbits, List.filterMap_cons, hname]
    rfl

theorem names_of_find? {bit : Nat}
    (h : flags.bits.find? (fun bit ↦ (owner.name? bit).isNone) = some bit) :
    flags.names owner = .error (.unnamedFlag bit) := by
  unfold names
  generalize flags.bits = bits at h ⊢
  induction bits with
  | nil => cases h
  | cons first bits ih =>
    rw [List.mapM_cons]
    rcases hname : owner.name? first with _ | name
    · rw [List.find?_cons_of_pos (by simp [hname])] at h
      cases h
      rfl
    · rw [List.find?_cons_of_neg (by simp [hname])] at h
      rw [ih h]
      rfl

/-- Showing flags fails with the lowest set bit that has no name. -/
theorem names_eq_error {position : Nat} (hposition : position ∈ owner.unnamed)
    (hset : flags.word.toNat.testBit position = true)
    (hbelow : ∀ lower ∈ owner.unnamed, lower < position →
      flags.word.toNat.testBit lower ≠ true) :
    flags.names owner = .error (.unnamedFlag (Nat.pow 2 position)) := by
  have hlt := owner.lt_of_mem_unnamed position hposition
  refine names_of_find? ?_
  rw [bits, List.find?_map, List.find?_filter, Option.map_eq_some_iff]
  refine ⟨position, List.find?_range_eq_some.2 ⟨?_, List.mem_range.2 hlt, ?_⟩, rfl⟩
  · simpa [hset] using (owner.name?_eq_none_iff position hlt).2 hposition
  · intro lower hlower
    have hname := owner.name?_eq_none_iff lower (by omega)
    simp only [Function.comp_apply, Option.isNone_iff_eq_none, hname, Bool.not_eq_true',
      decide_eq_false_iff_not]
    rintro ⟨hset, hmem⟩
    exact hbelow lower hmem hlower hset

/-- Of the two bits without a name on classes, the lower one is reported. -/
theorem names_type_of_has_64 (h : flags.Has 0x40) :
    flags.names .type = .error (.unnamedFlag 0x40) := by
  have hlowest : ∀ lower ∈ FlagOwner.unnamed .type, ¬ lower < 6 := by decide
  exact names_eq_error (by decide) (has_64_iff.1 h) fun lower hmem hlt ↦
    absurd hlt (hlowest lower hmem)

theorem names_type_of_has_128 (h64 : ¬ flags.Has 0x40) (h128 : flags.Has 0x80) :
    flags.names .type = .error (.unnamedFlag 0x80) := by
  have hlower : ∀ lower ∈ FlagOwner.unnamed .type, lower < 7 → lower = 6 := by decide
  refine names_eq_error (by decide) (has_128_iff.1 h128) fun lower hmem hlt ↦ ?_
  rw [hlower lower hmem hlt]
  exact mt has_64_iff.2 h64

theorem names_field_of_has_32 (h : flags.Has 0x20) :
    flags.names .field = .error (.unnamedFlag 0x20) := by
  have hlowest : ∀ lower ∈ FlagOwner.unnamed .field, ¬ lower < 5 := by decide
  exact names_eq_error (by decide) (has_32_iff.1 h) fun lower hmem hlt ↦
    absurd hlt (hlowest lower hmem)

end Flags

end ClassInspect
