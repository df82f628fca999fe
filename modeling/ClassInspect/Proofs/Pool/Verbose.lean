import ClassInspect.Proofs.Pool.Format
import ClassInspect.Proofs.Scan.Logs
import ClassInspect.Proofs.ClassFile.Stepwise

/-!
# The records of constants

A pool that is read verbosely is read like any other, and one record is written for each constant
on the way. These constants are found in the bytes alone (`RawPool.ReadableFrom`): one after the
other, as long as a slot is left and a constant stands there. A constant that takes two slots is
among them also if the second slot is missing, and so are those before a fault.

All records stand together, since a pool writes nothing else until its last slot is filled. So the
verbose reading is the plain one with these records put into the log (`Pool.insertRecords`), however
both end, and this is what the induction on the slots is about
(`Pool.exists_insertRecords_readSlots`). The record of a constant is already in the log when the
others are read; they are written behind it because no scan looks at its log
(`Scan.Stepwise.carries`).

Reading a constant is either a success with all that is known from the format of constants, or a
failure where none stands (`Constant.read_cases`), and writes no record itself.
-/

namespace ClassInspect

open Scan (Silent State)

/-! ### Constants -/

namespace Constant

theorem silent_ofPayload (place : Int) (bytes : Bytes) : Silent (ofPayload place bytes) := by
  unfold ofPayload
  split
  · exact .pure _
  · exact .throw _

theorem silent_readBody (place : Int) (tag : Tag) : Silent (readBody place tag) := by
  cases tag with
  | utf8 => exact .bind (.unsigned 2) fun length ↦ .bind (.take length) (silent_ofPayload place)
  | integer | long => exact .bind (.signed _) fun _ ↦ .pure _
  | float | double => exact .bind (.bind (.unsigned _) fun _ ↦ .pure _) fun _ ↦ .pure _
  | classRef | string | methodType | module | package =>
    exact .bind (.unsigned 2) fun _ ↦ .pure _
  | fieldRef | methodRef | interfaceMethodRef | nameAndType | dynamic | invokeDynamic =>
    exact .bind (.unsigned 2) fun _ ↦ .bind (.unsigned 2) fun _ ↦ .pure _
  | methodHandle =>
    rw [readBody_methodHandle]
    refine .bind (.unsigned 1) fun kind ↦ .bind (.unsigned 2) fun reference ↦ ?_
    split
    · exact .pure _
    · exact .fail _ _

/-- Reading a constant writes no record. -/
theorem silent_read : Silent read := by
  refine .bind .place fun place ↦ .bind (.unsigned 1) fun code ↦ ?_
  unfold readRest
  split
  · exact .fail _ _
  · exact silent_readBody place _

/-- A constant is read if one stands ahead, and then the cursor moves behind it. -/
theorem read_cases (s : State) :
    (∃ constant : RawConstant, constant.WellFormed ∧ constant.write <+: s.cursor.rest ∧
      read s = .ok constant.denote ⟨s.cursor.advance constant.write.length, s.log⟩) ∨
    ((∀ constant : RawConstant, constant.WellFormed → ¬ constant.write <+: s.cursor.rest) ∧
      ∃ fault c, read s = .error fault ⟨c, s.log⟩) := by
  rcases hrun : Scan.run read s with ⟨fault | value, c⟩
  · refine .inr ⟨fun constant hconstant hahead ↦ ?_, fault, c, silent_read.eq_error_of_run hrun⟩
    have hok := (decodes_read s constant.denote _).2
      ⟨_, hahead, rfl, constant, hconstant, rfl, rfl⟩
    rw [hrun] at hok
    cases hok
  · obtain ⟨_, hahead, rfl, constant, hconstant, rfl, rfl⟩ := (decodes_read s value c).1 hrun
    exact .inl ⟨constant, hconstant, hahead, silent_read.eq_ok_of_run hrun⟩

end Constant

namespace RawConstant

theorem size_slots_denote (constant : RawConstant) :
    constant.denote.slots.size = constant.slots.length := by
  rw [slots_denote, List.size_toArray, List.length_map]

theorem length_slots_pos (constant : RawConstant) : 0 < constant.slots.length := by
  cases constant <;> exact Nat.succ_pos _

end RawConstant

namespace RawPool

/-- The constants that stand one after the other at the front of some bytes, as long as one of
`left` slots remains for the next to start in. -/
inductive ReadableFrom : (left : Nat) → Bytes → RawPool → Prop
  | full (bytes : Bytes) : ReadableFrom 0 bytes []
  | stuck {left : Nat} {bytes : Bytes}
      (h : ∀ constant : RawConstant, constant.WellFormed → ¬ constant.write <+: bytes) :
      ReadableFrom left bytes []
  | cons {left : Nat} {bytes : Bytes} {constant : RawConstant} {constants : RawPool}
      (hconstant : constant.WellFormed)
      (hconstants : ReadableFrom (left + 1 - constant.slots.length) bytes constants) :
      ReadableFrom (left + 1) (constant.write ++ bytes) (constant :: constants)

/-- The constants with the numbers of their first slots, from a given number on. -/
def numbered : (number : Nat) → RawPool → List (Nat × Constant)
  | _, [] => []
  | number, constant :: constants =>
    (number, constant.denote) :: numbered (number + constant.slots.length) constants

/-- The constants of a pool are numbered by their slots. -/
theorem entries_denote (constants : RawPool) : constants.denote.entries = numbered 1 constants := by
  have hgeneral (number : Nat) :
      (constants.denote.slots.toList.zipIdx number).filterMap
        (fun slot ↦ slot.1.map (slot.2, ·)) = numbered number constants := by
    induction constants generalizing number with
    | nil => rfl
    | cons constant constants ih =>
      rw [denote_cons, Array.toList_append, List.zipIdx_append, List.filterMap_append, ih]
      cases constant <;> rfl
  exact hgeneral 1

end RawPool

namespace Pool

open RawPool (ReadableFrom numbered)

/-- The record of a constant. -/
def record (entry : Nat × Constant) : LogRecord :=
  ⟨.debug, .reader, .lit s!"constant #{entry.1}: " ++ entry.2.label⟩

/-! ### Slots -/

/-- Fills the slots behind those of a constant, if there is room for all its slots. -/
def readBehind (verbose : Bool) (left : Nat) (pool : Pool) (constant : Constant) : Scan Pool :=
  if left < constant.slots.size then throw (.nowhere (.pool .lastTakesTwo))
  else readSlots verbose (left - constant.slots.size) ⟨pool.slots ++ constant.slots⟩

theorem readSlots_succ (verbose : Bool) (left : Nat) (pool : Pool) :
    readSlots verbose (left + 1) pool =
      readEntry verbose pool.count >>= readBehind verbose (left + 1) pool := by
  rw [readSlots]
  refine bind_congr fun constant ↦ ?_
  rw [readBehind, Constant.slots]
  rcases constant.takesTwo with _ | _
  · show readSlots verbose left (pool.append (some constant)) = if left + 1 < 1 then _
      else readSlots verbose left ⟨pool.slots ++ #[some constant]⟩
    rw [if_neg (by omega)]
    rfl
  · cases left with
    | zero => rfl
    | succ left =>
      have hpool : (pool.append (some constant)).append none =
          ⟨pool.slots ++ #[some constant, none]⟩ := by
        rw [append, append, Pool.mk.injEq, ← Array.toList_inj]
        simp
      show readSlots verbose left ((pool.append (some constant)).append none) =
        if left + 1 + 1 < 2 then _
        else readSlots verbose left ⟨pool.slots ++ #[some constant, none]⟩
      rw [if_neg (by omega), hpool]

theorem stepwise_readBehind (verbose : Bool) (left : Nat) (pool : Pool) (constant : Constant) :
    Scan.Stepwise ReaderFault (readBehind verbose left pool constant) := by
  unfold readBehind
  split
  · exact .throw (by simp [ReaderFault, Fault.nowhere, Problem.kind])
  · exact stepwise_readSlots verbose _ _

/-- The change between a plain and a verbose reading of a pool whose next slot has the given
number. -/
def insertRecords (number : Nat) (constants : RawPool) : State → State :=
  .relog (((numbered number constants).map record).toArray ++ ·)

theorem insertRecords_nil (number : Nat) : insertRecords number [] = id := by
  funext s
  simp [insertRecords, State.relog, numbered]

theorem insertRecords_cons (number : Nat) (constant : RawConstant) (constants : RawPool) :
    insertRecords number (constant :: constants) =
      .relog (#[record (number, constant.denote)] ++ ·) ∘
        insertRecords (number + constant.slots.length) constants := by
  funext s
  simp [insertRecords, State.relog, numbered, ← Array.append_assoc]

theorem readEntry_of_ok {verbose : Bool} {number : Nat} {s t : State} {constant : Constant}
    (h : Constant.read s = .ok constant t) :
    readEntry verbose number s = .ok constant
      (if verbose then t.relog (·.push (record (number, constant))) else t) := by
  rw [readEntry, bind_apply_of_ok h]
  cases verbose <;> rfl

theorem readEntry_of_error {verbose : Bool} {number : Nat} {s t : State} {fault : Fault}
    (h : Constant.read s = .error fault t) : readEntry verbose number s = .error fault t := by
  rw [readEntry, bind_apply_of_error h]

theorem count_append_slots (pool : Pool) (constant : RawConstant) :
    count ⟨pool.slots ++ constant.denote.slots⟩ = pool.count + constant.slots.length := by
  rw [count, count, Array.size_append, constant.size_slots_denote]
  omega

/-- The records of a verbose reading behind a constant, given those of a reading of fewer slots. -/
theorem exists_insertRecords_readBehind {left : Nat} (pool : Pool) (constant : RawConstant)
    (c : Cursor)
    (ih : ∀ pool', ∃ constants, ReadableFrom (left - constant.slots.length) c.rest constants ∧
      readSlots true (left - constant.slots.length) pool' ⟨c, #[]⟩ =
        changeState (insertRecords pool'.count constants)
          (readSlots false (left - constant.slots.length) pool' ⟨c, #[]⟩)) :
    ∃ constants, ReadableFrom (left - constant.slots.length) c.rest constants ∧
      readBehind true left pool constant.denote ⟨c, #[]⟩ =
        changeState (insertRecords (pool.count + constant.slots.length) constants)
          (readBehind false left pool constant.denote ⟨c, #[]⟩) := by
  rw [readBehind, readBehind, constant.size_slots_denote]
  split
  · -- the second slot is missing, in both readings
    rename_i hlt
    rw [Nat.sub_eq_zero_of_le (Nat.le_of_lt hlt)]
    refine ⟨[], .full c.rest, ?_⟩
    rw [insertRecords_nil]
    rfl
  · obtain ⟨constants, hreadable, hslots⟩ := ih ⟨pool.slots ++ constant.denote.slots⟩
    rw [count_append_slots] at hslots
    exact ⟨constants, hreadable, hslots⟩

/-- Of a pool read verbosely, all records are those of the constants. -/
theorem exists_insertRecords_readSlots (left : Nat) (pool : Pool) (c : Cursor) :
    ∃ constants, ReadableFrom left c.rest constants ∧
      readSlots true left pool ⟨c, #[]⟩ =
        changeState (insertRecords pool.count constants) (readSlots false left pool ⟨c, #[]⟩) := by
  induction left using Nat.strongRecOn generalizing pool c with
  | ind left ih =>
    cases left with
    | zero =>
      refine ⟨[], .full c.rest, ?_⟩
      rw [insertRecords_nil]
      rfl
    | succ left =>
      rw [readSlots_succ, readSlots_succ]
      rcases Constant.read_cases ⟨c, #[]⟩ with
        ⟨constant, hconstant, ⟨rest, hrest⟩, hread⟩ | ⟨hnone, fault, c', hread⟩
      · have hpositive := constant.length_slots_pos
        have hadvance : (c.advance constant.write.length).rest = rest := by
          rw [Cursor.rest_advance, ← hrest, List.drop_left]
        obtain ⟨constants, hreadable, hbehind⟩ :=
          exists_insertRecords_readBehind pool constant (c.advance constant.write.length)
            fun pool' ↦ ih (left + 1 - constant.slots.length) (by omega) pool' _
        refine ⟨constant :: constants, ?_, ?_⟩
        · rw [← hrest]
          rw [hadvance] at hreadable
          exact .cons hconstant hreadable
        · -- the record of the constant stands in the log when the rest is read
          have hcarries := (stepwise_readBehind true (left + 1) pool constant.denote).carries
            (Log.keepsEnd_append #[record (pool.count, constant.denote)])
          rw [bind_apply_of_ok (readEntry_of_ok hread), bind_apply_of_ok (readEntry_of_ok hread),
            insertRecords_cons, ← changeState_changeState]
          exact (hcarries ⟨_, #[]⟩).trans (congrArg (changeState _) hbehind)
      · refine ⟨[], .stuck hnone, ?_⟩
        rw [insertRecords_nil, bind_apply_of_error (readEntry_of_error hread),
          bind_apply_of_error (readEntry_of_error hread)]
        rfl

/-! ### Pools -/

theorem not_write_prefix_nil (constant : RawConstant) : ¬ constant.write <+: [] := by
  intro h
  have hlength := h.length_le
  rw [RawConstant.write, List.length_append, Bytes.length_ofNat, List.length_nil] at hlength
  omega

/-- What follows the slots writes behind the records of the constants. -/
theorem exists_insertRecords_read (c : Cursor) :
    ∃ constants,
      ReadableFrom (Bytes.toNat (c.rest.take 2) - 1) (c.rest.drop 2) constants ∧
      Pool.read true ⟨c, #[]⟩ =
        changeState (insertRecords 1 constants) (Pool.read false ⟨c, #[]⟩) := by
  rcases Nat.lt_or_ge c.rest.length 2 with hlt | hle
  · -- without a number of constants there are none
    have hcount : Scan.u16 ⟨c, #[]⟩ = .error _ _ := Scan.unsigned_of_lt hlt
    refine ⟨[], .stuck fun constant _ ↦ ?_, ?_⟩
    · rw [List.drop_eq_nil_of_le (Nat.le_of_lt hlt)]
      exact not_write_prefix_nil constant
    · rw [Pool.read, Pool.read, bind_apply_of_error hcount, bind_apply_of_error hcount,
        insertRecords_nil]
      rfl
  · have hcount : Scan.u16 ⟨c, #[]⟩ = .ok _ _ := Scan.unsigned_of_le hle
    obtain ⟨constants, hreadable, hslots⟩ :=
      exists_insertRecords_readSlots (Bytes.toNat (c.rest.take 2) - 1) empty (c.advance 2)
    refine ⟨constants, hreadable, ?_⟩
    rw [Pool.read, Pool.read, bind_apply_of_ok hcount, bind_apply_of_ok hcount]
    refine bind_eq_changeState hslots fun pool ↦ ?_
    have hcheck := Scan.stepwise_lift pool.guarded_check
    exact (hcheck.bind fun _ ↦ .bind (.note _ _ _) fun _ ↦ .pure _).carries
      (Log.keepsEnd_append _)

end Pool

end ClassInspect
