import ClassInspect.Proofs.Analysis
import ClassInspect.Proofs.MethodTable
import ClassInspect.Proofs.Pool.Slots
import ClassInspect.Proofs.Pool.Verbose

/-!
# Verbose analyses

An analysis that is asked to be verbose finds what a plain one finds. Its log has the records of
the plain one and between them, in one place, those of the constants: right behind the record of
the versions, which is the last one written before the pool is read.

The two analyses are compared at the front of the pool, with an empty log. What was logged before
is put in front of both (`Carries`), and what follows the pool does not depend on the records of
the constants.
-/

namespace ClassInspect

open Scan (State)

/-! ### Class files -/

theorem Scan.exhaust_bind {α β : Type} (problem : Nat → Problem) (first : Scan α)
    (next : α → Scan β) :
    exhaust problem (first >>= next) = first >>= fun value ↦ exhaust problem (next value) := by
  simp only [exhaust, bind_assoc]

namespace ClassFile

variable {data : Bytes}

/-- The record of the magic number. -/
def magicRecord (data : Bytes) : LogRecord :=
  ⟨.debug, .reader, .lit s!"Read magic header value 0x{Hex.upper (Bytes.toNat (data.take 4))}"⟩

/-- The versions of a class file, the minor one first. -/
def versions (data : Bytes) : Nat × Nat :=
  (Bytes.toNat ((data.drop 4).take 2), Bytes.toNat ((data.drop 6).take 2))

/-- The record of the versions. -/
def versionRecord (data : Bytes) : LogRecord :=
  ⟨.debug, .reader, .lit s!"Version {(versions data).2}.{(versions data).1}"⟩

/-- Reads what follows the versions, to the end of the file. -/
def readPooled (verbose : Bool) (versions : Nat × Nat) : Scan ClassFile :=
  Scan.exhaust .extraBytes (do readMembers ⟨versions.1, versions.2, ← Pool.read verbose⟩)

/-- Reads what follows the magic number, to the end of the file. -/
def readVersioned (verbose : Bool) : Scan ClassFile := do
  let minorVersion ← Scan.u16
  let majorVersion ← Scan.u16
  note (.lit s!"Version {majorVersion}.{minorVersion}")
  readPooled verbose (minorVersion, majorVersion)

theorem exhaust_readParts (verbose : Bool) :
    Scan.exhaust .extraBytes (readParts verbose) = (do
      let number ← Scan.u32
      note (.lit s!"Read magic header value 0x{Hex.upper number}")
      readVersioned verbose) := by
  simp only [readParts, readPreamble, readVersioned, readPooled, Scan.exhaust_bind, bind_assoc,
    pure_bind]

theorem note_apply (message : Text) (s : State) :
    note message s = .ok () ⟨s.cursor, s.log.push ⟨.debug, .reader, message⟩⟩ :=
  rfl

/-- The cursor over a class file, behind its first bytes. -/
def behind (data : Bytes) (count : Nat) : Cursor :=
  Cursor.advance (.start data 0) count

theorem unsigned_behind {count size : Nat} (h : count + size ≤ data.length) (log : Log) :
    Scan.unsigned size ⟨behind data count, log⟩ =
      .ok (Bytes.toNat ((data.drop count).take size)) ⟨behind data (count + size), log⟩ := by
  have hle : size ≤ (behind data count).rest.length := by
    rw [behind, Cursor.rest_advance, Cursor.rest_start, List.length_drop]
    omega
  rw [Scan.unsigned_of_le hle, behind, behind, Cursor.advance_advance]
  rfl

theorem unsigned_behind_of_lt {count : Nat} (size : Nat) (hcount : count ≤ data.length)
    (h : data.length < count + size) (log : Log) :
    ∃ fault,
      Scan.unsigned size ⟨behind data count, log⟩ = .error fault ⟨behind data count, log⟩ := by
  refine ⟨_, Scan.unsigned_of_lt ?_⟩
  rw [behind, Cursor.rest_advance, Cursor.rest_start, List.length_drop]
  omega

theorem read_of_magic (h : data.take 4 <+: magic) (verbose : Bool) (log : Log) :
    read verbose ⟨.start data 0, log⟩ =
      Scan.exhaust .extraBytes (readParts verbose) ⟨behind data 0, log⟩ := by
  rw [read_eq, bind_apply_of_ok ((checkMagic_apply _).trans (if_pos h)), behind,
    Cursor.advance_zero]

theorem read_of_number (hmagic : data.take 4 = magic) (hlength : 4 ≤ data.length)
    (verbose : Bool) (log : Log) :
    read verbose ⟨.start data 0, log⟩ =
      readVersioned verbose ⟨behind data 4, log.push (magicRecord data)⟩ := by
  rw [read_of_magic (hmagic ▸ List.prefix_rfl), exhaust_readParts, Scan.u32,
    bind_apply_of_ok (unsigned_behind (by omega) _), bind_apply_of_ok (note_apply _ _)]
  rfl

/-- Two records are written before the pool of a class file is read. -/
theorem read_of_versions (hmagic : data.take 4 = magic) (hlength : 8 ≤ data.length)
    (verbose : Bool) (log : Log) :
    read verbose ⟨.start data 0, log⟩ =
      readPooled verbose (versions data)
        ⟨behind data 8, (log.push (magicRecord data)).push (versionRecord data)⟩ := by
  rw [read_of_number hmagic (by omega), readVersioned, Scan.u16,
    bind_apply_of_ok (unsigned_behind (by omega) _),
    bind_apply_of_ok (unsigned_behind (by omega) _), bind_apply_of_ok (note_apply _ _)]
  rfl

/-- Data that starts otherwise, or ends before the versions do, is refused before the pool is
reached. -/
theorem read_of_no_versions (h : ¬ (data.take 4 = magic ∧ 8 ≤ data.length)) (log : Log) :
    ∃ fault c log', (log' = log ∨ log' = log.push (magicRecord data)) ∧
      ∀ verbose, read verbose ⟨.start data 0, log⟩ = .error fault ⟨c, log'⟩ := by
  by_cases hprefix : data.take 4 <+: magic
  · rcases Nat.lt_or_ge data.length 4 with hlt | hle
    · obtain ⟨fault, hnumber⟩ := unsigned_behind_of_lt 4 (Nat.zero_le _) (by omega) log
      refine ⟨fault, behind data 0, log, .inl rfl, fun verbose ↦ ?_⟩
      rw [read_of_magic hprefix, exhaust_readParts, Scan.u32, bind_apply_of_error hnumber]
    · have hmagic : data.take 4 = magic := by
        refine hprefix.eq_of_length ?_
        rw [List.length_take, Nat.min_eq_left hle]
        rfl
      have hshort : data.length < 8 := Nat.lt_of_not_le fun hlength ↦ h ⟨hmagic, hlength⟩
      rcases Nat.lt_or_ge data.length 6 with hlt | hle'
      · obtain ⟨fault, hminor⟩ := unsigned_behind_of_lt 2 hle (by omega)
          (log.push (magicRecord data))
        refine ⟨fault, behind data 4, _, .inr rfl, fun verbose ↦ ?_⟩
        rw [read_of_number hmagic hle, readVersioned, Scan.u16, bind_apply_of_error hminor]
      · obtain ⟨fault, hmajor⟩ := unsigned_behind_of_lt 2 hle' (by omega)
          (log.push (magicRecord data))
        refine ⟨fault, behind data 6, _, .inr rfl, fun verbose ↦ ?_⟩
        rw [read_of_number hmagic hle, readVersioned, Scan.u16,
          bind_apply_of_ok (unsigned_behind (by omega) _), bind_apply_of_error hmajor]
  · refine ⟨.format (.badMagic (data.take 4)) (some 0), .start data 0, log, .inl rfl,
      fun verbose ↦ ?_⟩
    rw [read_eq, bind_apply_of_error ((checkMagic_apply _).trans (if_neg hprefix))]
    rfl

/-- From the pool on, a verbose reading differs by the records of the constants. -/
theorem exists_insertRecords_readPooled (versions : Nat × Nat) (c : Cursor) :
    ∃ constants,
      RawPool.ReadableFrom (Bytes.toNat (c.rest.take 2) - 1) (c.rest.drop 2) constants ∧
      readPooled true versions ⟨c, #[]⟩ =
        changeState (Pool.insertRecords 1 constants) (readPooled false versions ⟨c, #[]⟩) := by
  obtain ⟨constants, hreadable, hpool⟩ := Pool.exists_insertRecords_read c
  refine ⟨constants, hreadable, ?_⟩
  rw [readPooled, readPooled, Scan.exhaust_bind, Scan.exhaust_bind]
  refine bind_eq_changeState hpool fun pool ↦ ?_
  exact Scan.carries_exhaust ((stepwise_readMembers _).carries (Log.keepsEnd_append _)) _

theorem carries_readPooled (verbose : Bool) (versions : Nat × Nat) (log : Log) :
    Carries (State.relog (log ++ ·)) (readPooled verbose versions) :=
  Scan.carries_exhaust (((Pool.stepwise_read verbose).bind fun _ ↦ stepwise_readMembers _).carries
    (Log.keepsEnd_append log)) _

end ClassFile

/-! ### Logs -/

section Log

variable {α : Type} {f : Log → Log}

/-- The result of a scan without the cursor. -/
def Scan.leave : EStateM.Result Fault State α → EStateM.Result Fault Log α
  | .ok value s => .ok value s.log
  | .error fault s => .error fault s.log

theorem Scan.onBytes_apply (data : Bytes) (base : Int) (scan : Scan α) (log : Log) :
    onBytes data base scan log = leave (scan ⟨.start data base, log⟩) := by
  rw [onBytes]
  cases scan ⟨.start data base, log⟩ <;> rfl

theorem Scan.leave_changeState (f : Log → Log) (result : EStateM.Result Fault State α) :
    leave (changeState (State.relog f) result) = changeState f (leave result) := by
  cases result <;> rfl

theorem Logged.carries_note (hf : Log.KeepsEnd f) (level : Log.Level) (source : Log.Source)
    (message : Text) : Carries f (Logged.note level source message) := by
  intro log
  show EStateM.Result.ok () ((f log).push ⟨level, source, message⟩) =
    .ok () (f (log.push ⟨level, source, message⟩))
  rw [hf]

theorem Logged.carries_ofExcept (outcome : Except Fault α) :
    Carries f (Logged.ofExcept outcome) := by
  cases outcome with
  | ok value => exact .pure value
  | error fault => exact .throw fault

/-- Computations that end in one result, up to what stands in the log, have one outcome. -/
theorem Logged.exists_outcome (result : EStateM.Result Fault Log α) :
    ∃ outcome log, ∀ (computation : Logged α) (f : Log → Log),
      computation #[] = changeState f result → computation.outcome = (outcome, f log) := by
  cases result with
  | ok value log =>
    refine ⟨.ok value, log, fun computation f h ↦ ?_⟩
    rw [Logged.outcome, h]
    rfl
  | error fault log =>
    refine ⟨.error fault, log, fun computation f h ↦ ?_⟩
    rw [Logged.outcome, h]
    rfl

theorem MethodTable.carries_addAll (hf : Log.KeepsEnd f) (table : MethodTable)
    (methods : List (Method × Nat)) : Carries f (addAll table methods) := by
  induction methods generalizing table with
  | nil => exact .pure table
  | cons placed methods ih =>
    rw [addAll_cons]
    cases table.has placed.1.signature with
    | true => exact (Logged.carries_note hf _ _ _).bind fun _ ↦ ih _
    | false => exact ih _

end Log

namespace Analysis

/-- What an analysis adds to a class that has been read. -/
def ofFile (data : Bytes) (file : ClassFile) : Logged Analysis := do
  let methods ← MethodTable.ofMethods file.methods
  let hexDump ← Logged.ofExcept (HexDump.listing data HexDump.defaultWidth)
  return ⟨file.summary, methods, hexDump, file⟩

theorem carries_ofFile {f : Log → Log} (hf : Log.KeepsEnd f) (data : Bytes) (file : ClassFile) :
    Carries f (ofFile data file) :=
  (MethodTable.carries_addAll hf _ _).bind fun _ ↦
    (Logged.carries_ofExcept _).bind fun _ ↦ .pure _

/-- The first record of an analysis. -/
def startRecord (data : Bytes) : LogRecord :=
  ⟨.debug, .analysis, .lit s!"Analyzing {data.length} bytes"⟩

theorem ofBytes_apply (data : Bytes) (verbose : Bool) (log : Log) :
    ofBytes data verbose log =
      (ClassFile.parse data verbose >>= ofFile data) (log.push (startRecord data)) := by
  rw [ofBytes_eq]
  rfl

/-- The records up to that of the versions. -/
def openingRecords (data : Bytes) : List LogRecord :=
  [startRecord data, ClassFile.magicRecord data, ClassFile.versionRecord data]

/-- The number of slots that a class file announces for its pool, with slot zero. -/
def announced (data : Bytes) : Nat :=
  Bytes.toNat ((data.drop 8).take 2)

/-- A plain and a verbose analysis end in one result, behind different records. -/
theorem exists_ofBytes_of_versions {data : Bytes} (hmagic : data.take 4 = ClassFile.magic)
    (hlength : 8 ≤ data.length) :
    ∃ constants result, RawPool.ReadableFrom (announced data - 1) (data.drop 10) constants ∧
      ofBytes data false #[] = changeState ((openingRecords data).toArray ++ ·) result ∧
      ofBytes data true #[] =
        changeState ((openingRecords data ++ constants.denote.entries.map Pool.record).toArray ++ ·)
          result := by
  obtain ⟨constants, hreadable, hverbose⟩ :=
    ClassFile.exists_insertRecords_readPooled (ClassFile.versions data) (ClassFile.behind data 8)
  have hparse (verbose : Bool) : ClassFile.parse data verbose (#[].push (startRecord data)) =
      changeState ((openingRecords data).toArray ++ ·)
        (Scan.leave (ClassFile.readPooled verbose (ClassFile.versions data)
          ⟨ClassFile.behind data 8, #[]⟩)) := by
    rw [ClassFile.parse, Scan.onBytes_apply, ClassFile.read_of_versions hmagic hlength,
      ← Scan.leave_changeState, ← ClassFile.carries_readPooled]
    rfl
  have hloud : ClassFile.parse data true (#[].push (startRecord data)) =
      changeState ((openingRecords data ++ constants.denote.entries.map Pool.record).toArray ++ ·)
        (Scan.leave (ClassFile.readPooled false (ClassFile.versions data)
          ⟨ClassFile.behind data 8, #[]⟩)) := by
    rw [hparse, hverbose, Pool.insertRecords, Scan.leave_changeState, changeState_changeState,
      RawPool.entries_denote]
    congr 1
    funext log
    rw [← Array.toList_inj]
    simp
  -- both go on with the same class, and `ofFile` writes behind what is there
  refine ⟨constants, ((fun _ ↦ Scan.leave (ClassFile.readPooled false (ClassFile.versions data)
    ⟨ClassFile.behind data 8, #[]⟩) : Logged ClassFile) >>= ofFile data) #[], ?_, ?_, ?_⟩
  · rw [ClassFile.behind, Cursor.rest_advance, Cursor.rest_start, List.drop_drop] at hreadable
    exact hreadable
  · rw [ofBytes_apply]
    exact bind_eq_changeState (hparse false) (carries_ofFile (Log.keepsEnd_append _) data)
  · rw [ofBytes_apply]
    exact bind_eq_changeState hloud (carries_ofFile (Log.keepsEnd_append _) data)

/-- Being verbose does not change what an analysis finds. The log has one record more for each
constant that stands in the pool up to its end or its first fault, with the number of its slot.
These records stand together behind that of the versions. Data without versions are refused with
the same log. -/
theorem verbose_inserts_records (data : Bytes) :
    (ofBytes data true).outcome.1 = (ofBytes data false).outcome.1 ∧
    (data.take 4 = ClassFile.magic ∧ 8 ≤ data.length →
      ∃ constants after, RawPool.ReadableFrom (announced data - 1) (data.drop 10) constants ∧
        constants.denote.entries.map Prod.snd = constants.map RawConstant.denote ∧
        (constants.denote.entries.map Prod.fst).Pairwise (· < ·) ∧
        (ofBytes data false).outcome.2.toList = openingRecords data ++ after ∧
        (ofBytes data true).outcome.2.toList =
          openingRecords data ++ constants.denote.entries.map Pool.record ++ after) ∧
    (¬ (data.take 4 = ClassFile.magic ∧ 8 ≤ data.length) →
      (ofBytes data true).outcome.2 = (ofBytes data false).outcome.2 ∧
        (ofBytes data false).outcome.2.toList <+: (openingRecords data).take 2) := by
  by_cases h : data.take 4 = ClassFile.magic ∧ 8 ≤ data.length
  · obtain ⟨constants, result, hreadable, hplain, hloud⟩ := exists_ofBytes_of_versions h.1 h.2
    obtain ⟨outcome, log, houtcome⟩ := Logged.exists_outcome result
    rw [houtcome _ _ hplain, houtcome _ _ hloud]
    refine ⟨rfl, fun _ ↦ ⟨constants, log.toList, hreadable, constants.map_snd_entries_denote,
      Pool.sorted_entries _, ?_, ?_⟩, fun hnone ↦ absurd h hnone⟩
    · exact Array.toList_append
    · exact Array.toList_append
  · obtain ⟨fault, c, log, hlog, hread⟩ :=
      ClassFile.read_of_no_versions h (#[].push (startRecord data))
    have hanalysis (verbose : Bool) : (ofBytes data verbose).outcome = (.error fault, log) := by
      have hparse : ClassFile.parse data verbose (#[].push (startRecord data)) =
          .error fault log := by
        rw [ClassFile.parse, Scan.onBytes_apply, hread]
        rfl
      rw [Logged.outcome, ofBytes_apply, bind_apply_of_error hparse]
    rw [hanalysis, hanalysis]
    refine ⟨rfl, fun hversions ↦ absurd hversions h, fun _ ↦ ⟨rfl, ?_⟩⟩
    rcases hlog with rfl | rfl
    · exact ⟨[_], rfl⟩
    · exact ⟨[], rfl⟩

/-- A class file that ends in the middle of its third constant. The first takes two slots. -/
def cutSample : Bytes :=
  ClassFile.magic ++ [0, 0, 0, 52, 0, 6, 5, 0, 0, 0, 0, 0, 0, 0, 7, 1, 0, 1, 65, 7, 0]

example : (ofBytes cutSample true).outcome.2.toList.drop 3 =
    [Pool.record (1, .long 7), Pool.record (3, .utf8 (.lit "A"))] := by
  decide +kernel

/-- The records of a class file that is cut off, and none without data. -/
theorem verbose_inserts_records_sample :
    (∃ constants after,
        RawPool.ReadableFrom (announced cutSample - 1) (cutSample.drop 10) constants ∧
        (ofBytes cutSample false).outcome.2.toList = openingRecords cutSample ++ after ∧
        (ofBytes cutSample true).outcome.2.toList =
          openingRecords cutSample ++ constants.denote.entries.map Pool.record ++ after) ∧
      (ofBytes [] true).outcome.2 = (ofBytes [] false).outcome.2 := by
  obtain ⟨constants, after, hreadable, -, -, hplain, hloud⟩ :=
    (verbose_inserts_records cutSample).2.1 (by decide)
  exact ⟨⟨constants, after, hreadable, hplain, hloud⟩,
    ((verbose_inserts_records []).2.2 (by decide)).1⟩

end Analysis

end ClassInspect
