import Mathlib.Control.Monad.Basic
import ClassInspect.Proofs.ClassFile.Boundary
import ClassInspect.Proofs.ClassFile.Exact
import ClassInspect.Proofs.Text.Sequences

/-!
# Text that is none

A text constant whose bytes do not decode makes its class file fail. The constants before it are
read one by one (`Pool.concludes_readSlots`), so the report is about that constant and is made at
the byte of its kind, with what the decoder says about its bytes. What follows in the file was not
looked at.

How a scan ends on given bytes, whatever follows them, is a conclusion (`Scan.Concludes`). What is
known of formats gives the conclusions of what succeeds (`Scan.Reads.concludes`), and these are put
together step by step in front of the one that fails. The number of slots that are left is a
parameter of each lemma about slots, since the count in the file also covers constants that were
never read.
-/

namespace ClassInspect

open Scan (Concludes Reads)

namespace Scan

variable {α β : Type}

/-- What is read is a conclusion. -/
theorem Reads.concludes {scan : Scan α} {format : Format α} (h : Reads scan format) {m : Mark}
    {bytes : Bytes} {value : α} (hformat : format m bytes value) :
    Concludes scan m bytes (.ok value) := by
  rintro s rfl hahead
  exact (h s value _).2 ⟨bytes, hahead, rfl, hformat⟩

/-- After a failure nothing is done. -/
theorem Concludes.bind_error {scan : Scan α} {m : Mark} {taken : Bytes} {fault : Fault}
    (h : Concludes scan m taken (.error fault)) (next : α → Scan β) :
    Concludes (scan >>= next) m taken (.error fault) :=
  fun s hmark hahead ↦ run_bind_of_error (h s hmark hahead) next

/-- What does not move leaves the bytes to what follows. -/
theorem Concludes.still_bind {scan : Scan α} {next : α → Scan β} {m : Mark} {taken : Bytes}
    {value : α} {outcome : Except Fault β} (hscan : Concludes scan m [] (.ok value))
    (hnext : Concludes (next value) m taken outcome) :
    Concludes (scan >>= next) m taken outcome :=
  hscan.bind hnext

theorem concludes_fail (problem : Problem) (offset : Int) (m : Mark) :
    Concludes (fail problem offset : Scan α) m [] (.error (.format problem (some offset))) := by
  intro s _ _
  exact (run_fail problem offset s).trans (by simp)

theorem concludes_unsigned {size number : Nat} (h : number < 256 ^ size) (m : Mark) :
    Concludes (unsigned size) m (.ofNat size number) (.ok number) :=
  (Reads.unsigned size).concludes ⟨h, rfl⟩

end Scan

/-! ### The constant -/

variable {payload : Bytes} {e : Utf8.Error}

/-- A text constant whose bytes do not decode is reported where it starts. -/
theorem Constant.concludes_read (hsize : payload.length < 2 ^ 16)
    (h : ModifiedUtf8.decode payload = .error (.bytes e)) (m : Mark) :
    Concludes Constant.read m (RawConstant.utf8 payload).write
      (.error (.format (.invalidText e) (some m.place))) := by
  have hplace : Concludes Scan.place m [] (.ok m.place) := Reads.place.concludes ⟨rfl, rfl⟩
  have hpayload : ∀ m', Concludes (Constant.ofPayload m.place payload) m' []
      (.error (.format (.invalidText e) (some m.place))) := by
    intro m'
    rw [Constant.ofPayload, h]
    exact Scan.concludes_fail _ _ m'
  have htake : ∀ m', Concludes (Scan.take payload.length) m' payload (.ok payload) :=
    fun m' ↦ (Reads.take payload.length).concludes ⟨rfl, rfl⟩
  have hbody : ∀ m', Concludes (Constant.readRest m.place 1) m' (.ofNat 2 payload.length ++ payload)
      (.error (.format (.invalidText e) (some m.place))) := by
    intro m'
    refine (Scan.concludes_unsigned hsize m').bind ?_
    have hends := (htake (m'.after (Bytes.ofNat 2 payload.length).length)).bind (hpayload _)
    rwa [List.append_nil] at hends
  have htag : Concludes Scan.u8 m (.ofNat 1 1) (.ok 1) := Scan.concludes_unsigned (by decide) m
  exact hplace.still_bind (htag.bind (hbody _))

/-! ### The constants before it -/

namespace Pool

/-- A constant that fails makes its slot fail. -/
theorem concludes_readEntry {m : Mark} {bad : Bytes} {fault : Fault}
    (h : Concludes Constant.read m bad (.error fault)) (verbose : Bool) (index : Nat) :
    Concludes (readEntry verbose index) m bad (.error fault) :=
  h.bind_error _

/-- A constant that is read leaves the slots behind its own to what follows it. -/
theorem concludes_readSlots_cons {constant : RawConstant} (hconstant : constant.WellFormed)
    {verbose : Bool} {left : Nat} {pool : Pool} {m : Mark} {bytes : Bytes}
    {outcome : Except Fault Pool}
    (h : Concludes (readSlots verbose left ⟨pool.slots ++ constant.denote.slots⟩)
      (m.after constant.write.length) bytes outcome) :
    Concludes (readSlots verbose (left + constant.denote.slots.size) pool) m
      (constant.write ++ bytes) outcome := by
  have hentry : Concludes (readEntry verbose pool.count) m constant.write (.ok constant.denote) :=
    (decodes_readEntry verbose pool.count).concludes ⟨constant, hconstant, rfl, rfl⟩
  rcases htwo : constant.denote.takesTwo with _ | _
  · have hslots : constant.denote.slots = #[some constant.denote] := by simp [Constant.slots, htwo]
    rw [hslots] at h ⊢
    show Concludes (readSlots verbose (left + 1) pool) m _ outcome
    rw [readSlots]
    refine hentry.bind ?_
    rw [htwo]
    exact h
  · have hslots : constant.denote.slots = #[some constant.denote, none] := by
      simp [Constant.slots, htwo]
    have hpool : (pool.append (some constant.denote)).append none =
        ⟨pool.slots ++ #[some constant.denote, none]⟩ := by
      rw [append, append, Pool.mk.injEq, ← Array.toList_inj]
      simp
    rw [hslots] at h ⊢
    show Concludes (readSlots verbose (left + 1 + 1) pool) m _ outcome
    rw [readSlots]
    refine hentry.bind ?_
    rw [htwo]
    show Concludes (readSlots verbose left ((pool.append (some constant.denote)).append none)) _ _ _
    rw [hpool]
    exact h

/-- Constants that are read leave the slots behind theirs to what follows them. -/
theorem concludes_readSlots_append {constants : RawPool}
    (hconstants : ∀ constant ∈ constants, constant.WellFormed) {verbose : Bool} {left : Nat}
    {pool : Pool} {m : Mark} {bytes : Bytes} {outcome : Except Fault Pool}
    (h : ∀ pool, Concludes (readSlots verbose left pool)
      (m.after (constants.flatMap RawConstant.write).length) bytes outcome) :
    Concludes (readSlots verbose (left + constants.slots.length) pool) m
      (constants.flatMap RawConstant.write ++ bytes) outcome := by
  induction constants generalizing pool m with
  | nil => exact h pool
  | cons constant constants ih =>
    rw [List.forall_mem_cons] at hconstants
    rw [List.flatMap_cons, List.length_append, ← Mark.after_after] at h
    rw [RawPool.length_slots_cons, Nat.add_comm constant.denote.slots.size, ← Nat.add_assoc,
      List.flatMap_cons, List.append_assoc]
    exact concludes_readSlots_cons hconstants.1 (ih hconstants.2 h)

/-- Behind constants that are read, one that fails makes the slots fail, if there is a slot for
it. -/
theorem concludes_readSlots {constants : RawPool}
    (hconstants : ∀ constant ∈ constants, constant.WellFormed) {bad : Bytes} {fault : Mark → Fault}
    (hbad : ∀ m, Concludes Constant.read m bad (.error (fault m))) (verbose : Bool) {left : Nat}
    (hleft : constants.slots.length < left) (pool : Pool) (m : Mark) :
    Concludes (readSlots verbose left pool) m (constants.flatMap RawConstant.write ++ bad)
      (.error (fault (m.after (constants.flatMap RawConstant.write).length))) := by
  obtain ⟨left, rfl⟩ : ∃ rest, left = rest + 1 + constants.slots.length :=
    ⟨left - 1 - constants.slots.length, by omega⟩
  refine concludes_readSlots_append hconstants fun pool ↦ ?_
  rw [readSlots]
  exact (concludes_readEntry (hbad _) verbose _).bind_error _

/-- A constant that fails makes its pool fail. -/
theorem concludes_read {constants : RawPool}
    (hconstants : ∀ constant ∈ constants, constant.WellFormed) {bad : Bytes} {fault : Mark → Fault}
    (hbad : ∀ m, Concludes Constant.read m bad (.error (fault m))) (verbose : Bool)
    {count : UInt16} (hcount : constants.slots.length + 1 < count.toNat) (m : Mark) :
    Concludes (read verbose) m
      (.ofU16 count ++ (constants.flatMap RawConstant.write ++ bad))
      (.error (fault (m.after (2 + (constants.flatMap RawConstant.write).length)))) := by
  have hleft : constants.slots.length < count.toNat - 1 := by omega
  have hslots := concludes_readSlots hconstants hbad verbose hleft empty (m.after 2)
  rw [Mark.after_after] at hslots
  have hnumber : Concludes Scan.u16 m (.ofU16 count) (.ok count.toNat) :=
    Scan.concludes_unsigned count.toNat_lt m
  refine hnumber.bind ?_
  rw [Bytes.length_ofU16]
  exact hslots.bind_error _

end Pool

/-! ### The class file -/

namespace ClassFile

/-- The bytes of a class file up to some of its constants. -/
def opening (minor major count : UInt16) (constants : RawPool) : Bytes :=
  magic ++ (.ofU16 minor ++ (.ofU16 major ++ (.ofU16 count ++
    constants.flatMap RawConstant.write)))

/-- A constant that fails makes the parts of the file fail. -/
theorem concludes_readParts (minor major : UInt16) {constants : RawPool}
    (hconstants : ∀ constant ∈ constants, constant.WellFormed) {bad : Bytes} {fault : Mark → Fault}
    (hbad : ∀ m, Concludes Constant.read m bad (.error (fault m))) (verbose : Bool)
    {count : UInt16} (hcount : constants.slots.length + 1 < count.toNat) :
    Concludes (readParts verbose) ⟨0, 0⟩ (opening minor major count constants ++ bad)
      (.error (fault ⟨0, (opening minor major count constants).length⟩)) := by
  have hnumber : Concludes Scan.u32 ⟨0, 0⟩ magic (.ok magicNumber) :=
    ofNat_magicNumber ▸ Scan.concludes_unsigned (by decide) _
  have hversion : ∀ (version : UInt16) (m : Mark),
      Concludes Scan.u16 m (.ofU16 version) (.ok version.toNat) :=
    fun version m ↦ Scan.concludes_unsigned version.toNat_lt m
  have hnote : ∀ (message : Text) (m : Mark), Concludes (note message) m [] (.ok ()) :=
    fun message m ↦ (Reads.note _ _ message).concludes rfl
  have hpool := Pool.concludes_read hconstants hbad verbose hcount
    (((Mark.after ⟨0, 0⟩ magic.length).after (Bytes.ofU16 minor).length).after
      (Bytes.ofU16 major).length)
  have hplace : (((Mark.after ⟨0, 0⟩ magic.length).after (Bytes.ofU16 minor).length).after
      (Bytes.ofU16 major).length).after (2 + (constants.flatMap RawConstant.write).length) =
        ⟨0, (opening minor major count constants).length⟩ := by
    simp only [Mark.after, opening, List.length_append, Bytes.length_ofU16]
    congr 1
    omega
  rw [hplace] at hpool
  simp only [opening, List.append_assoc]
  refine Concludes.bind_error ?_ _
  exact hnumber.bind ((hnote _ _).still_bind ((hversion minor _).bind ((hversion major _).bind
    ((hnote _ _).still_bind (hpool.bind_error _)))))

/-- The file is refused at the byte of the constant's kind, whatever follows. -/
theorem parse_of_invalidText (hsize : payload.length < 2 ^ 16)
    (h : ModifiedUtf8.decode payload = .error (.bytes e)) {constants : RawPool}
    (hconstants : ∀ constant ∈ constants, constant.WellFormed) {minor major count : UInt16}
    (hcount : constants.slots.length + 1 < count.toNat) (rest : Bytes) (verbose : Bool) :
    (parse (opening minor major count constants ++ ((RawConstant.utf8 payload).write ++ rest))
      verbose).outcome.1 =
        .error (.format (.invalidText e) (some (opening minor major count constants).length)) := by
  have hparts := concludes_readParts minor major hconstants (Constant.concludes_read hsize h)
    verbose hcount
  have hmagic : (opening minor major count constants ++
      ((RawConstant.utf8 payload).write ++ rest)).take 4 <+: magic := by
    show magic <+: magic
    exact List.prefix_refl _
  rw [outcome_parse, run_read_of_magic hmagic, Scan.run_exhaust_of_error (hparts _ rfl ?_)]
  · simp [Mark.place]
  · show _ <+: opening minor major count constants ++ ((RawConstant.utf8 payload).write ++ rest)
    rw [← List.append_assoc]
    exact List.prefix_append _ _

end ClassFile

namespace ModifiedUtf8

open ClassFile (opening parse)
open Utf8 (ConsistsOf)

/-- Decoding accepts exactly the rows of sequences. Everything else is refused where the longest row
in front ends, counted with the zeros made plain, and the bad part starts there. In a class file
whose constants before are in order, the refusal is one of the file, at the byte of the constant's
kind. -/
theorem accepts_exactly_sequences (payload : Bytes) :
    ((∃ text, decode payload = .ok text) ↔ ConsistsOf IsSequence payload) ∧
    (¬ ConsistsOf IsSequence payload →
      ∃ e : Utf8.Error, decode payload = .error (.bytes e) ∧ e.Locates (plainZeros payload) ∧
        ∀ (minor major count : UInt16) (constants : RawPool) (rest : Bytes) (verbose : Bool),
          payload.length < 2 ^ 16 → (∀ constant ∈ constants, constant.WellFormed) →
          constants.slots.length + 1 < count.toNat →
          ∃ fault, (parse (opening minor major count constants ++
              (1 :: (Bytes.ofNat 2 payload.length ++ payload) ++ rest)) verbose).outcome.1 =
                .error fault ∧
            fault.formatError? = some ⟨.classFormat,
              .lit s!"Invalid modified utf-8 string: {e.message}",
              some (opening minor major count constants).length⟩) := by
  refine ⟨exists_decode_iff, fun hrow ↦ ?_⟩
  obtain ⟨e, he, hlocates⟩ := exists_decode_error hrow
  refine ⟨e, he, hlocates, ?_⟩
  intro minor major count constants rest verbose hsize hconstants hcount
  exact ⟨_, ClassFile.parse_of_invalidText hsize he hconstants hcount rest verbose, rfl⟩

/-- A letter, a zero in two bytes, and the first byte of a longer sequence before one that is too
small to follow it. In a class file the bytes stand behind a constant that takes two slots. -/
theorem accepts_exactly_sequences_sample :
    ¬ ConsistsOf IsSequence [0x41, 0xC0, 0x80, 0xE0, 0x80] ∧
    Utf8.Error.Locates [0x41, 0, 0xE0, 0x80] ⟨2, 0xE0, 1, .invalidContinuation⟩ ∧
    ∃ fault, (parse (opening 0 52 4 [.long 7] ++
        (1 :: (Bytes.ofNat 2 5 ++ [0x41, 0xC0, 0x80, 0xE0, 0x80]) ++ [0xCA])) false).outcome.1 =
          .error fault ∧
      fault.formatError? = some ⟨.classFormat, .lit ("Invalid modified utf-8 string: " ++
        "'utf-8' codec can't decode byte 0xe0 in position 2: invalid continuation byte"),
        some 19⟩ := by
  have herror : decode [0x41, 0xC0, 0x80, 0xE0, 0x80] =
      .error (.bytes ⟨2, 0xE0, 1, .invalidContinuation⟩) := by decide +kernel
  have hrow : ¬ ConsistsOf IsSequence [0x41, 0xC0, 0x80, 0xE0, 0x80] := by
    intro h
    obtain ⟨text, htext⟩ := (accepts_exactly_sequences _).1.2 h
    rw [herror] at htext
    cases htext
  obtain ⟨e, he, hlocates, hparse⟩ := (accepts_exactly_sequences _).2 hrow
  obtain rfl : e = ⟨2, 0xE0, 1, .invalidContinuation⟩ :=
    Failure.bytes.inj (Except.error.inj (he.symm.trans herror))
  have hlong : ∀ constant ∈ [RawConstant.long 7], constant.WellFormed := by
    simp [RawConstant.WellFormed, Bytes.FitsSigned]
  exact ⟨hrow, hlocates, hparse 0 52 4 [.long 7] [0xCA] false (by decide) hlong (by decide)⟩

end ModifiedUtf8

end ClassInspect
