import ClassInspect.Analysis
import ClassInspect.Proofs.ClassFile.Boundary

/-!
# How an analysis can fail

An analysis succeeds, or it fails with a report about the format; nothing else gets out, whatever
the bytes are. The parts of the file are read by a stepwise scan, so every fault of theirs is one
that the reader was made with or a want of bytes. What follows the reading, the table of methods
and the listing of the bytes, cannot fail at all.

The report of a wrong magic number is made first and only there, so it says exactly that the data
does not start like a class file.
-/

namespace ClassInspect

/-- A report of the reader's families is a report about the format. -/
theorem exists_format {fault : Fault} (h : ReaderFault fault) :
    ∃ problem offset, fault = .format problem offset ∧
      problem.kind ∈ [FormatKind.classFormat, .truncatedData, .invalidPoolIndex, .unsupportedTag,
        .malformedDescriptor] := by
  cases fault with
  | format problem offset => exact ⟨problem, offset, rfl, h⟩
  | _ => exact h.elim

namespace ClassFile

open Scan (run)

/-- The parts of a file, which must leave no byte, fail with a report of the reader's families. -/
theorem readerFault_of_run_parts {verbose : Bool} {s : Scan.State} {fault : Fault} {c : Cursor}
    (h : run (Scan.exhaust .extraBytes (readParts verbose)) s = (.error fault, c)) :
    ReaderFault fault := by
  rcases hparts : run (readParts verbose) s with ⟨fault' | file, c'⟩
  · rw [Scan.run_exhaust_of_error hparts] at h
    cases h
    rcases (stepwise_readParts verbose).fault hparts with hallowed | ⟨_, _, _, rfl⟩
    · exact hallowed
    · show FormatKind.truncatedData ∈ _
      simp
  · rw [Scan.run_exhaust_of_ok hparts] at h
    split at h
    · cases h
    · cases h
      show FormatKind.classFormat ∈ _
      simp

/-- Reading fails with a wrong magic number exactly if there is one, and else with a report of
the reader's families. -/
theorem fault_of_run_read {data : Bytes} {verbose : Bool} {log : Log} {fault : Fault}
    {c : Cursor} (h : run (read verbose) ⟨.start data 0, log⟩ = (.error fault, c)) :
    (¬ data.take 4 <+: magic ∧ fault = .format (.badMagic (data.take 4)) (some 0)) ∨
      (data.take 4 <+: magic ∧ ReaderFault fault) := by
  by_cases hmagic : data.take 4 <+: magic
  · rw [run_read_of_magic hmagic] at h
    exact .inr ⟨hmagic, readerFault_of_run_parts h⟩
  · rw [run_read_of_badMagic hmagic] at h
    cases h
    exact .inl ⟨hmagic, rfl⟩

/-- Whatever keeps bytes from being parsed is a report about the format. -/
theorem isSome_formatError?_of_parse {data : Bytes} {verbose : Bool} {fault : Fault}
    (h : (parse data verbose).outcome.1 = .error fault) : fault.formatError?.isSome := by
  rw [outcome_parse] at h
  rcases hread : run (read verbose) ⟨.start data 0, #[]⟩ with ⟨outcome, c⟩
  rw [hread] at h
  cases h
  rcases fault_of_run_read hread with ⟨-, rfl⟩ | ⟨-, hfault⟩
  · rfl
  · obtain ⟨problem, offset, rfl, -⟩ := exists_format hfault
    rfl

/-- Data with a wrong magic number is not a class. -/
theorem prefix_of_run_read {data : Bytes} {verbose : Bool} {log : Log} {file : ClassFile}
    {c : Cursor} (h : run (read verbose) ⟨.start data 0, log⟩ = (.ok file, c)) :
    data.take 4 <+: magic := by
  refine Classical.byContradiction fun hmagic ↦ ?_
  rw [run_read_of_badMagic hmagic] at h
  cases h

end ClassFile

/-! ### What follows the reading -/

namespace MethodTable

/-- Methods can always be added to a table, and the log has no influence on it. -/
theorem exists_yields_addAll (table : MethodTable) (methods : List (Method × Nat)) :
    ∃ table', Logged.Yields (addAll table methods) (.ok table') := by
  induction methods generalizing table with
  | nil => exact ⟨table, Logged.yields_pure table⟩
  | cons entry methods ih =>
    obtain ⟨method, index⟩ := entry
    obtain ⟨table', htable'⟩ := ih (insert ⟨method.signature, index, method⟩ table)
    refine ⟨table', ?_⟩
    rw [addAll_cons]
    by_cases hhas : table.has method.signature = true
    · simp only [hhas, if_true]
      exact (Logged.yields_note _ _ _).bind fun _ ↦ htable'
    · simp only [hhas]
      exact htable'

theorem yields_ofMethods (methods : List Method) :
    Logged.Yields (ofMethods methods) (ofMethods methods).outcome.1 := by
  obtain ⟨table, htable⟩ := exists_yields_addAll [] methods.zipIdx
  have hmethods : Logged.Yields (ofMethods methods) (.ok table) := htable
  rw [hmethods.outcome_eq]
  exact hmethods

theorem exists_ofMethods (methods : List Method) :
    ∃ table, (ofMethods methods).outcome.1 = .ok table := by
  obtain ⟨table, htable⟩ := exists_yields_addAll [] methods.zipIdx
  exact ⟨table, htable.outcome_eq⟩

end MethodTable

/-- The default width is no obstacle to a listing. -/
theorem HexDump.exists_listing (data : Bytes) :
    ∃ text, HexDump.listing data HexDump.defaultWidth = .ok text :=
  ⟨_, rfl⟩

namespace Analysis

open Scan (run)

/-- Apart from its log, an analysis is made by parsing, and by two steps that always succeed. -/
theorem yields_ofBytes (data : Bytes) (verbose : Bool) :
    Logged.Yields (ofBytes data verbose) (do
      let file ← (ClassFile.parse data verbose).outcome.1
      let methods ← (MethodTable.ofMethods file.methods).outcome.1
      let hexDump ← HexDump.listing data HexDump.defaultWidth
      return ⟨file.summary, methods, hexDump, file⟩) := by
  rw [ofBytes_eq]
  exact (Logged.yields_note _ _ _).bind fun _ ↦
    (ClassFile.yields_parse data verbose).bind fun file ↦
      (MethodTable.yields_ofMethods file.methods).bind fun _ ↦
        (Logged.yields_ofExcept _).bind fun _ ↦ Logged.yields_pure _

/-- Every class that is parsed can be analysed. -/
theorem exists_outcome_of_parse {data : Bytes} {verbose : Bool} {file : ClassFile}
    (h : (ClassFile.parse data verbose).outcome.1 = .ok file) :
    ∃ analysis, (ofBytes data verbose).outcome.1 = .ok analysis := by
  rw [(yields_ofBytes data verbose).outcome_eq]
  exact exists_bind_eq_ok ⟨file, h⟩ fun _ _ ↦
    exists_bind_eq_ok (MethodTable.exists_ofMethods _) fun _ _ ↦
      exists_bind_eq_ok (HexDump.exists_listing data) fun _ _ ↦ ⟨_, rfl⟩

theorem outcome_of_parse_error {data : Bytes} {verbose : Bool} {fault : Fault}
    (h : (ClassFile.parse data verbose).outcome.1 = .error fault) :
    (ofBytes data verbose).outcome.1 = .error fault := by
  rw [(yields_ofBytes data verbose).outcome_eq]
  exact bind_eq_error_iff.2 (.inl h)

/-- An analysis succeeds if the reading does, and fails as the reading does. -/
theorem outcome_ofBytes (data : Bytes) (verbose : Bool) : ∃ log : Log,
    (∀ file c, run (ClassFile.read verbose) ⟨.start data 0, log⟩ = (.ok file, c) →
      ∃ analysis, (ofBytes data verbose).outcome.1 = .ok analysis) ∧
    (∀ fault c, run (ClassFile.read verbose) ⟨.start data 0, log⟩ = (.error fault, c) →
      (ofBytes data verbose).outcome.1 = .error fault) := by
  refine ⟨#[], fun file c h ↦ ?_, fun fault c h ↦ ?_⟩
  · exact exists_outcome_of_parse (by rw [ClassFile.outcome_parse, h])
  · exact outcome_of_parse_error (by rw [ClassFile.outcome_parse, h])

/-- A successful analysis is one of the class that was parsed. -/
theorem parse_of_outcome {data : Bytes} {verbose : Bool} {analysis : Analysis}
    (h : (ofBytes data verbose).outcome.1 = .ok analysis) :
    (ClassFile.parse data verbose).outcome.1 = .ok analysis.file := by
  rw [(yields_ofBytes data verbose).outcome_eq] at h
  obtain ⟨file, hparse, hrest⟩ := bind_eq_ok_iff.1 h
  obtain ⟨methods, -, hrest⟩ := bind_eq_ok_iff.1 hrest
  obtain ⟨hexDump, -, hanalysis⟩ := bind_eq_ok_iff.1 hrest
  cases hanalysis
  exact hparse

/-- Whatever keeps bytes from being analysed is a report about the format. -/
theorem isSome_formatError?_of_outcome {data : Bytes} {verbose : Bool} {fault : Fault}
    (h : (ofBytes data verbose).outcome.1 = .error fault) : fault.formatError?.isSome := by
  rcases hparse : (ClassFile.parse data verbose).outcome.1 with fault' | file
  · rw [outcome_of_parse_error hparse] at h
    cases h
    exact ClassFile.isSome_formatError?_of_parse hparse
  · obtain ⟨analysis, hanalysis⟩ := exists_outcome_of_parse hparse
    rw [hanalysis] at h
    cases h

/-- Every analysis succeeds or fails with a report about the format, never one about opcodes.
The report of a wrong magic number is made exactly if the first four bytes, or all bytes if they
are fewer, are no beginning of it. -/
theorem fails_only_with_reports (data : Bytes) (verbose : Bool) :
    ((∃ analysis, (ofBytes data verbose).outcome.1 = .ok analysis) ∨
      ∃ fault report, (ofBytes data verbose).outcome.1 = .error fault ∧
        fault.formatError? = some report ∧
        report.kind ∈ [FormatKind.classFormat, .badMagic, .truncatedData, .invalidPoolIndex,
          .unsupportedTag, .malformedDescriptor]) ∧
    ((∃ fault report, (ofBytes data verbose).outcome.1 = .error fault ∧
        fault.formatError? = some report ∧ report.kind = .badMagic) ↔
      ¬ data.take (min 4 data.length) <+: [0xCA, 0xFE, 0xBA, 0xBE]) := by
  have hmin : data.take (min 4 data.length) = data.take 4 := by
    rw [← List.take_take, List.take_length]
  obtain ⟨log, hok, herror⟩ := outcome_ofBytes data verbose
  rw [hmin]
  rcases hread : run (ClassFile.read verbose) ⟨.start data 0, log⟩ with ⟨fault | file, c⟩
  · have houtcome := herror fault c hread
    rcases ClassFile.fault_of_run_read hread with ⟨hmagic, rfl⟩ | ⟨hmagic, hfault⟩
    · exact ⟨.inr ⟨_, _, houtcome, rfl, by simp [Problem.kind]⟩,
        fun _ ↦ hmagic, fun _ ↦ ⟨_, _, houtcome, rfl, rfl⟩⟩
    · obtain ⟨problem, offset, rfl, hkind⟩ := exists_format hfault
      refine ⟨.inr ⟨_, _, houtcome, rfl, ?_⟩, ?_, fun hbad ↦ absurd hmagic hbad⟩
      · exact List.Sublist.subset (by decide) hkind
      · rintro ⟨fault', report, hfault', hreport, hbad⟩
        rw [houtcome] at hfault'
        cases hfault'
        cases hreport
        rw [show problem.kind = .badMagic from hbad] at hkind
        simp at hkind
  · obtain ⟨analysis, houtcome⟩ := hok file c hread
    refine ⟨.inl ⟨analysis, houtcome⟩, ?_, fun hmagic ↦ ?_⟩
    · rintro ⟨fault, report, hfault, -⟩
      rw [houtcome] at hfault
      cases hfault
    · exact absurd (ClassFile.prefix_of_run_read hread) hmagic

end Analysis

end ClassInspect
