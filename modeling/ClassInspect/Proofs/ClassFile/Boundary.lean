import ClassInspect.Proofs.ClassFile.Stepwise

/-!
# Where a class file ends

No class file is a proper part of another from the front on, and both ways to miss the end are
told apart. Cut anywhere, an accepted file lacks bytes: the parts are read by a local scan, which
follows the run over the whole file up to the first step that crosses the cut
(`Scan.IsLocal.starves_of_cut`). Extended by anything, it is read to its old end and the rest is
counted.

The check of the magic number stands outside the scan of the parts, but a part of the right
number is still a part of it.
-/

namespace ClassInspect.ClassFile

open Scan (run Concludes)

/-- The outcome of parsing is that of a run over the data. -/
theorem outcome_parse (data : Bytes) (verbose : Bool) :
    (parse data verbose).outcome.1 = (run (read verbose) ⟨.start data 0, #[]⟩).1 := by
  unfold Logged.outcome parse Scan.onBytes run
  cases read verbose ⟨.start data 0, #[]⟩ with
  | ok value s => rfl
  | error fault s => rfl

/-- The log has no influence on the reading of a file. -/
theorem run_read_congr (data : Bytes) (verbose : Bool) (log log' : Log) :
    run (read verbose) ⟨.start data 0, log⟩ = run (read verbose) ⟨.start data 0, log'⟩ := by
  by_cases hmagic : data.take 4 <+: magic
  · rw [run_read_of_magic hmagic, run_read_of_magic hmagic]
    exact (stepwise_readParts verbose).isLocal.run_exhaust_congr .extraBytes rfl
  · rw [run_read_of_badMagic hmagic, run_read_of_badMagic hmagic]

/-- Whatever is in the log, parsing ends in the same way. -/
theorem yields_parse (data : Bytes) (verbose : Bool) :
    Logged.Yields (parse data verbose) (parse data verbose).outcome.1 := by
  intro log
  rw [outcome_parse, run_read_congr data verbose #[] log]
  unfold parse Scan.onBytes run
  cases read verbose ⟨.start data 0, log⟩ with
  | ok value s => exact ⟨s.log, rfl⟩
  | error fault s => exact ⟨s.log, rfl⟩

/-- The parts of a class file start with the four bytes of the magic number. -/
theorem four_le_length {data : Bytes} {verbose : Bool} {file : ClassFile}
    (h : Concludes (readParts verbose) ⟨0, 0⟩ data (.ok file)) : 4 ≤ data.length := by
  have hparts := h ⟨.start data 0, #[]⟩ rfl (List.prefix_refl _)
  obtain ⟨header, t, hpreamble, -⟩ := Scan.run_bind_eq_ok_iff.1 hparts
  obtain ⟨number, t', hnumber, -⟩ := Scan.bind_eq_ok_iff.1 hpreamble
  obtain ⟨bytes, t'', htake, -⟩ := Scan.bind_eq_ok_iff.1 hnumber
  have hlength : data.length = 4 + t''.cursor.rest.length := Scan.length_of_take htake
  omega

/-- A file is accepted if it starts with the magic number and its parts take all of it. -/
theorem accepted_iff {data : Bytes} {verbose : Bool} {file : ClassFile} :
    (parse data verbose).outcome.1 = .ok file ↔
      data.take 4 <+: magic ∧ Concludes (readParts verbose) ⟨0, 0⟩ data (.ok file) := by
  have hlocal := (stepwise_readParts verbose).isLocal
  rw [outcome_parse]
  constructor
  · intro h
    by_cases hmagic : data.take 4 <+: magic
    · refine ⟨hmagic, ?_⟩
      rw [run_read_of_magic hmagic] at h
      rcases hparts : run (readParts verbose) ⟨.start data 0, #[]⟩ with ⟨fault | file', c⟩
      · rw [Scan.run_exhaust_of_error hparts] at h
        cases h
      · rw [Scan.run_exhaust_of_ok hparts] at h
        obtain ⟨taken, hahead, hc, hends⟩ := hlocal.concludes hparts
        split at h
        · rename_i hrest
          cases h
          rw [hc] at hrest
          have hdata : taken = data := Cursor.eq_rest_of_ahead hahead hrest
          rw [hdata] at hends
          exact hends
        · cases h
    · rw [run_read_of_badMagic hmagic] at h
      cases h
  · rintro ⟨hmagic, hends⟩
    have hparts := hends ⟨.start data 0, #[]⟩ rfl (List.prefix_refl _)
    rw [run_read_of_magic hmagic, Scan.run_exhaust_of_ok hparts]
    simp

/-- Every accepted file is refused for want of bytes if it is cut anywhere, at a position within
what is left of it, and refused for its surplus if anything is added, at its old end. -/
theorem refuses_cut_and_extension {data : Bytes} {verbose : Bool} {file : ClassFile}
    (h : (parse data verbose).outcome.1 = .ok file) :
    (∀ k < data.length, ∃ fault message offset,
      (parse (data.take k) verbose).outcome.1 = .error fault ∧
        fault.formatError? = some ⟨.truncatedData, message, some offset⟩ ∧
        0 ≤ offset ∧ offset ≤ k) ∧
    (∀ extra : Bytes, extra ≠ [] → ∃ fault,
      (parse (data ++ extra) verbose).outcome.1 = .error fault ∧
        fault.formatError? = some ⟨.classFormat,
          .lit s!"{extra.length} extra bytes at the end of the class file",
          some data.length⟩) := by
  obtain ⟨hmagic, hends⟩ := accepted_iff.1 h
  have hlocal := (stepwise_readParts verbose).isLocal
  constructor
  · intro k hk
    have hmagic' : (data.take k).take 4 <+: magic := by
      rw [List.take_take, Nat.min_comm, ← List.take_take]
      have hcut : (data.take 4).take k <+: data.take 4 := List.take_prefix _ _
      exact hcut.trans hmagic
    have hlength : (data.take k).length = k := by
      rw [List.length_take]
      omega
    have hcut : data.take k <+: data := List.take_prefix _ _
    obtain ⟨needed, available, count, hcount, hrun⟩ := hlocal.starves_of_cut hends
      (s := ⟨.start (data.take k) 0, #[]⟩) rfl hcut
      (by show (data.take k).length < data.length; omega)
    change count ≤ (data.take k).length at hcount
    refine ⟨Scan.shortage needed available (Mark.place ⟨0, 0⟩ + count), _, _, ?_, rfl, ?_, ?_⟩
    · rw [outcome_parse, run_read_of_magic hmagic', Scan.run_exhaust_of_error hrun]
    · simp only [Mark.place]
      omega
    · simp only [Mark.place]
      omega
  · intro extra hextra
    have hmagic' : (data ++ extra).take 4 <+: magic := by
      rw [List.take_append_of_le_length (four_le_length hends)]
      exact hmagic
    have hparts := hends ⟨.start (data ++ extra) 0, #[]⟩ rfl (List.prefix_append _ _)
    have hrest : ((Cursor.start (data ++ extra) 0).advance data.length).rest = extra :=
      List.drop_left
    refine ⟨.format (.extraBytes extra.length) (some data.length), ?_, rfl⟩
    rw [outcome_parse, run_read_of_magic hmagic', Scan.run_exhaust_of_ok hparts, hrest,
      if_neg hextra]
    simp [Cursor.place, Cursor.advance, Cursor.start]

/-- A class with a constant that takes two slots and with a method that has code. -/
def sample : Bytes :=
  [0xCA, 0xFE, 0xBA, 0xBE, 0, 0, 0, 52, 0, 8,
    1, 0, 1, 0x41, 7, 0, 1, 1, 0, 4, 0x43, 0x6F, 0x64, 0x65, 1, 0, 1, 0x6D,
    1, 0, 3, 0x28, 0x29, 0x56, 5, 0, 0, 0, 0, 0, 0, 0, 1,
    0, 0x21, 0, 2, 0, 0, 0, 0, 0, 0, 0, 1, 0, 1, 0, 4, 0, 5, 0, 1,
    0, 3, 0, 0, 0, 13, 0, 0, 0, 1, 0, 0, 0, 1, 0xB1, 0, 0, 0, 0, 0, 0]

theorem exists_parse_sample : ∃ file, (parse sample false).outcome.1 = .ok file :=
  exists_eq_ok (by decide +kernel)

/-- The sample is accepted, refused when the cut falls into its code, and refused with one more
byte. -/
theorem sample_refuses_cut_and_extension :
    (∃ file, (parse sample false).outcome.1 = .ok file) ∧
    (∃ fault message offset, (parse (sample.take 76) false).outcome.1 = .error fault ∧
      fault.formatError? = some ⟨.truncatedData, message, some offset⟩ ∧
      0 ≤ offset ∧ offset ≤ 76) ∧
    (∃ fault, (parse (sample ++ [0]) false).outcome.1 = .error fault ∧
      fault.formatError? = some ⟨.classFormat,
        .lit "1 extra bytes at the end of the class file", some 84⟩) := by
  obtain ⟨file, h⟩ := exists_parse_sample
  have hrefuses := refuses_cut_and_extension h
  exact ⟨⟨file, h⟩, hrefuses.1 76 (by decide), hrefuses.2 [0] (by decide)⟩

end ClassInspect.ClassFile
