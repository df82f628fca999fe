import Mathlib.Control.Monad.Basic
import ClassInspect.Proofs.ClassFile.Boundary

/-!
# Refusals

What a refusal of the class file reader says, and what it rests on. A report that something is wrong
with the file is made as soon as the bytes that show it are read, and the bytes behind them were not
looked at: the parts of a file are read by a local scan, so whatever follows, the same run ends in
the same report (`Scan.IsLocal.concludes_of_error`).

Two reports are about the end of the data instead, those of missing and of extra bytes, and more
bytes can change both. The check of the magic number is not local, but it looks at four bytes only.
-/

namespace ClassInspect.ClassFile

open Scan (run)

/-- If the parts of a file, which must leave no byte, fail for any reason but the end of the data,
they fail in the same way with more bytes behind. -/
theorem run_parts_append_of_error {data : Bytes} {verbose : Bool} {fault : Fault} {c : Cursor}
    (h : run (Scan.exhaust .extraBytes (readParts verbose)) ⟨.start data 0, #[]⟩ =
      (.error fault, c))
    (hshort : ∀ needed available offset, fault ≠ .format (.truncated needed available) offset)
    (hsurplus : ∀ count offset, fault ≠ .format (.extraBytes count) offset) (extra : Bytes) :
    (run (Scan.exhaust .extraBytes (readParts verbose)) ⟨.start (data ++ extra) 0, #[]⟩).1 =
      .error fault := by
  have hlocal := (stepwise_readParts verbose).isLocal
  rcases hparts : run (readParts verbose) ⟨.start data 0, #[]⟩ with ⟨fault' | file, c'⟩
  · -- a part failed, and the bytes that it took are still there
    have hfault : fault' = fault := by
      rw [Scan.run_exhaust_of_error hparts] at h
      exact Except.error.inj (congrArg Prod.fst h)
    obtain ⟨taken, hahead, hends⟩ := hlocal.concludes_of_error hparts fun needed available place ↦
      hfault ▸ hshort needed available (some place)
    have hahead' : taken <+: data ++ extra := hahead.trans (List.prefix_append _ _)
    have hrun := hends ⟨.start (data ++ extra) 0, #[]⟩ rfl hahead'
    rw [Scan.run_exhaust_of_error hrun, hfault]
  · -- all parts were read, so the complaint was about what is left
    rw [Scan.run_exhaust_of_ok hparts] at h
    split at h
    · cases h
    · exact absurd (Except.error.inj (congrArg Prod.fst h)).symm (hsurplus _ _)

/-- Refusals are decided by the bytes already read: a file of at least four bytes that is refused
for anything but missing or extra bytes is refused with the same report whatever is added to it. -/
theorem refusal_of_append {data : Bytes} {verbose : Bool} {fault : Fault}
    (hlength : 4 ≤ data.length) (h : (parse data verbose).outcome.1 = .error fault)
    (hshort : ∀ needed available offset, fault ≠ .format (.truncated needed available) offset)
    (hsurplus : ∀ count offset, fault ≠ .format (.extraBytes count) offset) (extra : Bytes) :
    (parse (data ++ extra) verbose).outcome.1 = .error fault := by
  have hhead : (data ++ extra).take 4 = data.take 4 := List.take_append_of_le_length hlength
  rw [outcome_parse] at h ⊢
  by_cases hmagic : data.take 4 <+: magic
  · rw [run_read_of_magic hmagic] at h
    rw [run_read_of_magic (hhead ▸ hmagic)]
    exact run_parts_append_of_error (Prod.ext h rfl) hshort hsurplus extra
  · rw [run_read_of_badMagic hmagic] at h
    rw [run_read_of_badMagic (hhead ▸ hmagic), hhead]
    exact h

/-- The bytes of `sample` up to its code, and an attribute for code that is one byte too long. -/
def sampleSurplus : Bytes :=
  sample.take 63 ++ [0, 3, 0, 0, 0, 14, 0, 0, 0, 1, 0, 0, 0, 1, 0xB1, 0, 0, 0, 0, 7, 0, 0]

/-- The byte too many within the code is reported where it stands, also when the file goes on
behind it. -/
theorem refusal_of_append_sampleSurplus :
    (parse sampleSurplus false).outcome.1 = .error (.format (.extraCodeBytes 1) (some 82)) ∧
    (parse (sampleSurplus ++ [0xCA, 0xFE]) false).outcome.1 =
      .error (.format (.extraCodeBytes 1) (some 82)) := by
  have hparse : (parse sampleSurplus false).outcome.1 =
      .error (.format (.extraCodeBytes 1) (some 82)) := by
    decide +kernel
  refine ⟨hparse, refusal_of_append (by decide) hparse ?_ ?_ [0xCA, 0xFE]⟩
  · intro needed available offset h
    cases h
  · intro count offset h
    cases h

end ClassInspect.ClassFile
