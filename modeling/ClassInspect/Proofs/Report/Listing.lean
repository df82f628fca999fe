import ClassInspect.Proofs.Instruction.Render
import ClassInspect.Proofs.Instruction.Stepwise
import ClassInspect.Proofs.Report.Dump
import ClassInspect.Report.Listing

/-!
# When a method has a listing

A listing needs the instructions of the method, and for each instruction that refers to a constant a
description of it. The pool of a class that was read is sound, so an instruction can only be refused
for its own index: if it dangles (`Instruction.Dangles`). All else about an instruction, its
targets, tables and types, is text: the instructions of a listing were decoded, and for those
rendering by the opcode table is total but for the description (`Instruction.render_some`).

The comment of an instruction is made for the first pool index among its operands. That this is the
only one is a property of the instruction set, where a pool index stands in front of all other
operands and never among them (`Opcode.Regular.constant_not_mem_tail`), and thereby one of the
instructions that were decoded (`Instruction.WellFormed`).
-/

namespace ClassInspect

/-! ### Pool indices among operands -/

/-- Kinds other than those of pool indices have no such operands. -/
theorem Operand.AllFit.constant_not_mem {offset : Nat} {kinds : List OperandKind}
    {operands : List Operand} (h : AllFit offset kinds operands) (hnarrow : .constant8 ∉ kinds)
    (hwide : .constant16 ∉ kinds) (index : Nat) : .constant index ∉ operands := by
  intro hmem
  obtain ⟨kind, hkind, hfits⟩ := h.exists_fits hmem
  cases kind with
  | constant8 => exact hnarrow hkind
  | constant16 => exact hwide hkind
  | _ => exact hfits

theorem Operand.WideFit.constant_not_mem {mnemonic : String} {operands : List Operand}
    (h : WideFit mnemonic operands) (index : Nat) : .constant index ∉ operands := by
  by_cases hmnemonic : mnemonic = "iinc"
  · obtain ⟨_, _, rfl, -⟩ := (wideFit_iff_of_increment hmnemonic).1 h
    simp
  · obtain ⟨_, rfl, -⟩ := (wideFit_iff_of_ne hmnemonic).1 h
    simp

namespace Instruction

variable {i : Instruction} {pool : Pool}

/-- If an operand is a pool index, it is the first operand. -/
theorem WellFormed.operands_eq_cons (hi : i.WellFormed) {index : Nat}
    (h : .constant index ∈ i.operands) : ∃ rest, i.operands = .constant index :: rest := by
  rcases hwide : i.wide with _ | _
  · obtain ⟨hopcode, hfit⟩ := (wellFormed_of_narrow hwide).1 hi
    -- behind the first kind of its row there is none of a pool index
    have htail := (Opcode.regular hopcode).constant_not_mem_tail
    rcases hkinds : i.opcode.operands with _ | ⟨kind, kinds⟩
    · rw [hkinds] at hfit
      exact absurd h (hfit.constant_not_mem List.not_mem_nil List.not_mem_nil index)
    · rw [hkinds] at hfit htail
      by_cases hreserved : kind = .reserved
      · subst hreserved
        have hnone := (Operand.allFit_reserved.1 hfit).constant_not_mem htail.1 htail.2 index
        exact absurd h hnone
      · obtain ⟨operand, rest, hoperands, -, hrest⟩ := (Operand.allFit_cons_iff hreserved).1 hfit
        rw [hoperands] at h ⊢
        have hnone := hrest.constant_not_mem htail.1 htail.2 index
        have hfirst := (List.mem_cons.1 h).resolve_right hnone
        exact ⟨rest, by rw [hfirst]⟩
  · obtain ⟨-, -, hfit⟩ := (wellFormed_of_wide hwide).1 hi
    exact absurd h (hfit.constant_not_mem index)

/-- The pool index of an instruction is the one among its operands. -/
theorem WellFormed.constant?_eq_some_iff (hi : i.WellFormed) {index : Nat} :
    i.constant? = some index ↔ .constant index ∈ i.operands := by
  constructor
  · intro h
    obtain ⟨operand, hoperand, hindex⟩ := List.exists_of_findSome?_eq_some h
    cases operand with
    | constant found =>
      cases hindex
      exact hoperand
    | _ => cases hindex
  · intro h
    obtain ⟨rest, hoperands⟩ := hi.operands_eq_cons h
    rw [constant?, hoperands]
    rfl

theorem Consecutive.wellFormed {start : Nat} {instructions : List Instruction}
    (h : Consecutive start instructions) : ∀ i ∈ instructions, i.WellFormed := by
  induction instructions generalizing start with
  | nil =>
    intro i hi
    cases hi
  | cons i instructions ih =>
    obtain ⟨-, hi, hrest⟩ := h
    exact List.forall_mem_cons.2 ⟨hi, ih hrest⟩

/-! ### Comments -/

/-- An operand is a pool index where no constant stands. -/
def Dangles (i : Instruction) (pool : Pool) : Prop :=
  ∃ index : Nat, .constant index ∈ i.operands ∧ ¬ ∃ constant, pool.Live index constant

/-- An instruction that dangles is refused for the index that does. -/
theorem Dangles.exists_render_eq_error (h : i.Dangles pool) (hi : i.WellFormed) :
    ∃ (index : Nat) (fault : Fault), .constant index ∈ i.operands ∧
      (¬ ∃ constant, pool.Live index constant) ∧
      i.render (some pool) = .error fault ∧ fault.ReportsIndex index := by
  obtain ⟨index, hindex, hlive⟩ := h
  obtain ⟨fault, hdescribe, hreports⟩ := Pool.exists_describe_eq_error hlive
  refine ⟨index, fault, hindex, hlive, ?_, hreports⟩
  rw [render_some hi, annotated, hi.constant?_eq_some_iff.2 hindex]
  exact bind_eq_error_iff.2 (.inl hdescribe)

/-- An instruction is written with its comment unless it dangles. -/
theorem exists_render_iff (hsound : pool.Sound) (hi : i.WellFormed) :
    (∃ text, i.render (some pool) = .ok text) ↔ ¬ i.Dangles pool := by
  constructor
  · rintro ⟨text, htext⟩ hdangles
    obtain ⟨_, _, -, -, herror, -⟩ := hdangles.exists_render_eq_error hi
    rw [htext] at herror
    cases herror
  · intro hlive
    rw [render_some hi]
    rcases hconstant : i.constant? with _ | index
    · rw [annotated, hconstant]
      exact ⟨_, rfl⟩
    · have hindex := hi.constant?_eq_some_iff.1 hconstant
      obtain ⟨constant, hconstant'⟩ : ∃ constant, pool.Live index constant :=
        Classical.byContradiction fun hnone ↦ hlive ⟨index, hindex, hnone⟩
      rw [annotated, hconstant]
      exact exists_bind_eq_ok (hsound.exists_describe hconstant') fun _ _ ↦ ⟨_, rfl⟩

/-- Whatever keeps an instruction from being written is a report about the format. -/
theorem isSome_formatError?_of_render (hsound : pool.Sound) (hi : i.WellFormed) {fault : Fault}
    (h : i.render (some pool) = .error fault) : fault.formatError?.isSome := by
  have hdangles : i.Dangles pool := Classical.byContradiction fun hlive ↦ by
    obtain ⟨text, htext⟩ := (exists_render_iff hsound hi).2 hlive
    rw [htext] at h
    cases h
  obtain ⟨index, fault', -, -, herror, message, hmessage, -⟩ :=
    hdangles.exists_render_eq_error hi
  rw [herror] at h
  cases h
  rw [hmessage]
  rfl

end Instruction

/-! ### Listings -/

/-- Apart from its log, disassembling is decoding. -/
theorem yields_disassemble (code : Bytes) :
    Logged.Yields (disassemble code) (Instruction.decodeAll code) := by
  rw [← bind_pure (Instruction.decodeAll code)]
  exact (Logged.yields_ofExcept _).bind fun instructions ↦
    (Logged.yields_note _ _ _).bind fun _ ↦ Logged.yields_pure instructions

namespace Method

variable {method : Method} {pool : Pool} {code : Code}

/-- A method without code has a listing. -/
theorem exists_listing_of_none (h : method.code = none) :
    ∃ text, (method.listing pool).outcome.1 = .ok text := by
  unfold listing
  rw [h, renderSignature_eq]
  exact ⟨_, rfl⟩

/-- Apart from its log, a listing is made by decoding all instructions, and then writing each of
them with its comment. Its first line is the signature, which can always be written. -/
theorem yields_listing (h : method.code = some code) :
    Logged.Yields (method.listing pool) (do
      let instructions ← Instruction.decodeAll code.code
      let lines ← instructions.mapM (·.render (some pool))
      return .lines (headLines method.signature ++ limitLines code ++ lines ++ code.handlerLines) ++
        .lit "\n") := by
  unfold listing
  rw [h, renderSignature_eq]
  exact (yields_disassemble code.code).bind fun instructions ↦
    (Logged.yields_ofExcept _).bind fun lines ↦ Logged.yields_pure _

/-- Code that cannot be decoded has no listing, for the same fault. -/
theorem listing_of_decodeAll_error (hcode : method.code = some code) {fault : Fault}
    (h : Instruction.decodeAll code.code = .error fault) :
    (method.listing pool).outcome.1 = .error fault := by
  rw [(yields_listing hcode).outcome_eq]
  exact bind_eq_error_iff.2 (.inl h)

theorem outcome_listing_of_decodeAll (hcode : method.code = some code)
    {instructions : List Instruction} (h : Instruction.decodeAll code.code = .ok instructions) :
    (method.listing pool).outcome.1 = (do
      let lines ← instructions.mapM (·.render (some pool))
      return .lines (headLines method.signature ++ limitLines code ++ lines ++ code.handlerLines) ++
        .lit "\n") := by
  rw [(yields_listing hcode).outcome_eq, h]
  rfl

/-- Decoded code has a listing if no instruction dangles. -/
theorem exists_listing_iff (hsound : pool.Sound) (hcode : method.code = some code)
    {instructions : List Instruction} (h : Instruction.decodeAll code.code = .ok instructions) :
    (∃ text, (method.listing pool).outcome.1 = .ok text) ↔
      ∀ i ∈ instructions, ¬ i.Dangles pool := by
  obtain ⟨hconsecutive, -⟩ := (Instruction.decodeAll_eq_ok_iff _ _).1 h
  -- what was decoded is well-formed, so each line is decided by what its instruction refers to
  have hlines : (∃ lines, instructions.mapM (·.render (some pool)) = .ok lines) ↔
      ∀ i ∈ instructions, ¬ i.Dangles pool := by
    rw [exists_mapM_eq_ok_iff]
    exact forall₂_congr fun i hi ↦
      Instruction.exists_render_iff hsound (hconsecutive.wellFormed i hi)
  rw [outcome_listing_of_decodeAll hcode h, ← hlines]
  constructor
  · rintro ⟨text, htext⟩
    obtain ⟨lines, hmapM, -⟩ := bind_eq_ok_iff.1 htext
    exact ⟨lines, hmapM⟩
  · intro hmapM
    exact exists_bind_eq_ok hmapM fun _ _ ↦ ⟨_, rfl⟩

/-- The first instruction that dangles decides how a listing fails. -/
theorem listing_of_dangles (hsound : pool.Sound) (hcode : method.code = some code)
    {before after : List Instruction} {i : Instruction}
    (h : Instruction.decodeAll code.code = .ok (before ++ i :: after))
    (hbefore : ∀ earlier ∈ before, ¬ earlier.Dangles pool) (hi : i.Dangles pool) :
    ∃ (index : Nat) (fault : Fault), .constant index ∈ i.operands ∧
      (¬ ∃ constant, pool.Live index constant) ∧
      (method.listing pool).outcome.1 = .error fault ∧ fault.ReportsIndex index := by
  obtain ⟨hconsecutive, -⟩ := (Instruction.decodeAll_eq_ok_iff _ _).1 h
  have hwell := hconsecutive.wellFormed
  obtain ⟨index, fault, hindex, hlive, herror, hreports⟩ :=
    hi.exists_render_eq_error (hwell i List.mem_append_cons_self)
  refine ⟨index, fault, hindex, hlive, ?_, hreports⟩
  have hearlier : ∀ earlier ∈ before, ∃ text, earlier.render (some pool) = .ok text := by
    intro earlier hmem
    have hearlier := hwell earlier (List.mem_append_left _ hmem)
    exact (Instruction.exists_render_iff hsound hearlier).2 (hbefore earlier hmem)
  rw [outcome_listing_of_decodeAll hcode h]
  exact bind_eq_error_iff.2 (.inl (mapM_eq_error_of_first hearlier herror))

/-- There is no listing if and only if there is code that cannot be decoded, or in which an
instruction dangles. -/
theorem exists_listing_eq_error_iff (hsound : pool.Sound) :
    (∃ fault, (method.listing pool).outcome.1 = .error fault) ↔
      ∃ code, method.code = some code ∧
        ((∃ fault, Instruction.decodeAll code.code = .error fault) ∨
          ∃ instructions, Instruction.decodeAll code.code = .ok instructions ∧
            ∃ i ∈ instructions, i.Dangles pool) := by
  constructor
  · rintro ⟨fault, hfault⟩
    have hfails : ¬ ∃ text, (method.listing pool).outcome.1 = .ok text := by
      rintro ⟨text, htext⟩
      rw [hfault] at htext
      cases htext
    rcases hcode : method.code with _ | code
    · exact absurd (exists_listing_of_none hcode) hfails
    · refine ⟨code, rfl, ?_⟩
      rcases hdecode : Instruction.decodeAll code.code with fault' | instructions
      · exact .inl ⟨fault', rfl⟩
      · rw [exists_listing_iff hsound hcode hdecode] at hfails
        simp only [not_forall, not_not] at hfails
        obtain ⟨i, hi, hdangles⟩ := hfails
        exact .inr ⟨instructions, rfl, i, hi, hdangles⟩
  · rintro ⟨code, hcode, ⟨fault, hdecode⟩ | ⟨instructions, hdecode, i, hi, hdangles⟩⟩
    · exact ⟨fault, listing_of_decodeAll_error hcode hdecode⟩
    · rcases hlisting : (method.listing pool).outcome.1 with fault | text
      · exact ⟨fault, rfl⟩
      · have hnone := (exists_listing_iff hsound hcode hdecode).1 ⟨text, hlisting⟩
        exact absurd hdangles (hnone i hi)

/-- Whatever is in the log, a listing ends in the same way. -/
theorem yields_outcome_listing (method : Method) (pool : Pool) :
    Logged.Yields (method.listing pool) (method.listing pool).outcome.1 := by
  rcases hcode : method.code with _ | code
  · have hlisting : ∃ text, method.listing pool = pure text := by
      unfold listing
      rw [hcode, renderSignature_eq]
      exact ⟨_, rfl⟩
    obtain ⟨text, htext⟩ := hlisting
    rw [htext]
    exact Logged.yields_pure text
  · rw [(yields_listing hcode).outcome_eq]
    exact yields_listing hcode

/-- Whatever keeps a method from being listed is a report about the format. -/
theorem isSome_formatError?_of_listing (hsound : pool.Sound) {fault : Fault}
    (h : (method.listing pool).outcome.1 = .error fault) : fault.formatError?.isSome := by
  rcases hcode : method.code with _ | code
  · have hnone : ∃ text, (method.listing pool).outcome.1 = .ok text :=
      exists_listing_of_none hcode
    obtain ⟨text, htext⟩ := hnone
    rw [htext] at h
    cases h
  · rw [(yields_listing hcode).outcome_eq] at h
    rcases bind_eq_error_iff.1 h with hdecode | ⟨instructions, hdecode, hrest⟩
    · obtain ⟨report, hreport, -⟩ := Instruction.reports_of_decodeAll hdecode
      rw [hreport]
      rfl
    · rcases bind_eq_error_iff.1 hrest with hlines | ⟨lines, -, hpure⟩
      · obtain ⟨i, hi, herror⟩ := exists_mem_of_mapM_eq_error hlines
        obtain ⟨hconsecutive, -⟩ := (Instruction.decodeAll_eq_ok_iff _ _).1 hdecode
        exact Instruction.isSome_formatError?_of_render hsound
          (hconsecutive.wellFormed i hi) herror
      · cases hpure

end Method

namespace ClassFile

/-- With the constants of a class that was read, a method has no listing if and only if it has code
that cannot be decoded, or in which an instruction dangles. In the first case the fault is that of
decoding: bytes are missing, or an opcode or an operand has no meaning. In the second it reports the
index of the first instruction that dangles. -/
theorem listing_of_parse {data : Bytes} {verbose : Bool} {file : ClassFile}
    (h : (parse data verbose).outcome.1 = .ok file) (method : Method) :
    ((∃ fault, (method.listing file.pool).outcome.1 = .error fault) ↔
      ∃ code, method.code = some code ∧
        ((∃ fault, (disassemble code.code).outcome.1 = .error fault) ∨
          ∃ instructions, (disassemble code.code).outcome.1 = .ok instructions ∧
            ∃ i ∈ instructions, i.Dangles file.pool)) ∧
    ∀ code, method.code = some code →
      (∀ fault, (disassemble code.code).outcome.1 = .error fault →
        (method.listing file.pool).outcome.1 = .error fault ∧
          fault.Reports [.truncatedData, .unsupportedOpcode, .classFormat]) ∧
      ∀ before i after, (disassemble code.code).outcome.1 = .ok (before ++ i :: after) →
        (∀ earlier ∈ before, ¬ earlier.Dangles file.pool) → i.Dangles file.pool →
        ∃ (index : Nat) (fault : Fault), .constant index ∈ i.operands ∧
          (¬ ∃ constant, file.pool.Live index constant) ∧
          (method.listing file.pool).outcome.1 = .error fault ∧ fault.ReportsIndex index := by
  have hsound := sound_of_parse h
  simp only [(yields_disassemble _).outcome_eq]
  refine ⟨Method.exists_listing_eq_error_iff hsound, fun code hcode ↦ ⟨fun fault hdecode ↦ ?_,
    fun before i after hdecode ↦ Method.listing_of_dangles hsound hcode hdecode⟩⟩
  exact ⟨Method.listing_of_decodeAll_error hcode hdecode, Instruction.reports_of_decodeAll hdecode⟩

/-- A class with a method that loads a constant, and then one that is not there. -/
def sampleDangling : ClassFile where
  minorVersion := 0
  majorVersion := 52
  pool := ⟨#[some (.utf8 (.lit "A")), some (.classRef 1), some (.utf8 (.lit "Code")),
    some (.utf8 (.lit "m")), some (.utf8 (.lit "()V"))]⟩
  flags := ⟨0x21⟩
  thisClass := .lit "A"
  superClass := none
  interfaces := []
  fields := []
  methods :=
    [⟨⟨0x1⟩, .lit "m", .lit "()V", ⟨[], .void⟩,
      [⟨.lit "Code", [0, 1, 0, 1, 0, 0, 0, 5, 0x12, 2, 0x12, 9, 0xB1, 0, 0, 0, 0], 60⟩],
      some ⟨1, 1, [0x12, 2, 0x12, 9, 0xB1], [], []⟩⟩]
  attributes := []

/-- The bytes of the class with the method that loads a constant that is not there. -/
def sampleDanglingBytes : Bytes :=
  [0xCA, 0xFE, 0xBA, 0xBE, 0, 0, 0, 52, 0, 6, 1, 0, 1, 0x41, 7, 0, 1,
    1, 0, 4, 0x43, 0x6F, 0x64, 0x65, 1, 0, 1, 0x6D, 1, 0, 3, 0x28, 0x29, 0x56,
    0, 0x21, 0, 2, 0, 0, 0, 0, 0, 0, 0, 1, 0, 1, 0, 4, 0, 5, 0, 1,
    0, 3, 0, 0, 0, 17, 0, 1, 0, 1, 0, 0, 0, 5, 0x12, 2, 0x12, 9, 0xB1, 0, 0, 0, 0, 0, 0]

/-- The instruction that loads a constant with a small index. -/
def sampleLoad (offset index : Nat) : Instruction :=
  ⟨offset, ⟨"ldc", 0x12, [.constant8]⟩, false, [.constant index]⟩

/-- The listing of this method fails at its second instruction. -/
theorem listing_of_parse_sampleDangling :
    (parse sampleDanglingBytes false).outcome.1 = .ok sampleDangling ∧
    ∀ method ∈ sampleDangling.methods, ∃ fault,
      (method.listing sampleDangling.pool).outcome.1 = .error fault ∧ fault.ReportsIndex 9 := by
  have hparse : (parse sampleDanglingBytes false).outcome.1 = .ok sampleDangling := by
    decide +kernel
  have hdecode : (disassemble [0x12, 2, 0x12, 9, 0xB1]).outcome.1 =
      .ok ([sampleLoad 0 2] ++ sampleLoad 2 9 :: [⟨4, ⟨"return", 0xB1, []⟩, false, []⟩]) := by
    decide +kernel
  have hfirst : ¬ (sampleLoad 0 2).Dangles sampleDangling.pool := by
    rintro ⟨index, hindex, hnone⟩
    cases List.mem_singleton.1 hindex
    exact hnone ⟨.classRef 1, by decide, rfl⟩
  have hsecond : (sampleLoad 2 9).Dangles sampleDangling.pool := by
    refine ⟨9, .head _, ?_⟩
    rintro ⟨constant, -, hslot⟩
    cases hslot
  refine ⟨hparse, fun method hmethod ↦ ?_⟩
  have hcode : method.code = some ⟨1, 1, [0x12, 2, 0x12, 9, 0xB1], [], []⟩ := by
    rw [List.mem_singleton.1 hmethod]
  obtain ⟨index, fault, hindex, -, herror, hreports⟩ :=
    ((listing_of_parse hparse method).2 _ hcode).2 _ _ _ hdecode
      (List.forall_mem_singleton.2 hfirst) hsecond
  cases List.mem_singleton.1 hindex
  exact ⟨fault, herror, hreports⟩

end ClassFile

end ClassInspect
