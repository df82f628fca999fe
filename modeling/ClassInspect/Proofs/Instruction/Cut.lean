import ClassInspect.Proofs.Instruction.Stepwise

/-!
# Code that is cut off

What becomes of code when only a part of it, from the front, is decoded
(`Instruction.decodeAll_take`). A cut between two instructions leaves the instructions in front of
it. A cut within an instruction leaves it without some of its bytes: all instructions in front of it
are still decoded, and then bytes are missing.

## What the theorem rests on

* A position lies between two instructions or within one (`Instruction.exists_split`, by induction
  on the instructions). The first kind are the boundaries (`Instruction.isBoundary_of_split`,
  `Instruction.not_isBoundary_of_cut`), so the two cases of the theorem are those of the position.
* Code cut at a boundary has the format of the instructions in front of it, and nothing more is
  needed.
* Code cut elsewhere is decoded like the whole up to the instruction that is cut
  (`Instruction.mapM_trace_append`). There no other fault can come first, because the decoder
  follows the run over the whole code up to the step that asks for too much
  (`Scan.IsLocal.starves_of_cut`).
* The opcode is there, so the fault points behind it. To know this, the first byte is taken off the
  run over the whole instruction (`Instruction.concludes_readRest`), and the cut is one of what
  follows it.
-/

namespace ClassInspect

open Scan (Concludes shortage)

/-! ### Consecutive instructions -/

namespace Instruction

theorem consecutive_append {start : Nat} {before after : List Instruction} :
    Consecutive start (before ++ after) ↔
      Consecutive start before ∧ Consecutive (start + (before.flatMap cells).length) after := by
  induction before generalizing start with
  | nil => simp [Consecutive]
  | cons i before ih =>
    rw [List.cons_append, Consecutive, Consecutive, ih, List.flatMap_cons, List.length_append,
      Nat.add_assoc, and_assoc, and_assoc]

theorem length_cells_pos (i : Instruction) : 0 < i.cells.length := by
  rw [cells]
  split
  · rw [Cells.length_exact, List.length_append, List.length_append, Bytes.length_ofNat]
    omega
  · rw [List.length_append, Cells.length_exact, Bytes.length_ofNat]
    omega

/-- Consecutive instructions start within the bytes they take. -/
theorem Consecutive.offset_between {start : Nat} {instructions : List Instruction}
    (h : Consecutive start instructions) {i : Instruction} (hi : i ∈ instructions) :
    start ≤ i.offset ∧ i.offset < start + (instructions.flatMap cells).length := by
  obtain ⟨before, after, rfl⟩ := List.append_of_mem hi
  obtain ⟨hoffset, -, -⟩ := (consecutive_append.1 h).2
  have hpos := i.length_cells_pos
  rw [List.flatMap_append, List.flatMap_cons, List.length_append, List.length_append]
  omega

/-- The instructions in front of a position between two of them are those that start before it. -/
theorem Consecutive.filter_offset_lt {start : Nat} {before after : List Instruction}
    (h : Consecutive start (before ++ after)) :
    (before ++ after).filter (·.offset < start + (before.flatMap cells).length) = before := by
  obtain ⟨hbefore, hafter⟩ := consecutive_append.1 h
  have hkept : before.filter (·.offset < start + (before.flatMap cells).length) = before := by
    refine List.filter_eq_self.2 fun i hi ↦ ?_
    exact decide_eq_true (hbefore.offset_between hi).2
  have hdropped : after.filter (·.offset < start + (before.flatMap cells).length) = [] := by
    refine List.filter_eq_nil_iff.2 fun i hi ↦ ?_
    have hle := (hafter.offset_between hi).1
    simpa using hle
  rw [List.filter_append, hkept, hdropped, List.append_nil]

/-- An instruction starts no later than a given one, or behind all its bytes. -/
theorem Consecutive.offset_le_or {start : Nat} {before after : List Instruction} {i : Instruction}
    (h : Consecutive start (before ++ i :: after)) {j : Instruction}
    (hj : j ∈ before ++ i :: after) :
    j.offset ≤ i.offset ∨ i.offset + i.cells.length ≤ j.offset := by
  obtain ⟨hbefore, hoffset, -, hafter⟩ := consecutive_append.1 h
  rcases List.mem_append.1 hj with hj | hj
  · have hlt := (hbefore.offset_between hj).2
    exact .inl (by omega)
  · rcases List.mem_cons.1 hj with rfl | hj
    · exact .inl (Nat.le_refl _)
    · have hle := (hafter.offset_between hj).1
      exact .inr (by omega)

/-- A position within the bytes of instructions lies between two of them, or within one. -/
theorem exists_split (start : Nat) {instructions : List Instruction}
    (h : Consecutive start instructions) {count : Nat}
    (hcount : count ≤ (instructions.flatMap cells).length) :
    (∃ before after, instructions = before ++ after ∧
      count = (before.flatMap cells).length) ∨
    (∃ before i after, instructions = before ++ i :: after ∧
      (before.flatMap cells).length < count ∧
      count < (before.flatMap cells).length + i.cells.length) := by
  induction instructions generalizing start count with
  | nil => exact .inl ⟨[], [], rfl, Nat.le_zero.1 hcount⟩
  | cons i instructions ih =>
    obtain ⟨-, -, hrest⟩ := h
    rw [List.flatMap_cons, List.length_append] at hcount
    rcases Nat.lt_or_ge count i.cells.length with hlt | hge
    · rcases Nat.eq_zero_or_pos count with rfl | hpos
      · exact .inl ⟨[], i :: instructions, rfl, rfl⟩
      · exact .inr ⟨[], i, instructions, rfl, hpos, by simpa using hlt⟩
    · -- the position is behind the first instruction, and counts from its end for the others
      have hbehind : count - i.cells.length ≤ (instructions.flatMap cells).length := by omega
      rcases ih _ hrest hbehind with
        ⟨before, after, rfl, hbefore⟩ | ⟨before, j, after, rfl, hlow, hhigh⟩
      · refine .inl ⟨i :: before, after, rfl, ?_⟩
        rw [List.flatMap_cons, List.length_append]
        omega
      · refine .inr ⟨i :: before, j, after, rfl, ?_⟩
        rw [List.flatMap_cons, List.length_append]
        omega

/-! ### Decoding in parts -/

/-- The instructions at the front are decoded, whatever follows, and decoding goes on behind
them. -/
theorem mapM_trace_append {before : List Instruction} {s : Scan.State} {front : Bytes}
    (hbefore : Consecutive s.cursor.pos before) (hahead : front <+: s.cursor.rest)
    (hfront : Cells.Matches (before.flatMap cells) front) :
    ∃ t : Scan.State, t.cursor = s.cursor.advance front.length ∧
      (Scan.trace decode progresses_decode s).mapM Prod.fst =
        ((Scan.trace decode progresses_decode t).mapM Prod.fst).map (before ++ ·) := by
  induction before generalizing s front with
  | nil =>
    obtain rfl := Cells.matches_nil.1 hfront
    refine ⟨s, (Cursor.advance_zero _).symm, ?_⟩
    cases (Scan.trace decode progresses_decode s).mapM Prod.fst <;> rfl
  | cons i before ih =>
    obtain ⟨hoffset, hi, hbefore⟩ := hbefore
    rw [List.flatMap_cons] at hfront
    obtain ⟨own, others, rfl, hown, hothers⟩ := Cells.matches_append.1 hfront
    have hrun : Scan.run decode s = (.ok i, s.cursor.advance own.length) :=
      (reads_decode s i _).2
        ⟨own, (List.prefix_append _ _).trans hahead, rfl, hoffset, hi, hown⟩
    obtain ⟨log, hscan⟩ := Scan.run_eq_ok_iff.1 hrun
    rw [hown.length_eq] at hbefore
    obtain ⟨t, ht, htrace⟩ := ih (s := ⟨s.cursor.advance own.length, log⟩) hbefore
      (Cursor.prefix_rest_advance hahead) hothers
    refine ⟨t, ?_, ?_⟩
    · rw [ht, Cursor.advance_advance, List.length_append]
    · rw [Scan.mapM_trace_of_ok progresses_decode hscan, htrace]
      cases (Scan.trace decode progresses_decode t).mapM Prod.fst <;> rfl

/-- The bytes of an instruction are decoded to it, whatever follows. -/
theorem concludes_decode {i : Instruction} (hi : i.WellFormed) {own : Bytes}
    (hown : Cells.Matches i.cells own) {m : Mark} (hm : i.offset = m.pos) :
    Concludes decode m own (.ok i) := by
  intro s hmark hahead
  refine (reads_decode s i _).2 ⟨own, hahead, rfl, ?_, hi, hown⟩
  rw [hmark]
  exact hm

/-- With a byte ahead, decoding takes it for the opcode and goes on behind it. -/
theorem run_decode_of_cons {s : Scan.State} {opcode : UInt8} {rest : Bytes}
    (h : s.cursor.rest = opcode :: rest) :
    ∃ log, Scan.run decode s =
      Scan.run (readRest s.cursor.pos opcode.toNat) ⟨s.cursor.advance 1, log⟩ := by
  have hopcode : Scan.run Scan.u8 s = (.ok opcode.toNat, s.cursor.advance 1) := by
    refine (Scan.Reads.unsigned 1 s _ _).2 ⟨[opcode], ⟨rest, h.symm⟩, rfl, ?_, ?_⟩
    · exact opcode.toNat_lt
    · simp [Bytes.ofNat]
  obtain ⟨log, hrest⟩ := Scan.run_bind_of_ok hopcode (readRest s.cursor.pos)
  exact ⟨log, hrest⟩

/-- What follows the opcode ends as decoding does. -/
theorem concludes_readRest {m : Mark} {opcode : UInt8} {rest : Bytes}
    {outcome : Except Fault Instruction} (h : Concludes decode m (opcode :: rest) outcome) :
    Concludes (readRest m.pos opcode.toNat) (m.after 1) rest outcome := by
  intro t hmark hahead
  -- the same cursor one byte further back, in front of the opcode
  let s : Scan.State := ⟨{ t.cursor with pos := m.pos, rest := opcode :: t.cursor.rest }, t.log⟩
  have hpos : t.cursor.pos = m.pos + 1 := congrArg Mark.pos hmark
  have hback : s.cursor.advance 1 = t.cursor := by
    rw [Cursor.advance, ← hpos]
    rfl
  have hfront : s.cursor.mark = m := by
    show Mark.mk t.cursor.base m.pos = m
    rw [show t.cursor.base = m.base from congrArg Mark.base hmark]
  have hdecode := h s hfront (List.cons_prefix_cons.2 ⟨rfl, hahead⟩)
  obtain ⟨log, hrun⟩ := run_decode_of_cons (s := s) rfl
  have hlog := (stepwise_readRest m.pos opcode.toNat).isLocal.run_congr
    (s := t) (t := ⟨s.cursor.advance 1, log⟩) hback.symm
  rw [hlog, ← hback, Cursor.advance_advance, Nat.add_comm 1]
  exact hrun.symm.trans hdecode

/-- An instruction of which a part is missing lacks bytes behind its opcode. -/
theorem run_decode_of_cut {i : Instruction} (hi : i.WellFormed) {own : Bytes}
    (hown : Cells.Matches i.cells own) {s : Scan.State} (hs : i.offset = s.cursor.pos)
    (hcut : s.cursor.rest <+: own) (hsome : s.cursor.rest ≠ [])
    (hshorter : s.cursor.rest.length < own.length) :
    ∃ needed available count c, 0 < count ∧ count ≤ s.cursor.rest.length ∧
      Scan.run decode s = (.error (shortage needed available (s.cursor.place + count)), c) := by
  obtain ⟨opcode, rest, hrest⟩ := List.exists_cons_of_ne_nil hsome
  obtain ⟨missing, rfl⟩ := hcut
  have hdecode := concludes_decode hi hown (m := s.cursor.mark) hs
  rw [hrest, List.cons_append] at hdecode
  rw [List.length_append] at hshorter
  obtain ⟨log, hrun⟩ := run_decode_of_cons hrest
  obtain ⟨needed, available, count, hcount, hstarves⟩ :=
    (stepwise_readRest s.cursor.pos opcode.toNat).isLocal.starves_of_cut
      (concludes_readRest hdecode) (s := ⟨s.cursor.advance 1, log⟩) (Cursor.mark_advance _ _)
      (by simp [hrest]) (by simpa [hrest] using hshorter)
  rw [Cursor.rest_advance, List.length_drop] at hcount
  refine ⟨needed, available, 1 + count, (s.cursor.advance 1).advance count, by omega, ?_, ?_⟩
  · rw [hrest, List.length_cons] at hcount ⊢
    omega
  · rw [hrun, hstarves, Mark.place_after, Cursor.place_mark, Int.natCast_add, Int.add_assoc]

/-! ### Cuts -/

/-- A position that parts instructions: the front of the code, its end, or where one of them
starts. -/
def IsBoundary (code : Bytes) (instructions : List Instruction) (k : Nat) : Prop :=
  k = code.length ∨ k = 0 ∨ ∃ i ∈ instructions, i.offset = k

/-- The last instruction that starts in front of a position. -/
def LastBefore (instructions : List Instruction) (k : Nat) (i : Instruction) : Prop :=
  i ∈ instructions ∧ i.offset < k ∧ ∀ j ∈ instructions, j.offset < k → j.offset ≤ i.offset

/-- Code that is cut at a boundary is decoded to the instructions in front of it. -/
theorem decodeAll_of_boundary {code : Bytes} {before after : List Instruction}
    (h : decodeAll code = .ok (before ++ after)) :
    decodeAll (code.take (before.flatMap cells).length) = .ok before := by
  obtain ⟨hconsecutive, hmatches⟩ := (decodeAll_eq_ok_iff _ _).1 h
  rw [List.flatMap_append] at hmatches
  obtain ⟨front, back, rfl, hfront, -⟩ := Cells.matches_append.1 hmatches
  rw [hfront.length_eq, List.take_left]
  exact (decodeAll_eq_ok_iff _ _).2 ⟨(consecutive_append.1 hconsecutive).1, hfront⟩

/-- Code that is cut within an instruction lacks bytes there, behind the opcode. -/
theorem decodeAll_of_cut {code : Bytes} {before after : List Instruction} {i : Instruction}
    (h : decodeAll code = .ok (before ++ i :: after)) {k : Nat}
    (hlow : i.offset < k) (hhigh : k < i.offset + i.cells.length) :
    ∃ needed available : Nat, ∃ offset : Int,
      decodeAll (code.take k) = .error (.format (.truncated needed available) (some offset)) ∧
        i.offset < offset ∧ offset ≤ k := by
  obtain ⟨hconsecutive, hmatches⟩ := (decodeAll_eq_ok_iff _ _).1 h
  obtain ⟨hbefore, hoffset, hi, -⟩ := consecutive_append.1 hconsecutive
  rw [List.flatMap_append, List.flatMap_cons] at hmatches
  obtain ⟨front, _, rfl, hfront, hmatches⟩ := Cells.matches_append.1 hmatches
  obtain ⟨own, back, rfl, hown, -⟩ := Cells.matches_append.1 hmatches
  rw [hfront.length_eq, Nat.zero_add] at hoffset
  rw [hown.length_eq] at hhigh
  -- what is left of the instruction
  have htake : (front ++ (own ++ back)).take k = front ++ own.take (k - i.offset) := by
    rw [List.take_append, ← hoffset, List.take_of_length_le (by omega),
      List.take_append_of_le_length (by omega)]
  obtain ⟨t, ht, htrace⟩ := mapM_trace_append (s := .start (front ++ own.take (k - i.offset)) 0)
    hbefore (List.prefix_append _ _) hfront
  have hrest : t.cursor.rest = own.take (k - i.offset) := by
    rw [ht, Cursor.rest_advance]
    exact List.drop_left
  have hlength : t.cursor.rest.length = k - i.offset := by
    rw [hrest, List.length_take]
    omega
  have hpos : t.cursor.pos = i.offset := by
    rw [ht, hoffset]
    exact Nat.zero_add _
  obtain ⟨needed, available, count, c, hcount, hle, hrun⟩ := run_decode_of_cut hi hown hpos.symm
    (hrest ▸ List.take_prefix _ _) (List.ne_nil_of_length_pos (by omega)) (by omega)
  obtain ⟨log, hscan⟩ := Scan.run_eq_error_iff.1 hrun
  have hplace : t.cursor.place = i.offset := by
    rw [Cursor.place, hpos, ht]
    exact Int.zero_add _
  refine ⟨needed, available, t.cursor.place + count, ?_, by omega, by omega⟩
  rw [htake, decodeAll_eq, htrace,
    Scan.mapM_trace_of_error progresses_decode (List.ne_nil_of_length_pos (by omega)) hscan]
  rfl

/-- A position between two instructions is a boundary. -/
theorem isBoundary_of_split {code : Bytes} {before after : List Instruction}
    (h : decodeAll code = .ok (before ++ after)) :
    IsBoundary code (before ++ after) (before.flatMap cells).length := by
  obtain ⟨hconsecutive, hmatches⟩ := (decodeAll_eq_ok_iff _ _).1 h
  cases after with
  | nil =>
    refine .inl ?_
    rw [← hmatches.length_eq, List.append_nil]
  | cons i after =>
    obtain ⟨-, hoffset, -⟩ := consecutive_append.1 hconsecutive
    exact .inr (.inr ⟨i, List.mem_append_right _ List.mem_cons_self, by omega⟩)

/-- A position within an instruction is no boundary. -/
theorem not_isBoundary_of_cut {code : Bytes} {before after : List Instruction} {i : Instruction}
    (h : decodeAll code = .ok (before ++ i :: after)) {k : Nat}
    (hlow : i.offset < k) (hhigh : k < i.offset + i.cells.length) :
    ¬ IsBoundary code (before ++ i :: after) k := by
  obtain ⟨hconsecutive, hmatches⟩ := (decodeAll_eq_ok_iff _ _).1 h
  rintro (rfl | rfl | ⟨j, hj, rfl⟩)
  · -- the bytes of the instruction end within the code
    have hlength := hmatches.length_eq
    obtain ⟨-, hoffset, -⟩ := consecutive_append.1 hconsecutive
    rw [List.flatMap_append, List.flatMap_cons, List.length_append, List.length_append] at hlength
    omega
  · exact Nat.not_lt_zero _ hlow
  · rcases hconsecutive.offset_le_or hj with hle | hle <;> omega

/-- Where code is cut decides what becomes of it. Only a cut at a boundary leaves code that can be
decoded, to the instructions that start in front of the cut. Any other cut leaves the last of these
instructions without some of its bytes, which are missed at a position behind its opcode. -/
theorem decodeAll_take {code : Bytes} {instructions : List Instruction}
    (h : decodeAll code = .ok instructions) {k : Nat} (hk : k ≤ code.length) :
    ((∃ front, decodeAll (code.take k) = .ok front) ↔ IsBoundary code instructions k) ∧
    (IsBoundary code instructions k →
      decodeAll (code.take k) = .ok (instructions.filter (·.offset < k))) ∧
    (¬ IsBoundary code instructions k → ∃ i, LastBefore instructions k i ∧
      ∃ needed available : Nat, ∃ offset : Int,
        decodeAll (code.take k) = .error (.format (.truncated needed available) (some offset)) ∧
          i.offset < offset ∧ offset ≤ k) := by
  obtain ⟨hconsecutive, hmatches⟩ := (decodeAll_eq_ok_iff _ _).1 h
  rcases exists_split 0 hconsecutive (hmatches.length_eq ▸ hk) with
    ⟨before, after, rfl, rfl⟩ | ⟨before, i, after, rfl, hlow, hhigh⟩
  · -- the instructions in front of the cut are those that start before it
    have hfront := decodeAll_of_boundary h
    have hboundary := isBoundary_of_split h
    have hfilter := hconsecutive.filter_offset_lt
    rw [Nat.zero_add] at hfilter
    refine ⟨iff_of_true ⟨before, hfront⟩ hboundary, fun _ ↦ ?_, fun hnot ↦ absurd hboundary hnot⟩
    rw [hfilter]
    exact hfront
  · obtain ⟨-, hoffset, -⟩ := consecutive_append.1 hconsecutive
    rw [Nat.zero_add] at hoffset
    rw [← hoffset] at hlow hhigh
    have hcut := not_isBoundary_of_cut h hlow hhigh
    obtain ⟨needed, available, offset, herror, hoffsets⟩ := decodeAll_of_cut h hlow hhigh
    refine ⟨iff_of_false ?_ hcut, fun hboundary ↦ absurd hboundary hcut, fun _ ↦
      ⟨i, ⟨by simp, hlow, fun j hj hlt ↦ ?_⟩, needed, available, offset, herror, hoffsets⟩⟩
    · rintro ⟨front, hfront⟩
      rw [herror] at hfront
      cases hfront
    · rcases hconsecutive.offset_le_or hj with hle | hle <;> omega

/-- The sample is cut within the padding of its table, behind the table, and behind the wide
mark. -/
theorem decodeAll_take_sample :
    decodeAll sampleCode = .ok sampleInstructions ∧
      (∃ i, LastBefore sampleInstructions 3 i ∧ ∃ needed available : Nat, ∃ offset : Int,
        decodeAll (sampleCode.take 3) =
          .error (.format (.truncated needed available) (some offset)) ∧
            i.offset < offset ∧ offset ≤ 3) ∧
      decodeAll (sampleCode.take 24) = .ok (sampleInstructions.filter (·.offset < 24)) ∧
      ∃ i, LastBefore sampleInstructions 25 i ∧ ∃ needed available : Nat, ∃ offset : Int,
        decodeAll (sampleCode.take 25) =
          .error (.format (.truncated needed available) (some offset)) ∧
            i.offset < offset ∧ offset ≤ 25 := by
  have hdecode : decodeAll sampleCode = .ok sampleInstructions := by decide +kernel
  have hinner (k : Nat) (hk : k = 3 ∨ k = 25) : ¬ IsBoundary sampleCode sampleInstructions k := by
    rcases hk with rfl | rfl <;> simp [IsBoundary, sampleCode, sampleInstructions]
  refine ⟨hdecode, ?_, ?_, ?_⟩
  · exact (decodeAll_take hdecode (by decide)).2.2 (hinner 3 (.inl rfl))
  · refine (decodeAll_take hdecode (by decide)).2.1 (.inr (.inr ?_))
    exact ⟨⟨24, ⟨"iinc", 0x84, [.localVariable, .i8]⟩, true,
      [.localVariable 256, .immediate (-2)]⟩, by simp [sampleInstructions], rfl⟩
  · exact (decodeAll_take hdecode (by decide)).2.2 (hinner 25 (.inr rfl))

end Instruction

end ClassInspect
