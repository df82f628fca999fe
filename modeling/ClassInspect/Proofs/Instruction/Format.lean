import ClassInspect.Proofs.Instruction.Assemble
import ClassInspect.Proofs.Opcode
import ClassInspect.Proofs.Scan.Grammar

/-!
# The format of instructions

Decoding an instruction accepts exactly the bytes that match the cells of a well-formed one, and
returns it (`Instruction.reads_decode`). A cell is a byte of a given value or any byte at all, so
the same instruction can be decoded from several byte strings: those that differ in padding and in
reserved bytes.

## What each part rests on

* The numbered targets of a `tableswitch` are not read as pairs. Only their distances stand in the
  file, and the numbers are counted up from the lower bound. `SwitchTable.eq_mapIdx_iff` says that
  this loses nothing: pairs are given by their numbers and their distances. The pairs of a
  `lookupswitch` are read as they are.
* The padding of a table depends on the position of the table, which is why a format knows where its
  bytes begin (`Mark.pos`), and the cells of an operand know theirs.
* Most kinds of operands are one number, with a range and a way to write it.
  `Instruction.reads_made` is about any such kind, and `Instruction.reads_readOperand` has one line
  for each.
* The operands are gone through in order (`Instruction.reads_readOperands`, by induction on the
  kinds). A reserved byte gives no operand, so the kinds and the operands advance at different
  paces, and the step is one of two.
* A wide instruction has a layout of its own, in which all numbers take two bytes. That the wide
  mark is no instruction by itself, and that no other row has it among its operands, is a matter of
  the table (`Opcode.Regular`).

Throughout, one direction says that what was read has the format, and the other that bytes of the
format are read. The second is the one that needs the ranges: a number out of range would be written
as the bytes of another one.
-/

namespace ClassInspect

open Scan (Reads Decodes)

/-! ### Switch tables -/

/-- Moving to the next multiple of four passes over any bytes. -/
theorem Scan.reads_align :
    Reads align fun m bytes _ ↦ Cells.Matches (.blank (padding m.pos)) bytes := by
  refine (Reads.pos.stillThen fun pos ↦ Reads.skip _).congr fun m bytes _ ↦ ?_
  rw [Cells.matches_blank]
  constructor
  · rintro ⟨_, rfl, hlength⟩
    exact hlength
  · intro hlength
    exact ⟨m.pos, rfl, hlength⟩

namespace SwitchTable

variable {offset : Nat}

/-- The numbered targets of a table are given by the numbers between the bounds and the distances of
the targets. -/
theorem eq_mapIdx_iff {low : Int} {distances : List Int} {pairs : List (Int × Int)} :
    pairs = distances.mapIdx (fun index distance ↦ (low + index, (offset : Int) + distance)) ↔
      pairs.map Prod.fst = (List.range distances.length).map (fun index : Nat ↦ low + index) ∧
        pairs.map (fun pair ↦ pair.2 - (offset : Int)) = distances := by
  constructor
  · rintro rfl
    constructor
    · apply List.ext_getElem <;> simp
    · apply List.ext_getElem
      · simp
      · intro index _ _
        simp only [List.getElem_map, List.getElem_mapIdx]
        omega
  · -- the numbers give the first components, the distances the second
    rintro ⟨hnumbers, rfl⟩
    apply List.ext_getElem
    · simp
    · intro index hpairs _
      have hnumber : pairs[index].1 = low + index := by
        have hget := List.getElem_of_eq hnumbers (i := index) (by simpa using hpairs)
        simpa using hget
      simp only [List.getElem_mapIdx, List.getElem_map]
      rw [← hnumber]
      ext
      · rfl
      · show pairs[index].2 = offset + (pairs[index].2 - offset)
        omega

/-- The part of a table behind its bounds. -/
theorem reads_targets (fallback low high : Int) :
    Reads (if high < low then Scan.fail (.switchBounds low high) offset
      else do
        let targets ← Scan.times (high - low + 1).toNat Scan.i32
        return (⟨offset + fallback, some (low, high),
          targets.mapIdx fun index target ↦ (low + index, offset + target)⟩ : SwitchTable))
      fun _ bytes table ↦ low ≤ high ∧ table.fallback = offset + fallback ∧
        table.bounds = some (low, high) ∧
        table.pairs.map Prod.fst =
          (List.range (high - low + 1).toNat).map (fun index : Nat ↦ low + index) ∧
        (∀ pair ∈ table.pairs, Bytes.FitsSigned 4 (pair.2 - offset)) ∧
        bytes = table.pairs.flatMap fun pair ↦ Bytes.ofInt 4 (pair.2 - offset) := by
  have htargets := (Scan.decodes_signed (by decide : 0 < 4)).times_map (high - low + 1).toNat
  -- bounds in the wrong order are refused before anything is read
  split
  · rename_i hlt
    refine (Reads.throw _).congr fun _ _ _ ↦ ⟨False.elim, fun h ↦ ?_⟩
    omega
  · rename_i hle
    refine (htargets.bind fun targets ↦ .pure _).congr fun _ bytes table ↦ ?_
    constructor
    · rintro ⟨_, _, _, rfl, ⟨distances, ⟨hlength, hfits⟩, rfl, rfl⟩, rfl, rfl⟩
      -- as many distances were read as there are numbers between the bounds
      obtain ⟨hnumbers, hdistances⟩ := eq_mapIdx_iff.1 (Eq.refl (distances.mapIdx
        fun index distance ↦ (low + index, (offset : Int) + distance)))
      rw [List.map_id']
      rw [hlength] at hnumbers
      refine ⟨by omega, rfl, rfl, hnumbers, ?_, ?_⟩
      · rw [← hdistances] at hfits
        exact List.forall_mem_map.1 hfits
      · rw [List.append_nil, ← List.flatMap_map, hdistances]
    · rintro ⟨-, hfallback, hbounds, hnumbers, hfits, rfl⟩
      obtain ⟨_, _, pairs⟩ := table
      obtain rfl := hfallback
      obtain rfl := hbounds
      -- the distances of the given pairs are what is read back
      have hlength : (pairs.map fun pair ↦ pair.2 - (offset : Int)).length =
          (high - low + 1).toNat := by
        simpa using congrArg List.length hnumbers
      refine ⟨_, [], _, (List.append_nil _).symm,
        ⟨pairs.map fun pair ↦ pair.2 - offset, ⟨hlength, List.forall_mem_map.2 hfits⟩, ?_, rfl⟩,
        rfl, ?_⟩
      · show _ = (pairs.map _).flatMap (Bytes.ofInt 4)
        rw [List.flatMap_map]
      · rw [List.map_id']
        have hpairs := eq_mapIdx_iff.2 ⟨hlength ▸ hnumbers, rfl⟩
        rw [← hpairs]

/-- A table for consecutive numbers. -/
theorem reads_readTable (offset : Nat) :
    Reads (readTable offset) fun m bytes table ↦ table.IsTable offset ∧
      Cells.Matches (.blank (padding m.pos) ++ .exact (table.writeTable offset)) bytes := by
  have hi32 := Reads.signed (by decide : 0 < 4)
  refine (Scan.reads_align.bind fun _ ↦ hi32.bind fun fallback ↦ hi32.bind fun low ↦
    hi32.bind fun high ↦ reads_targets fallback low high).congr fun m bytes table ↦ ?_
  rw [Cells.matches_append]
  simp only [Cells.matches_exact]
  constructor
  · rintro ⟨pad, _, _, rfl, hpad, _, _, fallback, rfl, ⟨hfallback, rfl⟩, _, _, low, rfl,
      ⟨hlow, rfl⟩, _, _, high, rfl, ⟨hhigh, rfl⟩, hle, hfall, hbounds, hnumbers, hfits, rfl⟩
    -- the table holds addresses, and the file distances
    have hdistance : table.fallback - offset = fallback := by omega
    refine ⟨⟨low, high, hbounds, hle, hlow, hhigh, ?_, hnumbers, hfits⟩, pad, _, rfl, hpad, ?_⟩
    · rw [hdistance]
      exact hfallback
    · simp [writeTable, hbounds, hdistance]
  · rintro ⟨⟨low, high, hbounds, hle, hlow, hhigh, hfallback, hnumbers, hfits⟩, pad, _, rfl, hpad,
      rfl⟩
    refine ⟨pad, _, (), rfl, hpad, _, _, table.fallback - offset, ?_, ⟨hfallback, rfl⟩, _, _, low,
      rfl, ⟨hlow, rfl⟩, _, _, high, rfl, ⟨hhigh, rfl⟩, hle, by omega, hbounds, hnumbers, hfits,
      rfl⟩
    simp [writeTable, hbounds]

/-- A number and its target. -/
theorem decodes_readPair (offset : Nat) :
    Decodes (readPair offset)
      (fun pair ↦ Bytes.FitsSigned 4 pair.1 ∧ Bytes.FitsSigned 4 (pair.2 - offset))
      (fun pair ↦ .ofInt 4 pair.1 ++ .ofInt 4 (pair.2 - offset))
      fun _ pair value ↦ value = pair := by
  have hi32 := Reads.signed (by decide : 0 < 4)
  refine (hi32.bind fun number ↦ hi32.bind fun distance ↦ .pure _).congr fun _ bytes value ↦ ?_
  constructor
  · rintro ⟨_, _, number, rfl, ⟨hnumber, rfl⟩, _, _, distance, rfl, ⟨hdistance, rfl⟩, rfl, rfl⟩
    have hback : (offset : Int) + distance - offset = distance := by omega
    refine ⟨(number, offset + distance), ⟨hnumber, ?_⟩, ?_, rfl⟩
    · rw [hback]
      exact hdistance
    · show _ = Bytes.ofInt 4 number ++ Bytes.ofInt 4 ((offset : Int) + distance - offset)
      rw [hback, List.append_nil]
  · rintro ⟨⟨number, target⟩, ⟨hnumber, htarget⟩, rfl, rfl⟩
    have hback : (offset : Int) + (target - offset) = target := by omega
    refine ⟨_, _, number, rfl, ⟨hnumber, rfl⟩, _, [], target - offset, (List.append_nil _).symm,
      ⟨htarget, rfl⟩, rfl, ?_⟩
    rw [hback]

/-- The part of a table behind the number of its pairs. -/
theorem reads_pairs (fallback count : Int) :
    Reads (if count < 0 then Scan.fail (.switchPairs count) offset
      else do
        let pairs ← Scan.times count.toNat (readPair offset)
        return (⟨offset + fallback, none, pairs⟩ : SwitchTable))
      fun _ bytes table ↦ count = table.pairs.length ∧ table.fallback = offset + fallback ∧
        table.bounds = none ∧
        (∀ pair ∈ table.pairs,
          Bytes.FitsSigned 4 pair.1 ∧ Bytes.FitsSigned 4 (pair.2 - offset)) ∧
        bytes = table.pairs.flatMap fun pair ↦
          Bytes.ofInt 4 pair.1 ++ Bytes.ofInt 4 (pair.2 - offset) := by
  have hpairs := (decodes_readPair offset).times_map count.toNat
  split
  · rename_i hlt
    refine (Reads.throw _).congr fun _ _ _ ↦ ⟨False.elim, fun h ↦ ?_⟩
    omega
  · rename_i hle
    refine (hpairs.bind fun pairs ↦ .pure _).congr fun _ bytes table ↦ ?_
    constructor
    · rintro ⟨_, _, _, rfl, ⟨pairs, ⟨hlength, hfits⟩, rfl, rfl⟩, rfl, rfl⟩
      rw [List.map_id', List.append_nil]
      refine ⟨?_, rfl, rfl, hfits, rfl⟩
      show count = (pairs.length : Int)
      omega
    · rintro ⟨hcount, hfallback, hbounds, hfits, rfl⟩
      obtain ⟨_, _, pairs⟩ := table
      obtain rfl := hfallback
      obtain rfl := hbounds
      refine ⟨_, [], pairs, (List.append_nil _).symm, ⟨pairs, ⟨?_, hfits⟩, rfl, ?_⟩, rfl, rfl⟩
      · rw [hcount]
        rfl
      · exact (List.map_id' pairs).symm

/-- A table for listed numbers. -/
theorem reads_readLookup (offset : Nat) :
    Reads (readLookup offset) fun m bytes table ↦ table.IsLookup offset ∧
      Cells.Matches (.blank (padding m.pos) ++ .exact (table.writeLookup offset)) bytes := by
  have hi32 := Reads.signed (by decide : 0 < 4)
  refine (Scan.reads_align.bind fun _ ↦ hi32.bind fun fallback ↦ hi32.bind fun count ↦
    reads_pairs fallback count).congr fun m bytes table ↦ ?_
  rw [Cells.matches_append]
  simp only [Cells.matches_exact]
  constructor
  · rintro ⟨pad, _, _, rfl, hpad, _, _, fallback, rfl, ⟨hfallback, rfl⟩, _, _, count, rfl,
      ⟨hcount, rfl⟩, hlength, hfall, hbounds, hfits, rfl⟩
    have hdistance : table.fallback - offset = fallback := by omega
    refine ⟨⟨hbounds, hlength ▸ hcount, hdistance ▸ hfallback, hfits⟩, pad, _, rfl, hpad, ?_⟩
    simp [writeLookup, hdistance, hlength]
  · rintro ⟨⟨hbounds, hcount, hfallback, hfits⟩, pad, _, rfl, hpad, rfl⟩
    refine ⟨pad, _, (), rfl, hpad, _, _, table.fallback - offset, ?_, ⟨hfallback, rfl⟩, _, _,
      table.pairs.length, rfl, ⟨hcount, rfl⟩, rfl, by omega, hbounds, hfits, rfl⟩
    simp [writeLookup]

end SwitchTable

/-! ### Operands -/

/-- A number denotes the primitive type whose number it is. -/
theorem BaseType.ofArrayCode?_eq_some_iff {code : Nat} {type : BaseType} :
    ofArrayCode? code = some type ↔ code = type.arrayCode := by
  constructor
  · intro h
    simpa [eq_comm] using List.find?_some h
  · rintro rfl
    cases type <;> rfl

namespace Instruction

variable {offset : Nat}

/-- The number of an array type has been read before, so no more bytes are taken. A number that is
no type's is refused. -/
theorem reads_arrayType (offset code : Nat) :
    Reads (arrayType offset code) fun _ bytes type ↦ bytes = [] ∧ code = type.arrayCode := by
  unfold arrayType
  rcases hcode : BaseType.ofArrayCode? code with _ | type
  · refine (Reads.throw _).congr fun _ _ type ↦ ⟨False.elim, fun h ↦ ?_⟩
    rw [BaseType.ofArrayCode?_eq_some_iff.2 h.2] at hcode
    cases hcode
  · refine (Reads.pure type).congr fun _ _ other ↦ and_congr_right fun _ ↦ ?_
    rw [← BaseType.ofArrayCode?_eq_some_iff, hcode, Option.some_inj, eq_comm]

/-- An array type is read from the byte of its number. -/
theorem reads_readArrayType (offset : Nat) :
    Reads (readArrayType offset) fun _ bytes type ↦
      True ∧ bytes = .ofNat 1 type.arrayCode := by
  refine ((Reads.unsigned 1).bind (reads_arrayType offset)).congr fun _ bytes type ↦ ?_
  constructor
  · rintro ⟨_, _, _, rfl, ⟨-, rfl⟩, rfl, rfl⟩
    exact ⟨trivial, List.append_nil _⟩
  · rintro ⟨-, rfl⟩
    refine ⟨_, [], type.arrayCode, (List.append_nil _).symm, ⟨?_, rfl⟩, rfl, rfl⟩
    cases type <;> decide

/-- An operand of a kind in its range, with the bytes of its cells. -/
def operandFormat (offset : Nat) (kind : OperandKind) : Scan.Format (Option Operand) :=
  fun m bytes found ↦ ∃ operand, found = some operand ∧ operand.Fits offset kind ∧
    Cells.Matches (operand.cells offset m.pos kind) bytes

/-- An operand of a kind that is made from what one scan reads. -/
theorem reads_made {β : Type} {scan : Scan β} {fits : β → Prop} {layout : Nat → β → Cells}
    {kind : OperandKind} (make : β → Operand)
    (h : Reads scan fun m bytes found ↦ fits found ∧ Cells.Matches (layout m.pos found) bytes)
    (hfits : ∀ operand : Operand, operand.Fits offset kind ↔
      ∃ found, operand = make found ∧ fits found)
    (hcells : ∀ found pos, (make found).cells offset pos kind = layout pos found) :
    Reads (do return some (make (← scan))) (operandFormat offset kind) := by
  rw [← map_eq_pure_bind]
  refine (h.map fun found ↦ some (make found)).congr fun m bytes found ↦ ?_
  constructor
  · rintro ⟨found, ⟨hfound, hmatches⟩, rfl⟩
    refine ⟨make found, rfl, (hfits _).2 ⟨found, rfl, hfound⟩, ?_⟩
    rw [hcells]
    exact hmatches
  · rintro ⟨operand, rfl, hoperand, hmatches⟩
    obtain ⟨found, rfl, hfound⟩ := (hfits operand).1 hoperand
    rw [hcells] at hmatches
    exact ⟨found, ⟨hfound, hmatches⟩, rfl⟩

/-- An operand of a kind that is one number. -/
theorem reads_number {β : Type} {scan : Scan β} {fits : β → Prop} {write : β → Bytes}
    {kind : OperandKind} (make : β → Operand)
    (h : Reads scan fun _ bytes found ↦ fits found ∧ bytes = write found)
    (hfits : ∀ operand : Operand, operand.Fits offset kind ↔
      ∃ found, operand = make found ∧ fits found)
    (hcells : ∀ found pos, (make found).cells offset pos kind = .exact (write found)) :
    Reads (do return some (make (← scan))) (operandFormat offset kind) := by
  refine reads_made make (h.congr fun m bytes found ↦ ?_) hfits hcells
  rw [Cells.matches_exact]

/-- An operand of a kind that is a distance from the instruction. -/
theorem reads_distance {size : Nat} (hsize : 0 < size) {kind : OperandKind}
    (hfits : ∀ operand : Operand, operand.Fits offset kind ↔
      ∃ address, operand = .target address ∧ Bytes.FitsSigned size (address - offset))
    (hcells : ∀ address pos, (Operand.target address).cells offset pos kind =
      .exact (.ofInt size (address - offset))) :
    Reads (do return some (.target (offset + (← Scan.signed size))))
      (operandFormat offset kind) := by
  have hback (distance : Int) : (offset : Int) + distance - offset = distance := by omega
  refine reads_number (fun distance ↦ .target (offset + distance)) (Reads.signed hsize)
    (fun operand ↦ ?_) fun distance pos ↦ ?_
  · rw [hfits]
    constructor
    · rintro ⟨address, rfl, hdistance⟩
      exact ⟨address - offset, congrArg _ (by omega), hdistance⟩
    · rintro ⟨distance, rfl, hdistance⟩
      exact ⟨_, rfl, by rwa [hback]⟩
  · rw [hcells, hback]

/-- An operand of any kind but a reserved byte and the wide mark. -/
theorem reads_readOperand {kind : OperandKind} (hreserved : kind ≠ .reserved)
    (hwide : kind ≠ .wide) : Reads (readOperand offset kind) (operandFormat offset kind) := by
  cases kind
  case reserved => exact absurd rfl hreserved
  case wide => exact absurd rfl hwide
  case i8 =>
    exact reads_number .immediate (.signed (by decide))
      (fun operand ↦ by cases operand <;> simp [Operand.Fits]) fun _ _ ↦ rfl
  case i16 =>
    exact reads_number .immediate (.signed (by decide))
      (fun operand ↦ by cases operand <;> simp [Operand.Fits]) fun _ _ ↦ rfl
  case count =>
    exact reads_number .count (.unsigned 1)
      (fun operand ↦ by cases operand <;> simp [Operand.Fits]) fun _ _ ↦ rfl
  case localVariable =>
    exact reads_number .localVariable (.unsigned 1)
      (fun operand ↦ by cases operand <;> simp [Operand.Fits]) fun _ _ ↦ rfl
  case constant8 =>
    exact reads_number .constant (.unsigned 1)
      (fun operand ↦ by cases operand <;> simp [Operand.Fits]) fun _ _ ↦ rfl
  case constant16 =>
    exact reads_number .constant (.unsigned 2)
      (fun operand ↦ by cases operand <;> simp [Operand.Fits]) fun _ _ ↦ rfl
  case branch16 =>
    exact reads_distance (by decide)
      (fun operand ↦ by cases operand <;> simp [Operand.Fits]) fun _ _ ↦ rfl
  case branch32 =>
    exact reads_distance (by decide)
      (fun operand ↦ by cases operand <;> simp [Operand.Fits]) fun _ _ ↦ rfl
  case arrayType =>
    exact reads_number .arrayType (reads_readArrayType offset)
      (fun operand ↦ by cases operand <;> simp [Operand.Fits]) fun _ _ ↦ rfl
  case tableSwitch =>
    exact reads_made .table (SwitchTable.reads_readTable offset)
      (fun operand ↦ by cases operand <;> simp [Operand.Fits]) fun _ _ ↦ rfl
  case lookupSwitch =>
    exact reads_made .table (SwitchTable.reads_readLookup offset)
      (fun operand ↦ by cases operand <;> simp [Operand.Fits]) fun _ _ ↦ rfl

/-- The operands of an instruction, in order. -/
theorem reads_readOperands {kinds : List OperandKind} (hwide : .wide ∉ kinds) :
    Reads (readOperands offset kinds) fun m bytes operands ↦
      Operand.AllFit offset kinds operands ∧
        Cells.Matches (Operand.allCells offset m.pos kinds operands) bytes := by
  induction kinds with
  | nil =>
    refine (Reads.pure []).congr fun m bytes operands ↦ ?_
    cases operands <;> simp [Operand.AllFit, Operand.allCells]
  | cons kind kinds ih =>
    have hkind : kind ≠ .wide := fun h ↦ hwide (h ▸ List.mem_cons_self)
    have hrest := ih fun h ↦ hwide (List.mem_cons_of_mem _ h)
    by_cases hreserved : kind = .reserved
    · -- a byte is passed over, and the operands are those of the other kinds
      subst hreserved
      have hskip : Reads (readOperand offset .reserved) fun _ bytes found ↦
          bytes.length = 1 ∧ found = none := by
        refine ((Reads.skip 1).bind fun _ ↦ .pure none).congr fun _ bytes found ↦ ?_
        constructor
        · rintro ⟨_, _, _, rfl, hlength, rfl, rfl⟩
          exact ⟨by rw [List.append_nil, hlength], rfl⟩
        · rintro ⟨hlength, rfl⟩
          exact ⟨bytes, [], (), (List.append_nil _).symm, hlength, rfl, rfl⟩
      refine (hskip.bind fun found ↦ hrest.bind fun rest ↦ .pure _).congr fun m bytes operands ↦ ?_
      rw [Operand.allFit_reserved, Operand.allCells_reserved, Cells.matches_append]
      simp only [Cells.matches_blank]
      constructor
      · rintro ⟨front, _, _, rfl, ⟨hfront, rfl⟩, back, _, rest, rfl, ⟨hfits, hback⟩, rfl, rfl⟩
        rw [Mark.pos_after, hfront] at hback
        exact ⟨hfits, front, back, by rw [List.append_nil], hfront, hback⟩
      · rintro ⟨hfits, front, back, rfl, hfront, hback⟩
        rw [← hfront] at hback
        exact ⟨front, back, none, rfl, ⟨hfront, rfl⟩, back, [], operands, (List.append_nil _).symm,
          ⟨hfits, hback⟩, rfl, rfl⟩
    · -- an operand is read, and the others stand behind its cells
      have hoperand : Reads (readOperand offset kind) (operandFormat offset kind) :=
        reads_readOperand hreserved hkind
      refine (hoperand.bind fun found ↦ hrest.bind fun rest ↦ .pure _).congr
        fun m bytes operands ↦ ?_
      rw [Operand.allFit_cons_iff hreserved]
      constructor
      · rintro ⟨front, _, _, rfl, ⟨operand, rfl, hfits, hfront⟩, back, _, rest, rfl,
          ⟨hfitRest, hback⟩, rfl, rfl⟩
        refine ⟨⟨operand, rest, rfl, hfits, hfitRest⟩, ?_⟩
        show Cells.Matches (Operand.allCells offset m.pos (kind :: kinds) (operand :: rest)) _
        -- the cells of the others begin where the bytes that matched end
        rw [Operand.allCells_cons _ _ _ hreserved, hfront.length_eq, List.append_nil,
          Cells.matches_append]
        exact ⟨front, back, rfl, hfront, hback⟩
      · rintro ⟨⟨operand, rest, rfl, hfits, hfitRest⟩, hmatches⟩
        rw [Operand.allCells_cons _ _ _ hreserved, Cells.matches_append] at hmatches
        obtain ⟨front, back, rfl, hfront, hback⟩ := hmatches
        rw [hfront.length_eq] at hback
        exact ⟨front, back, some operand, rfl, ⟨operand, rfl, hfits, hfront⟩, back, [], rest,
          (List.append_nil _).symm, ⟨hfitRest, hback⟩, rfl, rfl⟩

/-! ### Instructions -/

/-- The operands of a wide instruction. -/
theorem reads_readWidened {opcode : Opcode} (hopcode : opcode ∈ Opcode.all) :
    Reads (readWidened offset opcode) fun _ bytes i ↦
      ∃ operands, i = ⟨offset, opcode, true, operands⟩ ∧
        Operand.WideFit opcode.mnemonic operands ∧ bytes = Operand.writeWide operands := by
  unfold readWidened
  -- the decoder goes by the operands of the row, the format by the mnemonic
  have hincrement := Opcode.operands_eq_increment_iff hopcode
  by_cases h : opcode.operands = [.localVariable, .i8]
  · simp only [if_pos h, Operand.wideFit_iff_of_increment (hincrement.1 h)]
    refine ((Reads.unsigned 2).bind fun index ↦ (Reads.signed (by decide)).bind fun value ↦
      .pure _).congr fun _ bytes i ↦ ?_
    constructor
    · rintro ⟨_, _, index, rfl, ⟨hindex, rfl⟩, _, _, value, rfl, ⟨hvalue, rfl⟩, rfl, rfl⟩
      exact ⟨_, rfl, ⟨index, value, rfl, hindex, hvalue⟩, by simp [Operand.writeWide]⟩
    · rintro ⟨_, rfl, ⟨index, value, rfl, hindex, hvalue⟩, rfl⟩
      exact ⟨_, _, index, rfl, ⟨hindex, rfl⟩, _, [], value, (List.append_nil _).symm, ⟨hvalue, rfl⟩,
        rfl, rfl⟩
  · simp only [if_neg h, Operand.wideFit_iff_of_ne fun hname ↦ h (hincrement.2 hname)]
    refine ((Reads.unsigned 2).bind fun index ↦ .pure _).congr fun _ bytes i ↦ ?_
    constructor
    · rintro ⟨_, _, index, rfl, ⟨hindex, rfl⟩, rfl, rfl⟩
      exact ⟨_, rfl, ⟨index, rfl, hindex⟩, by simp [Operand.writeWide]⟩
    · rintro ⟨_, rfl, ⟨index, rfl, hindex⟩, rfl⟩
      exact ⟨_, [], index, (List.append_nil _).symm, ⟨hindex, rfl⟩, rfl, rfl⟩

/-- The row of an opcode that may follow the wide mark. -/
theorem filter_isWidened_eq_some_iff {code : Nat} {opcode : Opcode} :
    (Opcode.ofCode? code).filter Opcode.isWidened = some opcode ↔
      (opcode ∈ Opcode.all ∧ opcode.code = code) ∧ opcode.isWidened = true := by
  rw [Option.filter_eq_some_iff, Opcode.ofCode?_eq_some_iff]

/-- What follows an opcode behind a wide mark. -/
theorem reads_readWideRest (offset code : Nat) :
    Reads (readWideRest offset code) fun _ bytes i ↦ i.wide = true ∧ i.offset = offset ∧
      i.WellFormed ∧ i.opcode.code = code ∧ bytes = Operand.writeWide i.operands := by
  unfold readWideRest
  rcases hfound : (Opcode.ofCode? code).filter Opcode.isWidened with _ | opcode
  · refine (Reads.throw _).congr fun _ bytes i ↦ ⟨False.elim, ?_⟩
    rintro ⟨hwide, -, hi, hcode, -⟩
    obtain ⟨hopcode, hwidened, -⟩ := (wellFormed_of_wide hwide).1 hi
    rw [filter_isWidened_eq_some_iff.2 ⟨⟨hopcode, hcode⟩, hwidened⟩] at hfound
    cases hfound
  · obtain ⟨⟨hopcode, hcode⟩, hwidened⟩ := filter_isWidened_eq_some_iff.1 hfound
    refine (reads_readWidened hopcode).congr fun _ bytes i ↦ ?_
    constructor
    · rintro ⟨operands, rfl, hfits, rfl⟩
      exact ⟨rfl, rfl, (wellFormed_of_wide rfl).2 ⟨hopcode, hwidened, hfits⟩, hcode, rfl⟩
    · rintro ⟨hwide, rfl, hi, hcode', rfl⟩
      obtain ⟨hopcode', hwidened', hfits⟩ := (wellFormed_of_wide hwide).1 hi
      have hsame := filter_isWidened_eq_some_iff.2 ⟨⟨hopcode', hcode'⟩, hwidened'⟩
      -- the instruction has the opcode that was found, since no opcode has two rows
      obtain rfl := Option.some.inj (hfound.symm.trans hsame)
      exact ⟨i.operands, by rw [← hwide], hfits, rfl⟩

/-- The instruction behind a wide mark. -/
theorem reads_readWide (offset : Nat) :
    Reads (readWide offset) fun _ bytes i ↦ i.wide = true ∧ i.offset = offset ∧ i.WellFormed ∧
      bytes = .ofNat 1 i.opcode.code ++ Operand.writeWide i.operands := by
  refine ((Reads.unsigned 1).bind (reads_readWideRest offset)).congr fun _ bytes i ↦ ?_
  constructor
  · rintro ⟨_, _, _, rfl, ⟨-, rfl⟩, hwide, hoffset, hi, rfl, rfl⟩
    exact ⟨hwide, hoffset, hi, rfl⟩
  · rintro ⟨hwide, hoffset, hi, rfl⟩
    have hlt := (Opcode.regular ((wellFormed_of_wide hwide).1 hi).1).code_lt
    exact ⟨_, _, i.opcode.code, rfl, ⟨hlt, rfl⟩, hwide, hoffset, hi, rfl, rfl⟩

/-- What follows an opcode. -/
theorem reads_readRest (offset code : Nat) :
    Reads (readRest offset code) fun m bytes i ↦ i.offset = offset ∧ i.WellFormed ∧
      (i.wide = true ∧ code = wideMark ∧
          bytes = .ofNat 1 i.opcode.code ++ Operand.writeWide i.operands ∨
        i.wide = false ∧ code = i.opcode.code ∧
          Cells.Matches (Operand.allCells offset m.pos i.opcode.operands i.operands) bytes) := by
  -- the mark has a row too, so a code without a row is neither an opcode nor the mark
  have hmark : (Opcode.ofCode? wideMark).isSome = true := by decide +kernel
  unfold readRest
  rcases hfound : Opcode.ofCode? code with _ | opcode
  · refine (Reads.throw _).congr fun m bytes i ↦ ⟨False.elim, ?_⟩
    rintro ⟨-, hi, ⟨-, rfl, -⟩ | ⟨-, rfl, -⟩⟩
    · rw [hfound] at hmark
      cases hmark
    · rw [Opcode.ofCode?_eq_some_iff.2 ⟨hi.1, rfl⟩] at hfound
      cases hfound
  · obtain ⟨hopcode, hcode⟩ := Opcode.ofCode?_eq_some_iff.1 hfound
    have hkind := (Opcode.regular hopcode).wide_iff
    by_cases hwide : opcode.operands = [.wide]
    · simp only [if_pos hwide]
      refine (reads_readWide offset).congr fun m bytes i ↦ ?_
      constructor
      · rintro ⟨hwide', hoffset, hi, hbytes⟩
        exact ⟨hoffset, hi, .inl ⟨hwide', hcode.symm.trans (hkind.1 hwide), hbytes⟩⟩
      · rintro ⟨hoffset, hi, ⟨hwide', -, hbytes⟩ | ⟨hnarrow, rfl, -⟩⟩
        · exact ⟨hwide', hoffset, hi, hbytes⟩
        · -- the mark itself is no instruction
          obtain ⟨hi, hfits⟩ := (wellFormed_of_narrow hnarrow).1 hi
          have hsame := Opcode.ofCode?_eq_some_iff.2 ⟨hi, rfl⟩
          obtain rfl := Option.some.inj (hfound.symm.trans hsame)
          rw [hwide] at hfits
          exact absurd hfits Operand.not_allFit_wide
    · simp only [if_neg hwide]
      refine ((reads_readOperands ((Opcode.regular hopcode).wide_not_mem hwide)).bind
        fun operands ↦ .pure _).congr fun m bytes i ↦ ?_
      constructor
      · rintro ⟨_, _, operands, rfl, ⟨hfits, hmatches⟩, rfl, rfl⟩
        refine ⟨rfl, (wellFormed_of_narrow rfl).2 ⟨hopcode, hfits⟩, .inr ⟨rfl, hcode.symm, ?_⟩⟩
        rw [List.append_nil]
        exact hmatches
      · rintro ⟨rfl, hi, ⟨-, rfl, -⟩ | ⟨hnarrow, rfl, hmatches⟩⟩
        · exact absurd (hkind.2 hcode) hwide
        · obtain ⟨hi, hfits⟩ := (wellFormed_of_narrow hnarrow).1 hi
          have hsame := Opcode.ofCode?_eq_some_iff.2 ⟨hi, rfl⟩
          obtain rfl := Option.some.inj (hfound.symm.trans hsame)
          exact ⟨bytes, [], i.operands, (List.append_nil _).symm, ⟨hfits, hmatches⟩, rfl,
            by rw [← hnarrow]⟩

/-- Decoding accepts exactly the bytes that match the cells of a well-formed instruction. -/
theorem reads_decode :
    Reads decode fun m bytes i ↦ i.offset = m.pos ∧ i.WellFormed ∧
      Cells.Matches i.cells bytes := by
  refine (Reads.pos.stillThen fun offset ↦ (Reads.unsigned 1).bind fun code ↦
    reads_readRest offset code).congr fun m bytes i ↦ ?_
  constructor
  · rintro ⟨_, rfl, _, back, code, rfl, ⟨-, rfl⟩, hoffset, hi,
      ⟨hwide, rfl, rfl⟩ | ⟨hnarrow, rfl, hmatches⟩⟩
    · refine ⟨hoffset, hi, ?_⟩
      rw [cells_of_wide hwide, Cells.matches_exact, List.append_assoc]
    · refine ⟨hoffset, hi, ?_⟩
      rw [cells_of_narrow hnarrow, Cells.matches_append, hoffset]
      exact ⟨_, back, rfl, Cells.matches_exact.2 rfl, hmatches⟩
  · rintro ⟨hoffset, hi, hmatches⟩
    rcases Bool.eq_false_or_eq_true i.wide with hwide | hnarrow
    · rw [cells_of_wide hwide, Cells.matches_exact] at hmatches
      subst hmatches
      exact ⟨m.pos, rfl, _, _, wideMark, List.append_assoc _ _ _, ⟨by decide, rfl⟩, hoffset, hi,
        .inl ⟨hwide, rfl, rfl⟩⟩
    · rw [cells_of_narrow hnarrow, Cells.matches_append, hoffset] at hmatches
      obtain ⟨_, back, rfl, hfront, hback⟩ := hmatches
      obtain rfl := Cells.matches_exact.1 hfront
      exact ⟨m.pos, rfl, _, back, i.opcode.code, rfl, ⟨(Opcode.regular hi.1).code_lt, rfl⟩,
        hoffset, hi, .inr ⟨hnarrow, rfl, hback⟩⟩

end Instruction

end ClassInspect
