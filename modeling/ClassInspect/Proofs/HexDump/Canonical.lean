import Mathlib.Control.Monad.Basic
import Mathlib.Data.List.Forall2
import ClassInspect.Proofs.Bytes
import ClassInspect.Proofs.HexDump.Pairs

/-!
# The canonical dump of bytes

A line of the dump has three parts: the address, the pairs in groups of eight, and the characters
between bars. The pairs are filled up with blanks to the width that `HexDump.groupsWidth` gives in
closed form. It is the length of a full row (`HexDump.length_groups`), so a short row is filled up
to the same column and the bars of all lines stand below each other (`HexDump.IsDumpLine`).

How wide a line may be is limited by what can be stored. Beyond that there is no dump, unless
there are no bytes and so no lines.

## What the theorem rests on

`HexDump.canonical_lossless` says of a dump that there is room for that each of its lines is one of
the row of its number, and that the data can be read back. What a line is, is said by looking at the
line: which digits it starts with, where its first bar stands, what is between the bars, and which
pairs can be read in front of them.

* The digits of an address are read as the address. A dump writes as many as the address has, with
  zeros in front; for an address below `2 ^ 32` these are the eight low digits
  (`Hex.zeroHex_eq_fixed`), which is a recursion that can be read back from the end.
* No digit and no blank is a bar or a line feed (`HexDump.mem_lineFront`). So the first bar is the
  opening one, and its column is the length of what stands in front (`HexDump.length_lineFront`).
* Pairs are read back by going over blanks, one pair at a time. `HexDump.ReadsAs` says this of a
  part of a line in front of any other, so the parts can be put together: pairs to groups, groups to
  rows, and the rows of all lines to the data.
-/

namespace ClassInspect

/-! ### Addresses -/

namespace Hex

/-- The number that digits stand for. -/
def number? (digits : List Char) : Option Nat :=
  digits.foldlM (fun number c ↦ (value? c).map (number * 16 + ·)) 0

theorem length_fixed (count value : Nat) : (fixed count value).length = count := by
  induction count generalizing value with
  | zero => rfl
  | succ count ih => rw [fixed, List.length_append, ih, List.length_singleton]

theorem isLowerDigit_of_mem_fixed {count value : Nat} {c : Char} (h : c ∈ fixed count value) :
    IsLowerDigit c := by
  induction count generalizing value with
  | zero => cases h
  | succ count ih =>
    rw [fixed, List.mem_append, List.mem_singleton] at h
    obtain h | rfl := h
    · exact ih h
    · exact isLowerDigit_digit _ (Nat.mod_lt _ (by decide))

theorem number?_concat (digits : List Char) (c : Char) :
    number? (digits ++ [c]) =
      (number? digits).bind fun number ↦ (value? c).map (number * 16 + ·) := by
  rw [number?, List.foldlM_append]
  show (number? digits).bind _ = _
  congr 1
  funext number
  exact Option.bind_fun_some _

/-- The low digits of a number are read as what they leave of it. -/
theorem number?_fixed (count value : Nat) :
    number? (fixed count value) = some (value % 16 ^ count) := by
  induction count generalizing value with
  | zero =>
    rw [Nat.pow_zero, Nat.mod_one]
    rfl
  | succ count ih =>
    rw [fixed, number?_concat, ih, value?_digit _ (Nat.mod_lt _ (by decide)), Nat.pow_succ,
      Nat.mul_comm _ 16, Nat.mod_mul]
    show some (value / 16 % 16 ^ count * 16 + value % 16) = _
    rw [Nat.add_comm, Nat.mul_comm]

/-- Zeros in front of the digits of a number make them the low digits of a fixed count. -/
theorem padLeft_toDigits {count value : Nat} (h : value < 16 ^ (count + 1)) :
    Layout.padLeft '0' (count + 1) (Nat.toDigits 16 value) = fixed (count + 1) value := by
  have hchar : ∀ digit < 16, Nat.digitChar digit = Hex.digit digit := by decide
  induction count generalizing value with
  | zero =>
    have hlt : value < 16 := h
    rw [Nat.toDigits_of_lt_base hlt, hchar value hlt, fixed, fixed, Nat.mod_eq_of_lt hlt]
    rfl
  | succ count ih =>
    -- the last digit comes off on both sides, and zeros fill up what is left of the number
    have hquotient : value / 16 < 16 ^ (count + 1) :=
      Nat.div_lt_of_lt_mul (by rwa [Nat.pow_succ, Nat.mul_comm] at h)
    have hdigits : Layout.padLeft '0' (count + 2) (Nat.toDigits 16 value) =
        Layout.padLeft '0' (count + 1) (Nat.toDigits 16 (value / 16)) ++
          [Nat.digitChar (value % 16)] := by
      by_cases hlt : value < 16
      · rw [Nat.toDigits_of_lt_base hlt, Nat.div_eq_of_lt hlt, Nat.mod_eq_of_lt hlt]
        show List.replicate (count + 1) '0' ++ _ = List.replicate count '0' ++ ['0'] ++ _
        rw [List.replicate_succ']
      · rw [Nat.toDigits_of_base_le (by decide) (Nat.le_of_not_lt hlt), Layout.padLeft,
          Layout.padLeft, List.length_append, List.length_singleton, ← List.append_assoc]
        congr 3
        omega
    rw [hdigits, ih hquotient, hchar _ (Nat.mod_lt _ (by decide))]
    rfl

/-- An address that fits is written with as many digits as there are columns. -/
theorem zeroHex_eq_fixed {count : Nat} {value : Int} (hvalue : 0 ≤ value)
    (h : value < 16 ^ (count + 1)) :
    Layout.zeroHex (count + 1) value = fixed (count + 1) value.toNat := by
  have hlt : value.toNat < 16 ^ (count + 1) := by
    have hcast : ((16 ^ (count + 1) : Nat) : Int) = 16 ^ (count + 1) := by norm_cast
    omega
  rw [Layout.zeroHex, if_neg (Int.not_lt.2 hvalue), padLeft_toDigits hlt]

end Hex

namespace HexDump

/-! ### Lines -/

/-- The column of the opening bar. -/
def barColumn (width : Nat) : Nat :=
  12 + 3 * width - 1 + (width - 1) / 8

/-- The columns between the address and the opening bar. -/
def pairColumns (width : Nat) (line : List Char) : List Char :=
  (line.take (barColumn width)).drop 8

/-- A visible character stands for its own byte, and a point for any byte that has none. -/
def IsShownAs (byte : UInt8) (c : Char) : Prop :=
  if 33 ≤ byte.toNat ∧ byte.toNat ≤ 126 then c.toNat = byte.toNat else c = '.'

/-- A line of a dump. -/
structure IsDumpLine (width : Nat) (address : Int) (row : Bytes) (line : List Char) : Prop where
  /-- It starts with the eight digits of the address. -/
  digits : (line.take 8).length = 8 ∧ ∀ c ∈ line.take 8, Hex.IsLowerDigit c
  address : (Hex.number? (line.take 8)).map Int.ofNat = some address
  /-- The opening bar is the first one, and stands in the same column in all lines. -/
  bar : line.findIdx? (· == '|') = some (barColumn width)
  /-- Between the bars is a character for each byte. -/
  shown : ∃ text, line.drop (barColumn width + 1) = text ++ ['|'] ∧ List.Forall₂ IsShownAs row text
  /-- The pairs in front of the bars are the bytes. -/
  pairs : readPairs (pairColumns width line) = some row
  /-- It is one line. -/
  noFeed : '\n' ∉ line

/-- Lines dump data from an address on. -/
structure IsDump (width : Nat) (address : Int) (data : Bytes) (lines : List (List Char)) :
    Prop where
  /-- There are as many lines as rows. -/
  count : lines.length = rowCount width data.length
  /-- Every line is that of the row of its number. -/
  line : ∀ (index : Nat) line, lines[index]? = some line →
    IsDumpLine width (address + width * index) ((data.drop (index * width)).take width) line
  /-- The pairs of all lines are the data. -/
  pairs : readPairs (lines.flatMap (pairColumns width)) = some data

theorem isShownAs_visible (byte : UInt8) : IsShownAs byte (visible byte) := by
  have hself : ∀ n < 127, (Char.ofNat n).toNat = n := by decide
  have hrange : 33 ≤ byte ∧ byte ≤ 126 ↔ 33 ≤ byte.toNat ∧ byte.toNat ≤ 126 :=
    and_congr UInt8.le_iff_toNat_le UInt8.le_iff_toNat_le
  rw [IsShownAs, visible]
  by_cases h : 33 ≤ byte.toNat ∧ byte.toNat ≤ 126
  · rw [if_pos h, if_pos (hrange.2 h)]
    exact hself _ (by omega)
  · rw [if_neg h, if_neg (mt hrange.1 h)]

theorem IsShownAs.ne_feed {byte : UInt8} {c : Char} (h : IsShownAs byte c) : c ≠ '\n' := by
  rintro rfl
  rw [IsShownAs] at h
  split at h
  · rename_i hrange
    change 10 = byte.toNat at h
    omega
  · exact absurd h (by decide)

theorem mem_pair {byte : UInt8} {c : Char} (h : c ∈ Hex.pair byte) : Hex.IsLowerDigit c := by
  have hhalves := Hex.halves_lt byte
  rw [Hex.pair, List.mem_cons, List.mem_singleton] at h
  obtain rfl | rfl := h
  · exact Hex.isLowerDigit_digit _ hhalves.1
  · exact Hex.isLowerDigit_digit _ hhalves.2

/-! ### Groups -/

/-- The pairs of one group. -/
def groupChars (group : Bytes) : List Char :=
  separated [' '] (group.map Hex.pair)

theorem groups_eq (row : Bytes) :
    groups row = separated [' ', ' '] ((chunks 8 row).map groupChars) :=
  rfl

theorem length_groupChars (group : Bytes) : (groupChars group).length = 3 * group.length - 1 := by
  induction group with
  | nil => rfl
  | cons byte group ih =>
    match group with
    | [] => rfl
    | next :: group =>
      have hcons : groupChars (byte :: next :: group) =
          Hex.pair byte ++ [' '] ++ groupChars (next :: group) := rfl
      have hpair : (Hex.pair byte).length = 2 := rfl
      rw [hcons, List.length_append, List.length_append, ih, hpair]
      simp only [List.length_cons, List.length_nil]
      omega

theorem groups_of_le {row : Bytes} (h : row.length ≤ 8) : groups row = groupChars row := by
  by_cases hrow : row = []
  · rw [hrow, groups_eq, chunks_nil]
    rfl
  · rw [groups_eq, chunks_of_ne_nil (by decide) hrow, List.drop_of_length_le h, chunks_nil,
      List.take_of_length_le h]
    rfl

theorem groups_of_lt {row : Bytes} (h : 8 < row.length) :
    groups row = groupChars (row.take 8) ++ [' ', ' '] ++ groups (row.drop 8) := by
  have hrow : row ≠ [] := List.length_pos_iff.1 (by omega)
  have hrest : row.drop 8 ≠ [] := List.length_pos_iff.1 (by rw [List.length_drop]; omega)
  rw [groups_eq, groups_eq, chunks_of_ne_nil (by decide) hrow, chunks_of_ne_nil (by decide) hrest]
  rfl

/-- The number of columns kept for the pairs is the number that a full row takes. -/
theorem length_groups (row : Bytes) : (groups row).length = groupsWidth row.length := by
  have hsize : 0 < 8 := by decide
  induction row using chunks_induction hsize with
  | nil =>
    rw [groups_of_le (by decide)]
    rfl
  | step row hrow ih =>
    have hpos : 0 < row.length := List.length_pos_iff.2 hrow
    rcases Nat.lt_or_ge 8 row.length with hlt | hle
    · -- a full group is 23 columns wide, and two blanks follow it
      rw [groups_of_lt hlt, List.length_append, List.length_append, ih, length_groupChars,
        List.length_take, List.length_drop, groupsWidth, groupsWidth]
      simp only [List.length_cons, List.length_nil]
      omega
    · rw [groups_of_le hle, length_groupChars, groupsWidth]
      omega

theorem groupsWidth_mono {length width : Nat} (h : length ≤ width) :
    groupsWidth length ≤ groupsWidth width := by
  rw [groupsWidth, groupsWidth]
  omega

theorem readsAs_groupChars (group : Bytes) : ReadsAs (groupChars group) group := by
  have hgroup := ReadsAs.separated (ReadsAs.blanks 1) group fun byte _ ↦
    ReadsAs.pair byte
  rwa [List.flatMap_singleton'] at hgroup

theorem readsAs_groups (row : Bytes) : ReadsAs (groups row) row := by
  have hgroups := ReadsAs.separated (ReadsAs.blanks 2) (chunks 8 row) fun group _ ↦
    readsAs_groupChars group
  rwa [List.flatMap_id', flatten_chunks (by decide)] at hgroups

theorem mem_groups {row : Bytes} {c : Char} (h : c ∈ groups row) :
    c = ' ' ∨ Hex.IsLowerDigit c := by
  obtain hblank | ⟨item, hitem, h⟩ := mem_separated h
  · exact .inl (by simpa using hblank)
  · obtain ⟨group, -, rfl⟩ := List.mem_map.1 hitem
    obtain hblank | ⟨item, hitem, h⟩ := mem_separated h
    · exact .inl (by simpa using hblank)
    · obtain ⟨byte, -, rfl⟩ := List.mem_map.1 hitem
      exact .inr (mem_pair h)

/-! ### The parts of a line -/

/-- What stands in front of the opening bar. -/
def lineFront (width : Nat) (address : Int) (row : Bytes) : List Char :=
  Layout.zeroHex 8 address ++
    ([' ', ' '] ++ Layout.padRight ' ' (groupsWidth width) (groups row) ++ [' ', ' '])

theorem canonicalLine_eq (width : Nat) (address : Int) (row : Bytes) :
    canonicalLine width address row =
      lineFront width address row ++ '|' :: (row.map visible ++ ['|']) := by
  simp [canonicalLine, lineFront]

section

variable {width : Nat} {address : Int} {row : Bytes} (hwidth : 0 < width)
  (haddress : 0 ≤ address ∧ address < 2 ^ 32) (hrow : row.length ≤ width)

include haddress

theorem zeroHex_address : Layout.zeroHex 8 address = Hex.fixed 8 address.toNat :=
  Hex.zeroHex_eq_fixed haddress.1 haddress.2

theorem mem_lineFront {c : Char} (h : c ∈ lineFront width address row) :
    c = ' ' ∨ Hex.IsLowerDigit c := by
  rw [lineFront, zeroHex_address haddress, Layout.padRight] at h
  simp only [List.mem_append] at h
  obtain hdigit | (hblank | hpair | hfill) | hblank := h
  · exact .inr (Hex.isLowerDigit_of_mem_fixed hdigit)
  · exact .inl (by simpa using hblank)
  · exact mem_groups hpair
  · exact .inl (List.eq_of_mem_replicate hfill)
  · exact .inl (by simpa using hblank)

theorem take_lineFront : (lineFront width address row).take 8 = Hex.fixed 8 address.toNat := by
  rw [lineFront, zeroHex_address haddress]
  exact List.take_left' (Hex.length_fixed 8 _)

/-- In front of the bar, only the pairs are left behind the address. -/
theorem readsAs_lineFront : ReadsAs ((lineFront width address row).drop 8) row := by
  have hpairs := ((ReadsAs.blanks 2).append ((readsAs_groups row).append
    (ReadsAs.blanks (groupsWidth width - (groups row).length)))).append (ReadsAs.blanks 2)
  rw [List.append_nil, List.append_nil, List.nil_append] at hpairs
  rw [lineFront, zeroHex_address haddress, List.drop_left' (Hex.length_fixed 8 _)]
  exact hpairs

include hwidth hrow

/-- A short row is filled up to the columns of a full one. -/
theorem length_lineFront : (lineFront width address row).length = barColumn width := by
  have hfill := groupsWidth_mono hrow
  rw [lineFront, zeroHex_address haddress, Layout.padRight]
  simp only [List.length_append, Hex.length_fixed, length_groups, List.length_replicate,
    List.length_cons, List.length_nil]
  rw [barColumn]
  have hcolumns : groupsWidth width = width * 3 - 1 + (width - 1) / 8 := rfl
  omega

theorem pairColumns_canonicalLine :
    pairColumns width (canonicalLine width address row) =
      (lineFront width address row).drop 8 := by
  rw [pairColumns, canonicalLine_eq, List.take_left' (length_lineFront hwidth haddress hrow)]

theorem isDumpLine_canonicalLine :
    IsDumpLine width address row (canonicalLine width address row) := by
  have hlength := length_lineFront hwidth haddress hrow
  have htake : (canonicalLine width address row).take 8 = Hex.fixed 8 address.toNat := by
    rw [canonicalLine_eq, List.take_append_of_le_length, take_lineFront haddress]
    rw [hlength, barColumn]
    omega
  have hfront {c : Char} (hc : ¬ (c = ' ' ∨ Hex.IsLowerDigit c)) :
      c ∉ lineFront width address row := fun hmem ↦ hc (mem_lineFront haddress hmem)
  refine ⟨?_, ?_, ?_, ⟨row.map visible, ?_, ?_⟩, ?_, ?_⟩
  · rw [htake]
    exact ⟨Hex.length_fixed 8 _, fun c hc ↦ Hex.isLowerDigit_of_mem_fixed hc⟩
  · -- eight digits leave nothing of the address out
    have hsmall : address.toNat % 16 ^ 8 = address.toNat := Nat.mod_eq_of_lt (by omega)
    rw [htake, Hex.number?_fixed, hsmall]
    exact congrArg some (Int.toNat_of_nonneg haddress.1)
  · have hnone : (lineFront width address row).findIdx? (· == '|') = none := by
      rw [List.findIdx?_eq_none_iff]
      intro c hc
      rw [beq_eq_false_iff_ne]
      rintro rfl
      exact hfront (by decide) hc
    rw [canonicalLine_eq, List.findIdx?_append, hnone, ← hlength, List.findIdx?_cons]
    simp
  · rw [canonicalLine_eq, ← hlength, List.drop_append]
    simp
  · exact List.forall₂_map_right_iff.2 (List.forall₂_same.2 fun byte _ ↦ isShownAs_visible byte)
  · rw [pairColumns_canonicalLine hwidth haddress hrow]
    exact (readsAs_lineFront haddress).readPairs_eq
  · rw [canonicalLine_eq]
    simp only [List.mem_append, List.mem_cons, List.mem_map, not_or]
    refine ⟨hfront (by decide), by decide, ?_, by decide, List.not_mem_nil⟩
    rintro ⟨byte, -, hfeed⟩
    exact (isShownAs_visible byte).ne_feed hfeed

end

/-! ### The dump -/

/-- The lines of a dump. -/
def dumpLines (width : Nat) (address : Int) (data : Bytes) : List (List Char) :=
  (chunks width data).mapIdx fun index row ↦ canonicalLine width (address + width * index) row

/-- If a part of every line is read as its row, these parts in a row are read as all rows. -/
theorem ReadsAs.flatMap_mapIdx {line : Nat → Bytes → List Char} {part : List Char → List Char}
    {rows : List Bytes}
    (h : ∀ index row, rows[index]? = some row → ReadsAs (part (line index row)) row) :
    ReadsAs ((rows.mapIdx line).flatMap part) rows.flatten := by
  induction rows generalizing line with
  | nil => exact ReadsAs.nil
  | cons row rows ih =>
    rw [List.mapIdx_cons, List.flatMap_cons, List.flatten_cons]
    exact (h 0 row rfl).append (ih fun index next hnext ↦ h (index + 1) next hnext)

section

variable {width : Nat} {address : Int} {data : Bytes} (hwidth : 0 < width)
  (haddress : ∀ index < rowCount width data.length,
    0 ≤ address + width * index ∧ address + width * index < 2 ^ 32)

include hwidth haddress

/-- A row is not wider than a line, its address fits, and its bytes stand where its number says. -/
theorem row_of_getElem? {index : Nat} {row : Bytes} (h : (chunks width data)[index]? = some row) :
    (0 ≤ address + width * index ∧ address + width * index < 2 ^ 32) ∧ row.length ≤ width ∧
      row = (data.drop (index * width)).take width := by
  rw [getElem?_chunks hwidth] at h
  split at h
  · rename_i hlt
    obtain rfl := Option.some.inj h
    exact ⟨haddress index ((lt_rowCount_iff hwidth).2 hlt), List.length_take_le _ _, rfl⟩
  · cases h

theorem isDump_dumpLines : IsDump width address data (dumpLines width address data) := by
  refine ⟨?_, fun index line hline ↦ ?_, ?_⟩
  · rw [dumpLines, List.length_mapIdx, length_chunks hwidth]
  · rw [dumpLines, List.getElem?_mapIdx, Option.map_eq_some_iff] at hline
    obtain ⟨row, hindex, rfl⟩ := hline
    obtain ⟨hfits, hrow, hbytes⟩ := row_of_getElem? hwidth haddress hindex
    rw [← hbytes]
    exact isDumpLine_canonicalLine hwidth hfits hrow
  · have hrows : ReadsAs ((dumpLines width address data).flatMap (pairColumns width))
        (chunks width data).flatten := by
      refine ReadsAs.flatMap_mapIdx fun index row hindex ↦ ?_
      obtain ⟨hfits, hrow, -⟩ := row_of_getElem? hwidth haddress hindex
      rw [pairColumns_canonicalLine hwidth hfits hrow]
      exact readsAs_lineFront hfits
    rw [hrows.readPairs_eq, flatten_chunks hwidth]

end

/-- Lines as they are printed. -/
def printedLines (lines : List (List Char)) : String :=
  String.ofList (lines.flatMap (· ++ ['\n']))

/-- A dump that there is room for is printed. -/
theorem canonical_of_le (room : Room) {width : Int} (hwidth : 1 ≤ width) (address : Int)
    {data : Bytes} (hfits : data = [] ∨ groupsWidth width.toNat ≤ room.columns) :
    canonical room data address width =
      .ok (printedLines (dumpLines width.toNat address data)) := by
  have hrows : rows data width = .ok (chunks width.toNat data) :=
    if_neg (Int.not_lt.2 hwidth)
  have hcheck : checkColumns room (chunks width.toNat data) (groupsWidth width.toNat) =
      .ok () := by
    rcases hfits with rfl | hfits
    · rw [chunks_nil]
      rfl
    · -- what there is room for can be counted
      have hcounted : ¬ maxColumns < groupsWidth width.toNat :=
        Nat.not_lt.2 (Nat.le_trans hfits room.columns_le)
      rw [checkColumns, if_neg hcounted, if_neg (Nat.not_lt.2 hfits), ite_self]
  have hcast : (width.toNat : Int) = width := Int.toNat_of_nonneg (by omega)
  rw [canonical, canonicalLines, hrows]
  show (checkColumns room (chunks width.toNat data) (groupsWidth width.toNat) >>= fun _ ↦
    Except.ok ((chunks width.toNat data).mapIdx fun index row ↦
      canonicalLine width.toNat (address + width * index) row)) >>= _ = _
  rw [hcheck, dumpLines, hcast]
  rfl

/-- No line is printed that there is no room for. -/
theorem canonical_of_lt (room : Room) {width : Int} (hwidth : 1 ≤ width) (address : Int)
    {data : Bytes} (hdata : data ≠ []) (hfits : room.columns < groupsWidth width.toNat) :
    canonical room data address width =
      .error (if maxColumns < groupsWidth width.toNat then .tooManyColumns else .outOfMemory) := by
  have hrows : rows data width = .ok (chunks width.toNat data) :=
    if_neg (Int.not_lt.2 hwidth)
  have hsome : (chunks width.toNat data).isEmpty = false := by
    rw [chunks_of_ne_nil (by omega) hdata]
    rfl
  have hcheck : checkColumns room (chunks width.toNat data) (groupsWidth width.toNat) =
      .error (if maxColumns < groupsWidth width.toNat then .tooManyColumns else .outOfMemory) := by
    rw [checkColumns, hsome, if_pos hfits]
    exact (apply_ite Except.error _ _ _).symm
  rw [canonical, canonicalLines, hrows]
  show (checkColumns room (chunks width.toNat data) (groupsWidth width.toNat) >>= fun _ ↦ _) >>= _ =
    _
  rw [hcheck]
  rfl

/-- Whatever the room for a line, a dump whose addresses have eight digits is aligned, and the data
can be read back from it, if there is room for its lines or there are none. Otherwise there is no
dump: a line that cannot be counted and one that cannot be stored are told apart. -/
theorem canonical_lossless (room : Room) {data : Bytes} {address width : Int} (hwidth : 1 ≤ width)
    (haddress : ∀ index < rowCount width.toNat data.length,
      0 ≤ address + width * index ∧ address + width * index < 2 ^ 32) :
    (data = [] ∨ groupsWidth width.toNat ≤ room.columns →
      ∃ lines, canonical room data address width = .ok (printedLines lines) ∧
        IsDump width.toNat address data lines) ∧
    (data ≠ [] → room.columns < groupsWidth width.toNat →
      canonical room data address width = .error
        (if 2 ^ 63 - 1 < groupsWidth width.toNat then .tooManyColumns else .outOfMemory)) := by
  have hcast : (width.toNat : Int) = width := Int.toNat_of_nonneg (by omega)
  refine ⟨fun hfits ↦ ⟨_, canonical_of_le room hwidth address hfits, ?_⟩,
    canonical_of_lt room hwidth address⟩
  exact isDump_dumpLines (by omega) (by rwa [hcast])

/-- Ten bytes in lines of nine, the last of which is short and has one group less. The pairs of a
line take 27 columns, and there is room for just as many. -/
theorem canonical_lossless_sample :
    canonical ⟨27, by decide⟩ [0x41, 0, 0x7C, 0x7E, 0x7F, 0x20, 0x21, 7, 8, 0xFF] 0xFFF8 9 =
      .ok ("0000fff8  41 00 7c 7e 7f 20 21 07  08  |A.|~..!..|\n" ++
        "00010001  ff                           |.|\n") ∧
    ∃ lines,
      canonical ⟨27, by decide⟩ [0x41, 0, 0x7C, 0x7E, 0x7F, 0x20, 0x21, 7, 8, 0xFF] 0xFFF8 9 =
        .ok (printedLines lines) ∧
      IsDump 9 0xFFF8 [0x41, 0, 0x7C, 0x7E, 0x7F, 0x20, 0x21, 7, 8, 0xFF] lines := by
  refine ⟨by decide +kernel,
    (canonical_lossless ⟨27, by decide⟩ (by decide) fun index hindex ↦ ?_).1 (.inr (by decide))⟩
  have hlt : index < 2 := hindex
  omega

/-- One byte has one line, at address zero. However much room there is, the line is not printed if
it would be wider than any text can be, or wider than the room. -/
theorem canonical_refuses_wide :
    (rowCount (2 ^ 62) 1 = 1 ∧
      ∀ room, canonical room [0x41] 0 (2 ^ 62) = .error .tooManyColumns) ∧
    rowCount (2 ^ 60) 1 = 1 ∧
      ∀ room : Room, room.columns < groupsWidth (2 ^ 60) →
        canonical room [0x41] 0 (2 ^ 60) = .error .outOfMemory := by
  refine ⟨⟨by decide, fun room ↦ ?_⟩, by decide, fun room hroom ↦ ?_⟩
  · have hlt : room.columns < groupsWidth (2 ^ 62) :=
      Nat.lt_of_le_of_lt room.columns_le (by decide)
    exact canonical_of_lt room (by decide) 0 (List.cons_ne_nil _ _) hlt
  · exact canonical_of_lt room (by decide) 0 (List.cons_ne_nil _ _) hroom

end HexDump

end ClassInspect
