import Mathlib.Control.Monad.Basic
import ClassInspect.Proofs.HexDump.Pairs

/-!
# The plain listing of bytes

A listing has a line for each row, and the lines are looked for in its text: they are what stands
between the line feeds (`HexDump.linesOf`). Every line is full but for the last, which has the
pairs that are left, and the pairs of all lines are the data (`HexDump.IsListing`). So the data can
be recovered from the text without knowing the width.
-/

namespace ClassInspect.HexDump

/-! ### Lines -/

/-- The lines of a text: none if it is empty, and else what stands between the line feeds. -/
def linesOf (text : String) : List (List Char) :=
  if text = "" then [] else text.toList.splitOn '\n'

/-- A line of `count` pairs of digits in upper case, with a single blank between neighbours. -/
def IsPlainLine (count : Nat) (line : List Char) : Prop :=
  ∃ pairs : List (Char × Char), pairs.length = count ∧
    (∀ pair ∈ pairs, Hex.IsUpperDigit pair.1 ∧ Hex.IsUpperDigit pair.2) ∧
    line = [' '].intercalate (pairs.map fun pair ↦ [pair.1, pair.2])

/-- A text lists data in lines of a given width. -/
structure IsListing (width : Nat) (data : Bytes) (text : String) : Prop where
  /-- There are as many lines as rows. -/
  count : (linesOf text).length = rowCount width data.length
  /-- Without data there is no text. -/
  empty : data = [] → text = ""
  /-- There is no line feed behind the last line. -/
  noFeed : text.toList.getLast? ≠ some '\n'
  /-- Every line but the last is full. -/
  full : ∀ index line, (linesOf text)[index]? = some line → index + 1 < (linesOf text).length →
    IsPlainLine width line
  /-- The last line has what is left, which is at least one pair and not more than a full line. -/
  last : ∀ index line, (linesOf text)[index]? = some line → index + 1 = (linesOf text).length →
    IsPlainLine (data.length - index * width) line ∧
      1 ≤ data.length - index * width ∧ data.length - index * width ≤ width
  /-- The pairs are the data. -/
  pairs : readPairs text.toList = some data

theorem isPlainLine_plainLine (row : Bytes) : IsPlainLine row.length (plainLine row) := by
  refine ⟨row.map fun byte ↦
    (Hex.upperDigit (byte.toNat / 16), Hex.upperDigit (byte.toNat % 16)), List.length_map _, ?_, ?_⟩
  · intro pair hpair
    obtain ⟨byte, -, rfl⟩ := List.mem_map.1 hpair
    have hhalves := Hex.halves_lt byte
    exact ⟨Hex.isUpperDigit_upperDigit _ hhalves.1, Hex.isUpperDigit_upperDigit _ hhalves.2⟩
  · rw [plainLine, separated_eq_intercalate, List.map_map]
    rfl

theorem readsAs_plainLine (row : Bytes) : ReadsAs (plainLine row) row := by
  have hrow := ReadsAs.separated (ReadsAs.blanks 1) row fun byte _ ↦
    ReadsAs.upperPair byte
  rwa [List.flatMap_singleton'] at hrow

/-- A line has digits and blanks only. -/
theorem feed_not_mem_plainLine (row : Bytes) : '\n' ∉ plainLine row := by
  intro hmem
  obtain hblank | ⟨item, hitem, hmem⟩ := mem_separated hmem
  · exact absurd hblank (by decide)
  · obtain ⟨byte, -, rfl⟩ := List.mem_map.1 hitem
    have hhalves := Hex.halves_lt byte
    have hdigit : Hex.IsUpperDigit '\n' := by
      obtain hfeed | hfeed : '\n' = _ ∨ '\n' = _ := by simpa [Hex.upperPair] using hmem
      · exact hfeed ▸ Hex.isUpperDigit_upperDigit _ hhalves.1
      · exact hfeed ▸ Hex.isUpperDigit_upperDigit _ hhalves.2
    exact absurd hdigit (by decide)

theorem plainLine_ne_nil {row : Bytes} (h : row ≠ []) : plainLine row ≠ [] := by
  intro hline
  have hread := (readsAs_plainLine row).readPairs_eq
  rw [hline] at hread
  exact h (Option.some.inj hread).symm

/-! ### The text -/

/-- The characters of a listing. -/
def listingChars (width : Nat) (data : Bytes) : List Char :=
  separated ['\n'] ((chunks width data).map plainLine)

theorem listing_of_lt {width : Int} (h : width < 1) (data : Bytes) :
    listing data width = .error (.chunkSize width) := by
  rw [listing, rows, if_pos h]
  rfl

theorem listing_of_le {width : Int} (h : 1 ≤ width) (data : Bytes) :
    listing data width = .ok (String.ofList (listingChars width.toNat data)) := by
  have htext : "\n".intercalate ((chunks width.toNat data).map fun row ↦
      String.ofList (plainLine row)) = String.ofList (listingChars width.toNat data) := by
    have hlines : (chunks width.toNat data).map
        (String.toList ∘ fun row ↦ String.ofList (plainLine row)) =
          (chunks width.toNat data).map plainLine :=
      List.map_congr_left fun _ _ ↦ String.toList_ofList
    rw [← String.toList_inj, String.toList_intercalate, List.map_map, hlines, listingChars,
      separated_eq_intercalate]
    exact String.toList_ofList.symm
  rw [listing, rows, if_neg (Int.not_lt.2 h), ← htext]
  rfl

section

variable {width : Nat} (hwidth : 0 < width) (data : Bytes)

include hwidth

theorem readsAs_listingChars : ReadsAs (listingChars width data) data := by
  have hfeed : ReadsAs ['\n'] [] := ReadsAs.of_blank fun c hc ↦ .inr (List.mem_singleton.1 hc)
  have hrows := hfeed.separated (chunks width data) fun row _ ↦ readsAs_plainLine row
  rwa [List.flatMap_id', flatten_chunks hwidth] at hrows

/-- The lines in the text are those it was put together from. -/
theorem linesOf_listingChars :
    linesOf (String.ofList (listingChars width data)) = (chunks width data).map plainLine := by
  by_cases hdata : data = []
  · rw [hdata, listingChars, chunks_nil]
    rfl
  · have hchars : listingChars width data ≠ [] := by
      intro hnil
      have hread := (readsAs_listingChars hwidth data).readPairs_eq
      rw [hnil] at hread
      exact hdata (Option.some.inj hread).symm
    have hlines : (chunks width data).map plainLine ≠ [] := by
      rw [chunks_of_ne_nil hwidth hdata]
      exact List.cons_ne_nil _ _
    have htext : String.ofList (listingChars width data) ≠ "" := fun h ↦
      hchars (String.ofList_eq_empty_iff.1 h)
    rw [linesOf, if_neg htext, String.toList_ofList, listingChars, separated_eq_intercalate]
    refine List.splitOn_intercalate '\n' (fun line hline ↦ ?_) hlines
    obtain ⟨row, -, rfl⟩ := List.mem_map.1 hline
    exact feed_not_mem_plainLine row

/-- The lines are numbered as the rows are. -/
theorem getElem?_linesOf {index : Nat} {line : List Char}
    (h : (linesOf (String.ofList (listingChars width data)))[index]? = some line) :
    index * width < data.length ∧
      IsPlainLine (min width (data.length - index * width)) line := by
  rw [linesOf_listingChars hwidth, List.getElem?_map, Option.map_eq_some_iff] at h
  obtain ⟨row, hrow, rfl⟩ := h
  rw [getElem?_chunks hwidth] at hrow
  split at hrow
  · rename_i hlt
    obtain rfl := Option.some.inj hrow
    have hline := isPlainLine_plainLine ((data.drop (index * width)).take width)
    rw [List.length_take, List.length_drop] at hline
    exact ⟨hlt, hline⟩
  · cases hrow

theorem getLast?_listingChars : (listingChars width data).getLast? ≠ some '\n' := by
  by_cases hdata : data = []
  · rw [hdata, listingChars, chunks_nil]
    exact fun hfeed ↦ by cases hfeed
  · have hlines : (chunks width data).map plainLine ≠ [] := by
      rw [chunks_of_ne_nil hwidth hdata]
      exact List.cons_ne_nil _ _
    have hne : ∀ line ∈ (chunks width data).map plainLine, line ≠ [] := by
      intro line hline
      obtain ⟨row, hrow, rfl⟩ := List.mem_map.1 hline
      exact plainLine_ne_nil (ne_nil_of_mem_chunks hwidth hrow)
    obtain ⟨line, hline, hlast⟩ := exists_getLast?_separated ['\n'] hlines hne
    obtain ⟨row, -, rfl⟩ := List.mem_map.1 hline
    rw [listingChars, hlast]
    exact fun hfeed ↦ feed_not_mem_plainLine row (List.mem_of_getLast? hfeed)

theorem isListing_listingChars :
    IsListing width data (String.ofList (listingChars width data)) := by
  have hread := (readsAs_listingChars hwidth data).readPairs_eq
  have hcount : (linesOf (String.ofList (listingChars width data))).length =
      rowCount width data.length := by
    rw [linesOf_listingChars hwidth, List.length_map, length_chunks hwidth]
  refine ⟨hcount, ?_, ?_, ?_, ?_, ?_⟩
  · rintro rfl
    rw [listingChars, chunks_nil]
    rfl
  · rw [String.toList_ofList]
    exact getLast?_listingChars hwidth data
  · intro index line hline hindex
    obtain ⟨-, hplain⟩ := getElem?_linesOf hwidth data hline
    rw [hcount, lt_rowCount_iff hwidth, Nat.succ_mul] at hindex
    rwa [Nat.min_eq_left (by omega)] at hplain
  · intro index line hline hindex
    obtain ⟨hlt, hplain⟩ := getElem?_linesOf hwidth data hline
    have hnext : ¬ index + 1 < rowCount width data.length := by omega
    rw [lt_rowCount_iff hwidth, Nat.succ_mul] at hnext
    rw [Nat.min_eq_right (by omega)] at hplain
    exact ⟨hplain, by omega, by omega⟩
  · rw [String.toList_ofList]
    exact hread

end

/-- A width below one is refused, also for no data. At any other width, a listing has the lines of
its data, the data can be read back from it, and no other data have the same listing. -/
theorem listing_lossless (data : Bytes) (width : Int) :
    (width < 1 → listing data width = .error (.chunkSize width)) ∧
    (1 ≤ width →
      (∃ text, listing data width = .ok text ∧ IsListing width.toNat data text) ∧
      ∀ data', listing data' width = listing data width → data' = data) := by
  refine ⟨fun hwidth ↦ listing_of_lt hwidth data, fun hwidth ↦ ⟨?_, fun data' hsame ↦ ?_⟩⟩
  · exact ⟨_, listing_of_le hwidth data, isListing_listingChars (by omega) data⟩
  · have hpos : 0 < width.toNat := by omega
    rw [listing_of_le hwidth, listing_of_le hwidth, Except.ok.injEq] at hsame
    have hread := (isListing_listingChars hpos data').pairs
    rw [hsame, (isListing_listingChars hpos data).pairs] at hread
    exact (Option.some.inj hread).symm

/-- Ten bytes in lines of four: two full lines and one of two pairs. -/
theorem listing_lossless_sample :
    listing [] 0 = .error (.chunkSize 0) ∧
    listing [0, 1, 2, 3, 4, 5, 6, 7, 0xFE, 0xFF] 4 = .ok "00 01 02 03\n04 05 06 07\nFE FF" ∧
    IsListing 4 [0, 1, 2, 3, 4, 5, 6, 7, 0xFE, 0xFF] "00 01 02 03\n04 05 06 07\nFE FF" := by
  have htext : listing [0, 1, 2, 3, 4, 5, 6, 7, 0xFE, 0xFF] 4 =
      .ok "00 01 02 03\n04 05 06 07\nFE FF" := by
    decide +kernel
  refine ⟨(listing_lossless [] 0).1 (by decide), htext, ?_⟩
  obtain ⟨⟨text, hlisting, htext'⟩, -⟩ :=
    (listing_lossless [0, 1, 2, 3, 4, 5, 6, 7, 0xFE, 0xFF] 4).2 (by decide)
  rw [htext, Except.ok.injEq] at hlisting
  rwa [hlisting]

end ClassInspect.HexDump
