import ClassInspect.HexDump

/-!
# Digit pairs, read back

Both listings of bytes can be read back by a reader that knows nothing of how they are laid out
(`HexDump.readPairs`): it passes over blanks and line feeds, and takes two digits for a byte.
`HexDump.ReadsAs` says what a text is read as wherever it stands in front of other text. This is
kept by all the ways in which a listing is put together, so a listing is followed from its pairs up.

The rows of a listing are pieces of the data. Row number `index` starts at `index * size`
(`HexDump.getElem?_chunks`), so nothing is lost between them and only the last may be short.
-/

namespace ClassInspect

/-! ### Digits -/

namespace Hex

/-- A digit in upper case. -/
def IsUpperDigit (c : Char) : Prop :=
  '0' ≤ c ∧ c ≤ '9' ∨ 'A' ≤ c ∧ c ≤ 'F'

/-- A digit in lower case. -/
def IsLowerDigit (c : Char) : Prop :=
  '0' ≤ c ∧ c ≤ '9' ∨ 'a' ≤ c ∧ c ≤ 'f'

instance : DecidablePred IsUpperDigit := fun c ↦
  inferInstanceAs (Decidable ('0' ≤ c ∧ c ≤ '9' ∨ 'A' ≤ c ∧ c ≤ 'F'))

instance : DecidablePred IsLowerDigit := fun c ↦
  inferInstanceAs (Decidable ('0' ≤ c ∧ c ≤ '9' ∨ 'a' ≤ c ∧ c ≤ 'f'))

/-- The number that a digit stands for, in either case. -/
def value? (c : Char) : Option Nat :=
  if '0' ≤ c ∧ c ≤ '9' then some (c.toNat - 48)
  else if 'A' ≤ c ∧ c ≤ 'F' then some (c.toNat - 55)
  else if 'a' ≤ c ∧ c ≤ 'f' then some (c.toNat - 87)
  else none

theorem value?_digit : ∀ value < 16, value? (digit value) = some value := by
  decide

theorem value?_upperDigit : ∀ value < 16, value? (upperDigit value) = some value := by
  decide

theorem isLowerDigit_digit : ∀ value < 16, IsLowerDigit (digit value) := by
  decide

theorem isUpperDigit_upperDigit : ∀ value < 16, IsUpperDigit (upperDigit value) := by
  decide

/-- The two digits of a byte are those of numbers below sixteen. -/
theorem halves_lt (byte : UInt8) : byte.toNat / 16 < 16 ∧ byte.toNat % 16 < 16 := by
  have := byte.toNat_lt
  omega

end Hex

namespace HexDump

/-! ### Pairs -/

/-- The bytes of digit pairs, with blanks and line feeds anywhere between the pairs. -/
def readPairs : List Char → Option Bytes
  | [] => some []
  | c :: rest =>
    if c = ' ' ∨ c = '\n' then readPairs rest
    else
      match rest with
      | [] => none
      | d :: rest =>
        match Hex.value? c, Hex.value? d with
        | some high, some low => (readPairs rest).map (UInt8.ofNat (high * 16 + low) :: ·)
        | _, _ => none

theorem readPairs_blank {c : Char} (h : c = ' ' ∨ c = '\n') (rest : List Char) :
    readPairs (c :: rest) = readPairs rest := by
  rw [readPairs.eq_def]
  exact if_pos h

theorem readPairs_digits {a b : Char} {high low : Nat} (ha : Hex.value? a = some high)
    (hb : Hex.value? b = some low) (rest : List Char) :
    readPairs (a :: b :: rest) =
      (readPairs rest).map (UInt8.ofNat (high * 16 + low) :: ·) := by
  have hdigit : ¬ (a = ' ' ∨ a = '\n') := by
    rintro (rfl | rfl)
    · cases ha
    · cases ha
  rw [readPairs.eq_def]
  simp only [if_neg hdigit, ha, hb]

/-- Whatever follows it, a text is read as the given bytes. -/
def ReadsAs (text : List Char) (data : Bytes) : Prop :=
  ∀ rest, readPairs (text ++ rest) = (readPairs rest).map (data ++ ·)

namespace ReadsAs

variable {text text' : List Char} {data data' : Bytes}

theorem nil : ReadsAs [] [] := fun rest ↦ by
  show readPairs rest = _
  simp

theorem append (h : ReadsAs text data) (h' : ReadsAs text' data') :
    ReadsAs (text ++ text') (data ++ data') := by
  intro rest
  rw [List.append_assoc, h, h', Option.map_map]
  refine congrArg (Option.map · (readPairs rest)) (funext fun bytes ↦ ?_)
  exact (List.append_assoc data data' bytes).symm

theorem readPairs_eq (h : ReadsAs text data) : readPairs text = some data := by
  have hread := h []
  rw [List.append_nil] at hread
  rw [hread]
  show some (data ++ []) = some data
  rw [List.append_nil]

/-- Blanks and line feeds are passed over. -/
theorem of_blank (h : ∀ c ∈ text, c = ' ' ∨ c = '\n') : ReadsAs text [] := by
  induction text with
  | nil => exact nil
  | cons c text ih =>
    obtain ⟨hc, htext⟩ := List.forall_mem_cons.1 h
    intro rest
    rw [List.cons_append, readPairs_blank hc]
    exact ih htext rest

theorem blanks (count : Nat) : ReadsAs (List.replicate count ' ') [] :=
  of_blank fun _ hc ↦ .inl (List.eq_of_mem_replicate hc)

/-- Two digits are the byte of which they are the halves. -/
theorem of_digits {a b : Char} {byte : UInt8} (ha : Hex.value? a = some (byte.toNat / 16))
    (hb : Hex.value? b = some (byte.toNat % 16)) : ReadsAs [a, b] [byte] := by
  have hbyte : UInt8.ofNat (byte.toNat / 16 * 16 + byte.toNat % 16) = byte := by
    rw [Nat.div_add_mod', UInt8.ofNat_toNat]
  intro rest
  have hread := readPairs_digits ha hb rest
  rwa [hbyte] at hread

theorem pair (byte : UInt8) : ReadsAs (Hex.pair byte) [byte] :=
  of_digits (Hex.value?_digit _ (Hex.halves_lt byte).1) (Hex.value?_digit _ (Hex.halves_lt byte).2)

theorem upperPair (byte : UInt8) : ReadsAs (Hex.upperPair byte) [byte] :=
  of_digits (Hex.value?_upperDigit _ (Hex.halves_lt byte).1)
    (Hex.value?_upperDigit _ (Hex.halves_lt byte).2)

/-- Items in a row are read as the bytes of all of them, if what separates them is passed over. -/
theorem separated {α : Type} {separator : List Char} (hseparator : ReadsAs separator [])
    {write : α → List Char} {bytes : α → Bytes} (items : List α)
    (h : ∀ item ∈ items, ReadsAs (write item) (bytes item)) :
    ReadsAs (HexDump.separated separator (items.map write)) (items.flatMap bytes) := by
  induction items with
  | nil => exact nil
  | cons item items ih =>
    obtain ⟨hitem, hitems⟩ := List.forall_mem_cons.1 h
    rw [List.flatMap_cons]
    match items with
    | [] =>
      rw [List.flatMap_nil, List.append_nil]
      exact hitem
    | next :: items =>
      have hfront : ReadsAs (write item ++ separator) (bytes item) := by
        have hboth := hitem.append hseparator
        rwa [List.append_nil] at hboth
      exact hfront.append (ih hitems)

end ReadsAs

/-! ### Separators -/

theorem separated_eq_intercalate (separator : List Char) (items : List (List Char)) :
    separated separator items = separator.intercalate items := by
  induction items with
  | nil => rfl
  | cons item items ih =>
    match items with
    | [] => exact List.intercalate_singleton.symm
    | next :: items =>
      rw [List.intercalate_cons_cons, ← ih]
      rfl

/-- Every character belongs to an item or to a separator. -/
theorem mem_separated {separator : List Char} {items : List (List Char)} {c : Char}
    (h : c ∈ separated separator items) : c ∈ separator ∨ ∃ item ∈ items, c ∈ item := by
  induction items with
  | nil => cases h
  | cons item items ih =>
    match items with
    | [] => exact .inr ⟨item, .head _, h⟩
    | next :: items =>
      change c ∈ item ++ separator ++ separated separator (next :: items) at h
      rw [List.append_assoc, List.mem_append, List.mem_append] at h
      obtain h | h | h := h
      · exact .inr ⟨item, .head _, h⟩
      · exact .inl h
      · obtain h | ⟨other, hother, h⟩ := ih h
        · exact .inl h
        · exact .inr ⟨other, .tail _ hother, h⟩

/-- Behind items that are not empty, the last character is that of one of them. -/
theorem exists_getLast?_separated (separator : List Char) {items : List (List Char)}
    (hitems : items ≠ []) (h : ∀ item ∈ items, item ≠ []) :
    ∃ item ∈ items, (separated separator items).getLast? = item.getLast? := by
  induction items with
  | nil => exact absurd rfl hitems
  | cons item items ih =>
    match items with
    | [] => exact ⟨item, .head _, rfl⟩
    | next :: items =>
      obtain ⟨-, hrest⟩ := List.forall_mem_cons.1 h
      obtain ⟨other, hother, hlast⟩ := ih (List.cons_ne_nil _ _) hrest
      refine ⟨other, .tail _ hother, ?_⟩
      show (item ++ separator ++ separated separator (next :: items)).getLast? = _
      rw [List.getLast?_append, hlast, List.getLast?_eq_some_getLast (hrest other hother)]
      rfl

/-! ### Rows -/

section Rows

variable {α : Type} {size : Nat}

theorem chunks_nil : chunks size ([] : List α) = [] := by
  rw [chunks_eq, if_pos (.inr rfl)]

theorem chunks_of_ne_nil (hsize : 0 < size) {items : List α} (h : items ≠ []) :
    chunks size items = items.take size :: chunks size (items.drop size) := by
  rw [chunks_eq, if_neg (not_or.2 ⟨Nat.ne_of_gt hsize, h⟩)]

/-- What holds of no items, and of items if it holds behind their first piece, holds of all. -/
theorem chunks_induction (hsize : 0 < size) {motive : List α → Prop} (nil : motive [])
    (step : ∀ items, items ≠ [] → motive (items.drop size) → motive items) (items : List α) :
    motive items := by
  induction hlength : items.length using Nat.strongRecOn generalizing items with
  | ind length ih =>
    by_cases hitems : items = []
    · rw [hitems]
      exact nil
    · have hpos : 0 < items.length := List.length_pos_iff.2 hitems
      refine step items hitems (ih _ ?_ _ rfl)
      rw [List.length_drop]
      omega

/-- The pieces in a row are the whole. -/
theorem flatten_chunks (hsize : 0 < size) (items : List α) :
    (chunks size items).flatten = items := by
  induction items using chunks_induction hsize with
  | nil => rw [chunks_nil, List.flatten_nil]
  | step items hitems ih =>
    rw [chunks_of_ne_nil hsize hitems, List.flatten_cons, ih, List.take_append_drop]

/-- No piece is empty. -/
theorem ne_nil_of_mem_chunks (hsize : 0 < size) {items piece : List α}
    (h : piece ∈ chunks size items) : piece ≠ [] := by
  induction items using chunks_induction hsize with
  | nil =>
    rw [chunks_nil] at h
    cases h
  | step items hitems ih =>
    rw [chunks_of_ne_nil hsize hitems, List.mem_cons] at h
    obtain rfl | h := h
    · exact fun htake ↦ (List.take_eq_nil_iff.1 htake).elim (Nat.ne_of_gt hsize) hitems
    · exact ih h

/-- A piece is where its number says. -/
theorem getElem?_chunks (hsize : 0 < size) (items : List α) (index : Nat) :
    (chunks size items)[index]? =
      if index * size < items.length then some ((items.drop (index * size)).take size)
      else none := by
  induction items using chunks_induction hsize generalizing index with
  | nil => simp [chunks_nil]
  | step items hitems ih =>
    rw [chunks_of_ne_nil hsize hitems]
    match index with
    | 0 => simp [List.length_pos_iff.2 hitems]
    | index + 1 =>
      have hstart : (index + 1) * size = size + index * size := by
        rw [Nat.succ_mul, Nat.add_comm]
      rw [List.getElem?_cons_succ, ih, List.length_drop, List.drop_drop, hstart]
      congr 1
      exact propext (by omega)

/-- The number of rows for some bytes: their number by the size of a row, rounded up. -/
def rowCount (size length : Nat) : Nat :=
  (length + size - 1) / size

theorem lt_rowCount_iff (hsize : 0 < size) {index length : Nat} :
    index < rowCount size length ↔ index * size < length := by
  rw [rowCount, Nat.lt_iff_add_one_le, Nat.le_div_iff_mul_le hsize, Nat.succ_mul]
  omega

theorem length_chunks (hsize : 0 < size) (items : List α) :
    (chunks size items).length = rowCount size items.length := by
  -- the numbers that no piece has are those from the number of rows on
  have hend (index : Nat) :
      (chunks size items).length ≤ index ↔ rowCount size items.length ≤ index := by
    rw [← List.getElem?_eq_none_iff, getElem?_chunks hsize, ← Nat.not_lt, lt_rowCount_iff hsize]
    simp
  exact Nat.le_antisymm ((hend _).2 (Nat.le_refl _)) ((hend _).1 (Nat.le_refl _))

end Rows

end HexDump

end ClassInspect
