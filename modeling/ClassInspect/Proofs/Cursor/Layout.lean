import ClassInspect.Proofs.ClassFile.Session
import ClassInspect.Proofs.Scan.Grammar

/-!
# Reading formats of whole numbers

A format is a sign for the byte order and a letter for each number (`IntegerLetter`). It is read
all or nothing: with too few bytes ahead for all of its letters the cursor stays where it is, and
else it moves behind all of them, although only the first one is answered.

What a letter answers is said here without reading: `ByteOrder.weigh` adds up bytes by their
weights, each order in its own way, and `IntegerLetter.value` takes the upper half of the range of
a signed letter down to the negative numbers.

The reads with names of their own, such as `Scan.i16`, are formats of a single letter. They take
back what the two's complement writes, on the whole range of the letter (`Scan.Undoes`).
-/

namespace ClassInspect

open Scan (run Concludes)

/-! ### Byte orders -/

/-- The base-256 number that starts with a byte. -/
theorem Bytes.toNat_cons (byte : UInt8) (bytes : Bytes) :
    toNat (byte :: bytes) = byte.toNat * 256 ^ bytes.length + toNat bytes := by
  induction bytes using List.reverseRecOn with
  | nil => simp [toNat]
  | append_singleton bytes last ih =>
    rw [← List.cons_append, toNat_concat, toNat_concat, ih, List.length_append,
      List.length_singleton, Nat.pow_succ, ← Nat.mul_assoc, Nat.add_mul, Nat.add_assoc]

namespace ByteOrder

/-- The sign of a byte order in a format. -/
def sign : ByteOrder → Char
  | mostSignificantFirst => '>'
  | leastSignificantFirst => '<'

/-- The number that bytes form in base 256, each byte with its weight. -/
def weigh : ByteOrder → Bytes → Nat
  | _, [] => 0
  | mostSignificantFirst, byte :: bytes =>
    byte.toNat * 256 ^ bytes.length + weigh mostSignificantFirst bytes
  | leastSignificantFirst, byte :: bytes =>
    byte.toNat + 256 * weigh leastSignificantFirst bytes

theorem number_eq_weigh (order : ByteOrder) (bytes : Bytes) :
    RecordLayout.number order bytes = order.weigh bytes := by
  cases order with
  | mostSignificantFirst =>
    induction bytes with
    | nil => rfl
    | cons byte bytes ih =>
      rw [weigh, ← ih]
      exact Bytes.toNat_cons byte bytes
  | leastSignificantFirst =>
    induction bytes with
    | nil => rfl
    | cons byte bytes ih =>
      rw [weigh, ← ih]
      show Bytes.toNat (byte :: bytes).reverse = byte.toNat + 256 * Bytes.toNat bytes.reverse
      rw [List.reverse_cons, Bytes.toNat_concat]
      omega

end ByteOrder

/-! ### Letters -/

/-- The letters of whole numbers: small ones for signed numbers, capital ones for unsigned
numbers. -/
inductive IntegerLetter where
  | b | B | h | H | i | I | q | Q
  deriving DecidableEq, Repr

namespace IntegerLetter

/-- The letter as it is written. -/
def char : IntegerLetter → Char
  | b => 'b'
  | B => 'B'
  | h => 'h'
  | H => 'H'
  | i => 'i'
  | I => 'I'
  | q => 'q'
  | Q => 'Q'

/-- The number of bytes of a letter. -/
def width : IntegerLetter → Nat
  | b | B => 1
  | h | H => 2
  | i | I => 4
  | q | Q => 8

/-- Whether the numbers of a letter have a sign. -/
def isSigned : IntegerLetter → Bool
  | b | h | i | q => true
  | B | H | I | Q => false

/-- The value of a letter whose bytes form the given number. -/
def value (letter : IntegerLetter) (number : Nat) : Int :=
  if letter.isSigned then
    if number < 2 ^ (8 * letter.width - 1) then number else number - 2 ^ (8 * letter.width)
  else number

/-- The least value of a letter. -/
def least (letter : IntegerLetter) : Int :=
  if letter.isSigned then -2 ^ (8 * letter.width - 1) else 0

/-- The least number above all values of a letter. -/
def bound (letter : IntegerLetter) : Int :=
  if letter.isSigned then 2 ^ (8 * letter.width - 1) else 2 ^ (8 * letter.width)

/-- The number of bytes of some letters. -/
def totalWidth : List IntegerLetter → Nat
  | [] => 0
  | letter :: letters => letter.width + totalWidth letters

/-- The letters behind the sign of a byte order. -/
def format (order : ByteOrder) (letters : List IntegerLetter) : String :=
  String.ofList (order.sign :: letters.map char)

/-- The field of a letter. -/
def field (letter : IntegerLetter) : LayoutField :=
  if letter.isSigned then .signed letter.width else .unsigned letter.width

theorem width_pos (letter : IntegerLetter) : 0 < letter.width := by
  cases letter <;> decide

theorem size_field (letter : IntegerLetter) : letter.field.size = letter.width := by
  cases letter <;> rfl

theorem ofLetter?_char (letter : IntegerLetter) :
    LayoutField.ofLetter? letter.char = some letter.field := by
  cases letter <;> rfl

theorem value_of_signed {letter : IntegerLetter} (h : letter.isSigned = true) (number : Nat) :
    letter.value number = Bytes.signed letter.width number := by
  have hlow : (number : Int) < 2 ^ (8 * letter.width - 1) ↔
      number < 2 ^ (8 * letter.width - 1) := by
    rw [← Int.ofNat_lt, Int.natCast_pow]
    rfl
  rw [value, if_pos h, Bytes.signed_eq]
  simp only [hlow]

theorem value_of_unsigned {letter : IntegerLetter} (h : letter.isSigned = false) (number : Nat) :
    letter.value number = number := by
  rw [value, h]
  rfl

theorem value_field (letter : IntegerLetter) (number : Nat) :
    letter.field.value number = .whole (letter.value number) := by
  rcases h : letter.isSigned with _ | _
  · rw [value_of_unsigned h, field, h]
    rfl
  · rw [value_of_signed h, field, h]
    rfl

theorem mapM_ofLetter? (letters : List IntegerLetter) :
    (letters.map char).mapM LayoutField.ofLetter? = some (letters.map field) := by
  induction letters with
  | nil => rfl
  | cons letter letters ih =>
    rw [List.map_cons, List.mapM_cons, ofLetter?_char, ih]
    rfl

/-- The layout of some letters. -/
def layout (order : ByteOrder) (letters : List IntegerLetter) : RecordLayout :=
  ⟨order, letters.map field⟩

theorem ofString?_format (order : ByteOrder) (letters : List IntegerLetter) :
    RecordLayout.ofString? (format order letters) = some (layout order letters) := by
  rw [RecordLayout.ofString?, format, String.toList_ofList]
  cases order with
  | mostSignificantFirst =>
    show ((letters.map char).mapM LayoutField.ofLetter?).map _ = _
    rw [mapM_ofLetter?]
    rfl
  | leastSignificantFirst =>
    show ((letters.map char).mapM LayoutField.ofLetter?).map _ = _
    rw [mapM_ofLetter?]
    rfl

theorem size_layout (order : ByteOrder) (letters : List IntegerLetter) :
    (layout order letters).size = totalWidth letters := by
  induction letters with
  | nil => rfl
  | cons letter letters ih =>
    rw [totalWidth, ← ih, ← size_field]
    rfl

/-- The bytes of a value of a letter in two's complement give the value back. -/
theorem value_weigh_ofInt {letter : IntegerLetter} {number : Int} (hleast : letter.least ≤ number)
    (hbound : number < letter.bound) :
    letter.value (ByteOrder.mostSignificantFirst.weigh (.ofInt letter.width number)) = number := by
  rw [← ByteOrder.number_eq_weigh]
  show letter.value (Bytes.toNat (.ofInt letter.width number)) = number
  rw [least] at hleast
  rw [bound] at hbound
  rcases h : letter.isSigned with _ | _
  · rw [h] at hleast hbound
    change 0 ≤ number at hleast
    change number < 2 ^ (8 * letter.width) at hbound
    have hfits : number.toNat < 256 ^ letter.width := by
      rw [Bytes.two_pow_eq] at hbound
      omega
    rw [value_of_unsigned h, Bytes.ofInt, Int.emod_eq_of_lt hleast hbound,
      Bytes.toNat_ofNat hfits, Int.toNat_of_nonneg hleast]
  · rw [h] at hleast hbound
    rw [value_of_signed h]
    exact ((Bytes.eq_ofInt_iff letter.width_pos).2 ⟨⟨hleast, hbound⟩, rfl⟩).2.symm

end IntegerLetter

/-! ### Reading -/

namespace RecordLayout

/-- With too few bytes ahead for all fields, nothing is read. -/
theorem run_read_of_lt {layout : RecordLayout} {s : Scan.State}
    (h : s.cursor.rest.length < layout.size) :
    run layout.read s = (.error (.format (.truncated layout.size s.cursor.rest.length)
      (some s.cursor.place)), s.cursor) := by
  rw [read_eq]
  exact Scan.run_bind_of_error (Scan.run_take_of_lt h) _

/-- With enough bytes ahead, the first field is answered and all fields are passed. -/
theorem run_read_of_le {order : ByteOrder} {field : LayoutField} {fields : List LayoutField}
    {s : Scan.State} (h : size ⟨order, field :: fields⟩ ≤ s.cursor.rest.length) :
    run (read ⟨order, field :: fields⟩) s =
      (.ok (field.value (order.weigh (s.cursor.rest.take field.size))),
        s.cursor.advance (size ⟨order, field :: fields⟩)) := by
  have hfirst : field.size ≤ size ⟨order, field :: fields⟩ := Nat.le_add_right _ _
  obtain ⟨log, hbind⟩ := Scan.run_bind_of_ok (Scan.run_take_of_le h) fun bytes ↦
    Scan.ofExcept (answer ⟨order, field :: fields⟩ bytes)
  rw [read_eq, hbind, Scan.run_ofExcept]
  show (Except.ok (field.value (number order (List.take field.size (List.take _ _)))), _) = _
  rw [List.take_take, Nat.min_eq_left hfirst, ByteOrder.number_eq_weigh]

/-- A layout of one field is the number that its bytes form. -/
theorem read_single (field : LayoutField) :
    read ⟨.mostSignificantFirst, [field]⟩ =
      (do return field.value (Bytes.toNat (← Scan.take field.size))) := by
  funext s
  show EStateM.bind (Scan.take field.size) _ s = EStateM.bind (Scan.take field.size) _ s
  unfold EStateM.bind
  cases h : Scan.take field.size s with
  | error fault t => rfl
  | ok bytes t =>
    have hlength : bytes.length = field.size :=
      Scan.length_of_run_take (Scan.run_eq_ok_iff.2 ⟨t.log, h⟩)
    show EStateM.Result.ok (field.value (Bytes.toNat (bytes.take field.size))) t = _
    rw [List.take_of_length_le (Nat.le_of_eq hlength)]
    rfl

end RecordLayout

namespace Scan

/-- A scan takes back every number between two bounds from its two's complement, whatever
follows. -/
def Undoes (scan : Scan Int) (size : Nat) (least bound : Int) : Prop :=
  ∀ (m : Mark) (number : Int), least ≤ number → number < bound →
    Concludes scan m (.ofInt size number) (.ok number)

/-- A function that keeps values apart shows what was read. -/
theorem run_of_run_map {α β : Type} {scan : Scan α} {f : α → β} (hf : ∀ x y, f x = f y → x = y)
    {s : State} {value : α} {c : Cursor} (h : run (f <$> scan) s = (.ok (f value), c)) :
    run scan s = (.ok value, c) := by
  rw [map_eq_pure_bind, run_bind_eq_ok_iff] at h
  obtain ⟨first, t, hscan, hpure⟩ := h
  obtain ⟨hvalue, rfl⟩ := Prod.mk.inj hpure
  rw [← hf _ _ (Except.ok.inj hvalue)]
  exact run_eq_ok_iff.2 ⟨t.log, hscan⟩

/-- A read that is the format of one letter takes back the values of the letter. -/
theorem undoes_of_layout {scan : Scan Int} (letter : IntegerLetter)
    (h : FieldValue.whole <$> scan = (IntegerLetter.layout .mostSignificantFirst [letter]).read) :
    Undoes scan letter.width letter.least letter.bound := by
  intro m number hleast hbound s hmark hahead
  have hsize : RecordLayout.size ⟨.mostSignificantFirst, [letter.field]⟩ =
      (Bytes.ofInt letter.width number).length := by
    rw [Bytes.length_ofInt, ← letter.size_field]
    rfl
  have htake : s.cursor.rest.take letter.field.size = Bytes.ofInt letter.width number := by
    have hfront := List.prefix_iff_eq_take.1 hahead
    rw [Bytes.length_ofInt] at hfront
    rw [letter.size_field, ← hfront]
  have hread := RecordLayout.run_read_of_le (hsize ▸ hahead.length_le)
  rw [htake, letter.value_field, IntegerLetter.value_weigh_ofInt hleast hbound, hsize] at hread
  refine run_of_run_map (fun _ _ ↦ FieldValue.whole.inj) ?_
  rw [h]
  exact hread

theorem whole_map_unsigned (size : Nat) :
    FieldValue.whole <$> (Int.ofNat <$> unsigned size) =
      RecordLayout.read ⟨.mostSignificantFirst, [.unsigned size]⟩ := by
  rw [RecordLayout.read_single, unsigned_eq]
  simp only [map_bind]
  rfl

theorem whole_map_signed (size : Nat) :
    FieldValue.whole <$> signed size =
      RecordLayout.read ⟨.mostSignificantFirst, [.signed size]⟩ := by
  rw [RecordLayout.read_single, signed, unsigned_eq]
  simp only [map_bind, bind_assoc, pure_bind]
  rfl

end Scan

namespace RecordLayout

open IntegerLetter (format totalWidth)

/-- A format of whole numbers is refused on the spot if fewer bytes are ahead than its letters
have, and else all of them are passed and the first letter is answered. Reads with names of their
own take back the two's complement on their whole ranges. -/
theorem read_of_format :
    (∀ (order : ByteOrder) (first : IntegerLetter) (others : List IntegerLetter),
      ∃ layout, ofString? (format order (first :: others)) = some layout ∧
        ∀ (data : Bytes) (base : Int) (pos : Nat) (log : Log),
          let cursor := (Cursor.start data base).advance pos
          let total := totalWidth (first :: others)
          (data.length - pos < total → ∃ fault message,
            run layout.read ⟨cursor, log⟩ = (.error fault, cursor) ∧
              fault.formatError? = some ⟨.truncatedData, message, some (base + pos)⟩) ∧
          (total ≤ data.length - pos →
            run layout.read ⟨cursor, log⟩ =
              (.ok (.whole (first.value (order.weigh ((data.drop pos).take first.width)))),
                cursor.advance total))) ∧
    Scan.Undoes (Int.ofNat <$> Scan.u8) 1 0 (2 ^ 8) ∧
    Scan.Undoes Scan.i8 1 (-2 ^ 7) (2 ^ 7) ∧
    Scan.Undoes (Int.ofNat <$> Scan.u16) 2 0 (2 ^ 16) ∧
    Scan.Undoes Scan.i16 2 (-2 ^ 15) (2 ^ 15) ∧
    Scan.Undoes (Int.ofNat <$> Scan.u32) 4 0 (2 ^ 32) ∧
    Scan.Undoes Scan.i32 4 (-2 ^ 31) (2 ^ 31) ∧
    Scan.Undoes Scan.i64 8 (-2 ^ 63) (2 ^ 63) := by
  refine ⟨fun order first others ↦ ?_, Scan.undoes_of_layout .B (Scan.whole_map_unsigned 1),
    Scan.undoes_of_layout .b (Scan.whole_map_signed 1),
    Scan.undoes_of_layout .H (Scan.whole_map_unsigned 2),
    Scan.undoes_of_layout .h (Scan.whole_map_signed 2),
    Scan.undoes_of_layout .I (Scan.whole_map_unsigned 4),
    Scan.undoes_of_layout .i (Scan.whole_map_signed 4),
    Scan.undoes_of_layout .q (Scan.whole_map_signed 8)⟩
  refine ⟨_, IntegerLetter.ofString?_format order (first :: others), fun data base pos log ↦ ?_⟩
  have hremaining : ((Cursor.start data base).advance pos).rest.length = data.length - pos :=
    List.length_drop
  have hplace : ((Cursor.start data base).advance pos).place = base + pos := by
    rw [← Cursor.place_mark, Cursor.mark_advance, Cursor.mark_start, Mark.place_after,
      Mark.place_start]
  have hsize : size ⟨order, (first :: others).map IntegerLetter.field⟩ =
      totalWidth (first :: others) := IntegerLetter.size_layout order (first :: others)
  refine ⟨fun hshort ↦ ?_, fun henough ↦ ?_⟩
  · have hread : run (read ⟨order, (first :: others).map IntegerLetter.field⟩)
        ⟨(Cursor.start data base).advance pos, log⟩ = _ :=
      run_read_of_lt (hsize ▸ hremaining ▸ hshort)
    rw [hplace] at hread
    exact ⟨_, _, hread, rfl⟩
  · have hread : run (read ⟨order, (first :: others).map IntegerLetter.field⟩)
        ⟨(Cursor.start data base).advance pos, log⟩ = _ :=
      run_read_of_le (hsize ▸ hremaining ▸ henough)
    rw [first.value_field, first.size_field, ← List.map_cons, hsize] at hread
    exact hread

/-- A small signed number of which the low byte comes first, with a byte behind it: read from the
end of three bytes, the cursor passes the number and the byte behind it, and with one byte less
it does not move. -/
theorem read_of_format_sample :
    ∃ layout, ofString? "<hB" = some layout ∧
      run layout.read ⟨(Cursor.start [7, 0xFE, 0xFF, 9] 0).advance 1, #[]⟩ =
        (.ok (.whole (-2)), (Cursor.start [7, 0xFE, 0xFF, 9] 0).advance 4) ∧
      ∃ fault message,
        run layout.read ⟨(Cursor.start [7, 0xFE, 0xFF, 9] 0).advance 2, #[]⟩ =
          (.error fault, (Cursor.start [7, 0xFE, 0xFF, 9] 0).advance 2) ∧
        fault.formatError? = some ⟨.truncatedData, message, some 2⟩ := by
  obtain ⟨layout, hformat, hread⟩ := read_of_format.1 .leastSignificantFirst .h [.B]
  refine ⟨layout, hformat, (hread [7, 0xFE, 0xFF, 9] 0 1 #[]).2 (by decide), ?_⟩
  exact (hread [7, 0xFE, 0xFF, 9] 0 2 #[]).1 (by decide)

end RecordLayout

end ClassInspect
