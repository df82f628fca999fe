import Mathlib.Data.List.Forall2
import ClassInspect.Proofs.Bytes
import ClassInspect.Proofs.Scan.Run

/-!
# Scans and the formats they read

A format says which byte strings stand for which values at which mark. A scan reads a format
(`Reads`) if its successes are exactly the byte strings of the format, taken from the front of
what is ahead: it accepts nothing else, and it misses nothing, whatever follows.

`Reads.bind` follows the making of a scan from smaller ones, so the format of a reader is found
by going through its steps. Most formats list descriptions: a value is what some well-formed
description denotes, and the bytes are the description written down. `Decodes` is this form, and
`Decodes.counted` carries it from one item to a list of them, where each item is denoted at the
position it is written at (`placed`).

## Why the format of a bind comes in two forms

What follows a scan is chosen by the value that was read, so `Reads.bind` needs a format for every
value. That is more than can be had where the next scan only makes sense behind values of a certain
kind, such as a pool that was read: its look-ups are those of a description, and a pool that is not
the meaning of one has no description to look anything up in. `Reads.bind_described` therefore goes
on from the description, and asks for the next format behind well-formed ones only. `Reads.bind` is
the case where every value describes itself, and `Decodes.andThen` the one of written descriptions.

The mark is part of a format for two reasons. Attributes are denoted with the place of their
payload, and the padding of an instruction depends on its position.
-/

namespace ClassInspect

namespace Scan

variable {α β δ : Type}

/-- Which byte strings stand for which values at which mark. -/
abbrev Format (α : Type) := Mark → Bytes → α → Prop

/-- The successes of a scan are exactly the byte strings of a format at the front of what is
ahead. -/
def Reads (scan : Scan α) (format : Format α) : Prop :=
  ∀ (s : State) (value : α) (c : Cursor),
    run scan s = (.ok value, c) ↔
      ∃ bytes, bytes <+: s.cursor.rest ∧ c = s.cursor.advance bytes.length ∧
        format s.cursor.mark bytes value

/-- A format may be replaced by one that says the same. -/
theorem Reads.congr {scan : Scan α} {format format' : Format α} (h : Reads scan format)
    (hformat : ∀ m bytes value, format m bytes value ↔ format' m bytes value) :
    Reads scan format' := by
  intro s value c
  rw [h s value c]
  simp only [hformat]

/-- A scan that never moves reads the empty byte string. -/
theorem Reads.of_still {scan : Scan α} (outcome : Mark → Except Fault α)
    (h : ∀ s : State, run scan s = (outcome s.cursor.mark, s.cursor)) :
    Reads scan fun m bytes value ↦ bytes = [] ∧ outcome m = .ok value := by
  intro s value c
  rw [h s]
  constructor
  · intro hrun
    obtain ⟨houtcome, rfl⟩ := Prod.mk.inj hrun
    exact ⟨[], List.nil_prefix, by simp, rfl, houtcome⟩
  · rintro ⟨_, -, rfl, rfl, houtcome⟩
    simp [houtcome]

theorem Reads.pure (value : α) :
    Reads (pure value) fun _ bytes value' ↦ bytes = [] ∧ value' = value :=
  (Reads.of_still (fun _ ↦ .ok value) fun _ ↦ rfl).congr fun _ _ _ ↦ by
    simp [eq_comm]

theorem Reads.ofExcept (outcome : Except Fault α) :
    Reads (ofExcept outcome) fun _ bytes value ↦ bytes = [] ∧ outcome = .ok value :=
  .of_still (fun _ ↦ outcome) fun s ↦ run_ofExcept outcome s

theorem Reads.place : Reads place fun m bytes value ↦ bytes = [] ∧ value = m.place :=
  (Reads.of_still (fun m ↦ .ok m.place) fun _ ↦ rfl).congr fun _ _ _ ↦ by
    simp [eq_comm]

theorem Reads.pos : Reads pos fun m bytes value ↦ bytes = [] ∧ value = m.pos :=
  (Reads.of_still (fun m ↦ .ok m.pos) fun _ ↦ rfl).congr fun _ _ _ ↦ by
    simp [eq_comm]

theorem Reads.note (level : Log.Level) (source : Log.Source) (message : Text) :
    Reads (note level source message) fun _ bytes _ ↦ bytes = [] :=
  (Reads.of_still (fun _ ↦ .ok ()) fun _ ↦ rfl).congr fun _ _ _ ↦ by simp

/-- A scan that fails reads nothing. -/
theorem Reads.throw (fault : Fault) :
    Reads (throw fault : Scan α) fun _ _ _ ↦ False :=
  (Reads.of_still (fun _ ↦ .error fault) fun _ ↦ rfl).congr fun _ _ _ ↦ by simp

theorem Reads.failHere (problem : Problem) :
    Reads (failHere problem : Scan α) fun _ _ _ ↦ False :=
  (Reads.of_still (fun m ↦ .error (.format problem (some m.place))) fun _ ↦ rfl).congr
    fun _ _ _ ↦ by simp

/-- Taking bytes reads any byte string of that length. -/
theorem Reads.take (size : Nat) :
    Reads (take size) fun _ bytes value ↦ bytes.length = size ∧ value = bytes := by
  intro s value c
  rcases Nat.lt_or_ge s.cursor.rest.length size with hlt | hle
  · rw [run_take_of_lt hlt]
    constructor
    · intro h
      cases h
    · rintro ⟨bytes, hahead, -, hlength, -⟩
      have := hahead.length_le
      omega
  · rw [run_take_of_le hle]
    constructor
    · intro h
      cases h
      have hlength : (s.cursor.rest.take size).length = size := by
        rw [List.length_take]
        omega
      exact ⟨_, List.take_prefix _ _, by rw [hlength], hlength, rfl⟩
    · rintro ⟨_, ⟨tail, htail⟩, rfl, hlength, rfl⟩
      rw [← htail, List.take_left' hlength, hlength]

/-- Two scans in a row, where the values of the first are given by items of some kind. The next scan
is only looked at behind values of items that the first reads, and its format may speak of the
item. -/
theorem Reads.bind_described {scan : Scan α} {next : α → Scan β} {format : Format δ}
    {value : Mark → δ → α} {format' : Mark → δ → Format β}
    (h : Reads scan fun m bytes found ↦ ∃ item, format m bytes item ∧ found = value m item)
    (hnext : ∀ m bytes item, format m bytes item → Reads (next (value m item)) (format' m item)) :
    Reads (scan >>= next) fun m bytes result ↦ ∃ front back item, bytes = front ++ back ∧
      format m front item ∧ format' m item (m.after front.length) back result := by
  intro s result c
  rw [run_bind_eq_ok_iff]
  constructor
  · rintro ⟨first, t, hfirst, hrest⟩
    have hrun : run scan s = (.ok first, t.cursor) := run_eq_ok_iff.2 ⟨t.log, hfirst⟩
    obtain ⟨front, hfront, hcursor, item, hformat, rfl⟩ := (h s first t.cursor).1 hrun
    obtain ⟨back, hback, hc, hformat'⟩ := (hnext _ front item hformat t result c).1 hrest
    -- the second scan starts where the bytes of the first end
    rw [hcursor] at hback hc hformat'
    refine ⟨front ++ back, Cursor.append_prefix_rest hfront hback, ?_, front, back, item, rfl,
      hformat, hformat'⟩
    rw [hc, Cursor.advance_advance, List.length_append]
  · rintro ⟨_, hahead, rfl, front, back, item, rfl, hformat, hformat'⟩
    have hfront : front <+: s.cursor.rest := (List.prefix_append _ _).trans hahead
    have hrun : run scan s = (.ok (value s.cursor.mark item), s.cursor.advance front.length) :=
      (h s _ _).2 ⟨front, hfront, rfl, item, hformat, rfl⟩
    obtain ⟨log, hscan⟩ := run_eq_ok_iff.1 hrun
    refine ⟨_, _, hscan, (hnext _ front item hformat _ result _).2 ⟨back, ?_, ?_, hformat'⟩⟩
    · exact Cursor.prefix_rest_advance hahead
    · rw [Cursor.advance_advance, List.length_append]

/-- Two scans in a row read the byte strings of the one followed by those of the other. -/
theorem Reads.bind {scan : Scan α} {next : α → Scan β} {format : Format α}
    {format' : α → Format β} (h : Reads scan format)
    (hnext : ∀ value, Reads (next value) (format' value)) :
    Reads (scan >>= next) fun m bytes value ↦ ∃ front back first, bytes = front ++ back ∧
      format m front first ∧ format' first (m.after front.length) back value := by
  have hself : Reads scan fun m bytes found ↦ ∃ item, format m bytes item ∧ found = item :=
    h.congr fun _ _ _ ↦ by simp
  exact hself.bind_described fun _ _ value _ ↦ hnext value

/-- Moving over bytes reads any byte string of that length. -/
theorem Reads.skip (size : Nat) : Reads (skip size) fun _ bytes _ ↦ bytes.length = size := by
  refine ((Reads.take size).bind fun _ ↦ .pure _).congr fun _ bytes _ ↦ ?_
  constructor
  · rintro ⟨_, _, _, rfl, ⟨hlength, rfl⟩, rfl, -⟩
    rw [List.append_nil, hlength]
  · intro hlength
    exact ⟨bytes, [], bytes, (List.append_nil _).symm, ⟨hlength, rfl⟩, rfl, rfl⟩

/-- A scan that never moves adds a condition to what follows. -/
theorem Reads.stillThen {scan : Scan α} {next : α → Scan β} {found : Mark → α → Prop}
    {format : α → Format β} (h : Reads scan fun m bytes value ↦ bytes = [] ∧ found m value)
    (hnext : ∀ value, Reads (next value) (format value)) :
    Reads (scan >>= next) fun m bytes value ↦ ∃ first, found m first ∧
      format first m bytes value := by
  refine (h.bind hnext).congr fun m bytes value ↦ ?_
  constructor
  · rintro ⟨_, back, first, rfl, ⟨rfl, hfound⟩, hformat⟩
    exact ⟨first, hfound, hformat⟩
  · rintro ⟨first, hfound, hformat⟩
    exact ⟨[], bytes, first, rfl, ⟨rfl, hfound⟩, hformat⟩

/-- Writing a log record does not change what is read. -/
theorem Reads.noteThen {level : Log.Level} {source : Log.Source} {message : Text}
    {scan : Scan α} {format : Format α} (h : Reads scan format) :
    Reads (do Scan.note level source message; scan) format := by
  refine ((Reads.note level source message).bind fun _ ↦ h).congr fun m bytes value ↦ ?_
  constructor
  · rintro ⟨_, back, _, rfl, rfl, hformat⟩
    exact hformat
  · intro hformat
    exact ⟨[], bytes, (), rfl, rfl, hformat⟩

/-- Writing a log record about what was read does not change it. -/
theorem Reads.noted {scan : Scan α} {format : Format α} (h : Reads scan format)
    (level : Log.Level) (source : Log.Source) (message : α → Text) :
    Reads (do
      let value ← scan
      Scan.note level source (message value)
      return value) format := by
  refine (h.bind fun value ↦ Reads.noteThen (.pure value)).congr fun m bytes value ↦ ?_
  constructor
  · rintro ⟨front, _, _, rfl, hformat, rfl, rfl⟩
    rw [List.append_nil]
    exact hformat
  · intro hformat
    exact ⟨bytes, [], value, (List.append_nil _).symm, hformat, rfl, rfl⟩

/-- A function of what was read. -/
theorem Reads.map {scan : Scan α} {format : Format α} (h : Reads scan format) (f : α → β) :
    Reads (f <$> scan) fun m bytes value ↦ ∃ first, format m bytes first ∧ value = f first := by
  rw [map_eq_pure_bind]
  refine (h.bind fun first ↦ .pure (f first)).congr fun m bytes value ↦ ?_
  constructor
  · rintro ⟨front, _, first, rfl, hformat, rfl, rfl⟩
    rw [List.append_nil]
    exact ⟨first, hformat, rfl⟩
  · rintro ⟨first, hformat, rfl⟩
    exact ⟨bytes, [], first, (List.append_nil _).symm, hformat, rfl, rfl⟩

/-! ### Numbers -/

/-- An unsigned number is read from the bytes it is written as. -/
theorem Reads.unsigned (size : Nat) :
    Reads (unsigned size) fun _ bytes value ↦
      value < 256 ^ size ∧ bytes = Bytes.ofNat size value := by
  rw [unsigned_eq, ← map_eq_pure_bind]
  refine ((Reads.take size).map Bytes.toNat).congr fun _ bytes value ↦ ?_
  rw [← Bytes.eq_ofNat_iff]
  constructor
  · rintro ⟨_, ⟨hlength, rfl⟩, rfl⟩
    exact ⟨hlength, rfl⟩
  · rintro ⟨hlength, rfl⟩
    exact ⟨bytes, ⟨hlength, rfl⟩, rfl⟩

/-- A signed number is read from the bytes it is written as. -/
theorem Reads.signed {size : Nat} (hsize : 0 < size) :
    Reads (signed size) fun _ bytes value ↦
      Bytes.FitsSigned size value ∧ bytes = Bytes.ofInt size value := by
  unfold Scan.signed
  rw [← map_eq_pure_bind]
  refine ((Reads.unsigned size).map (Bytes.signed size)).congr fun _ bytes value ↦ ?_
  rw [← Bytes.eq_ofInt_iff hsize]
  constructor
  · rintro ⟨number, hnumber, rfl⟩
    obtain ⟨hlength, rfl⟩ := Bytes.eq_ofNat_iff.2 hnumber
    exact ⟨hlength, rfl⟩
  · rintro ⟨hlength, rfl⟩
    exact ⟨Bytes.toNat bytes, Bytes.eq_ofNat_iff.1 ⟨hlength, rfl⟩, rfl⟩

/-! ### Scans within data of their own -/

/-- A scan that must leave no byte succeeds if all that is ahead is of its format. -/
theorem Reads.outcome_exhaust {scan : Scan α} {format : Format α} (h : Reads scan format)
    (problem : Nat → Problem) (s : State) (value : α) :
    (run (exhaust problem scan) s).1 = .ok value ↔
      format s.cursor.mark s.cursor.rest value := by
  constructor
  · intro hok
    rcases hrun : run scan s with ⟨fault | value', c⟩
    · rw [run_exhaust_of_error hrun] at hok
      cases hok
    · rw [run_exhaust_of_ok hrun] at hok
      obtain ⟨bytes, hahead, hc, hformat⟩ := (h s value' c).1 hrun
      split at hok
      · rename_i hrest
        cases hok
        rw [hc] at hrest
        rw [← Cursor.eq_rest_of_ahead hahead hrest]
        exact hformat
      · cases hok
  · intro hformat
    have hrun := (h s value _).2 ⟨s.cursor.rest, List.prefix_refl _, rfl, hformat⟩
    rw [run_exhaust_of_ok hrun]
    simp

/-- A scan over data of its own, which it must use up, reads the whole data as its format. -/
theorem Reads.within {scan : Scan α} {format : Format α} (h : Reads scan format)
    (problem : Nat → Problem) (data : Bytes) (base : Int) :
    Reads (within data base (exhaust problem scan)) fun _ bytes value ↦
      bytes = [] ∧ format ⟨base, 0⟩ data value := by
  intro s value c
  have hinner := h.outcome_exhaust problem ⟨.start data base, s.log⟩ value
  rw [run_within]
  constructor
  · intro hrun
    obtain ⟨hok, rfl⟩ := Prod.mk.inj hrun
    exact ⟨[], List.nil_prefix, by simp, rfl, hinner.1 hok⟩
  · rintro ⟨_, -, rfl, rfl, hformat⟩
    rw [hinner.2 hformat]
    simp

/-! ### Formats of descriptions -/

/-- The items of a list with the positions they stand at when written one after the other. -/
def placed (write : δ → Bytes) : Int → List δ → List (Int × δ)
  | _, [] => []
  | place, item :: items => (place, item) :: placed write (place + (write item).length) items

/-- A number of items, in two bytes, and the items. -/
def writeCounted (write : δ → Bytes) (items : List δ) : Bytes :=
  Bytes.ofNat 2 items.length ++ items.flatMap write

/-- Every item denotes the value in its place of a list, each at its own position. -/
def DenoteAll (write : δ → Bytes) (denotes : Int → δ → α → Prop) (place : Int) (items : List δ)
    (values : List α) : Prop :=
  List.Forall₂ (fun item value ↦ denotes item.1 item.2 value) (placed write place items) values

/-- The values read are those that well-formed descriptions denote, and the bytes are these
descriptions written down. -/
def Decodes (scan : Scan α) (wellFormed : δ → Prop) (write : δ → Bytes)
    (denotes : Int → δ → α → Prop) : Prop :=
  Reads scan fun m bytes value ↦
    ∃ item, wellFormed item ∧ bytes = write item ∧ denotes m.place item value

/-- A scan that goes on with what a well-formed description stands for. -/
theorem Decodes.andThen {scan : Scan α} {wellFormed : δ → Prop} {write : δ → Bytes}
    {value : Int → δ → α}
    (h : Decodes scan wellFormed write fun place item found ↦ found = value place item)
    {next : α → Scan β} {format : Int → δ → Format β}
    (hnext : ∀ place item, wellFormed item → Reads (next (value place item)) (format place item)) :
    Reads (scan >>= next) fun m bytes result ↦ ∃ item back, wellFormed item ∧
      bytes = write item ++ back ∧
      format m.place item (m.after (write item).length) back result := by
  have hitems : Reads scan fun m bytes found ↦ ∃ item,
      (wellFormed item ∧ bytes = write item) ∧ found = value m.place item :=
    h.congr fun _ _ _ ↦ by simp only [and_assoc]
  refine (hitems.bind_described fun m _ item hitem ↦ hnext m.place item hitem.1).congr
    fun m bytes result ↦ ?_
  constructor
  · rintro ⟨_, back, item, rfl, ⟨hitem, rfl⟩, hformat⟩
    exact ⟨item, back, hitem, rfl, hformat⟩
  · rintro ⟨item, back, hitem, rfl, hformat⟩
    exact ⟨write item, back, item, rfl, ⟨hitem, rfl⟩, hformat⟩

/-- Items that each denote one value denote the list of these values. -/
theorem denoteAll_iff_eq_map {write : δ → Bytes} {value : Int → δ → α} {place : Int}
    {items : List δ} {values : List α} :
    DenoteAll write (fun place item found ↦ found = value place item) place items values ↔
      values = (placed write place items).map fun item ↦ value item.1 item.2 := by
  rw [DenoteAll, eq_comm, ← List.forall₂_eq_eq_eq, List.forall₂_map_left_iff]
  simp only [eq_comm]

/-- Repeating a scan reads lists of descriptions of a given length. -/
theorem Decodes.times {scan : Scan α} {wellFormed : δ → Prop} {write : δ → Bytes}
    {denotes : Int → δ → α → Prop} (h : Decodes scan wellFormed write denotes) (count : Nat) :
    Decodes (times count scan)
      (fun items ↦ items.length = count ∧ ∀ item ∈ items, wellFormed item)
      (fun items ↦ items.flatMap write) (DenoteAll write denotes) := by
  -- the items behind the first are denoted from where the first one ends
  induction count with
  | zero =>
    refine (Reads.pure []).congr fun m bytes values ↦ ?_
    constructor
    · rintro ⟨rfl, rfl⟩
      exact ⟨[], ⟨rfl, by simp⟩, rfl, .nil⟩
    · rintro ⟨items, ⟨hlength, -⟩, rfl, hdenote⟩
      obtain rfl := List.length_eq_zero_iff.1 hlength
      cases hdenote
      exact ⟨rfl, rfl⟩
  | succ count ih =>
    rw [times_succ]
    refine (h.bind fun value ↦ ih.bind fun values ↦ .pure (value :: values)).congr
      fun m bytes values ↦ ?_
    constructor
    · rintro ⟨_, _, value, rfl, ⟨item, hitem, rfl, hvalue⟩, _, _, values', rfl,
        ⟨items, ⟨hlength, hitems⟩, rfl, hvalues⟩, rfl, rfl⟩
      refine ⟨item :: items, ⟨by simp [hlength], ?_⟩, by simp, .cons hvalue ?_⟩
      · intro other hother
        rcases List.mem_cons.1 hother with rfl | hother
        · exact hitem
        · exact hitems other hother
      · rw [Mark.place_after] at hvalues
        exact hvalues
    · rintro ⟨items, ⟨hlength, hitems⟩, rfl, hdenote⟩
      obtain ⟨item, items, rfl⟩ := List.exists_cons_of_length_eq_add_one hlength
      cases hdenote with
      | cons hvalue hvalues =>
        rename_i value values
        refine ⟨write item, items.flatMap write, value, by simp,
          ⟨item, hitems item List.mem_cons_self, rfl, hvalue⟩, items.flatMap write, [], values,
          by simp, ⟨items, ⟨by simpa using hlength, ?_⟩, rfl, ?_⟩, rfl, rfl⟩
        · exact fun other hother ↦ hitems other (List.mem_cons_of_mem _ hother)
        · rw [Mark.place_after]
          exact hvalues

/-- A list that starts with its length reads lists of descriptions. -/
theorem Decodes.counted {scan : Scan α} {wellFormed : δ → Prop} {write : δ → Bytes}
    {denotes : Int → δ → α → Prop} (h : Decodes scan wellFormed write denotes) :
    Decodes (counted scan)
      (fun items ↦ items.length < 2 ^ 16 ∧ ∀ item ∈ items, wellFormed item)
      (writeCounted write) fun place ↦ DenoteAll write denotes (place + 2) := by
  refine ((Reads.unsigned 2).bind h.times).congr fun m bytes values ↦ ?_
  constructor
  · rintro ⟨_, _, count, rfl, ⟨hcount, rfl⟩, items, ⟨rfl, hitems⟩, rfl, hvalues⟩
    refine ⟨items, ⟨hcount, hitems⟩, rfl, ?_⟩
    rw [Mark.place_after, Bytes.length_ofNat] at hvalues
    exact hvalues
  · rintro ⟨items, ⟨hcount, hitems⟩, rfl, hvalues⟩
    refine ⟨_, _, items.length, rfl, ⟨hcount, rfl⟩, items, ⟨rfl, hitems⟩, rfl, ?_⟩
    rw [Mark.place_after, Bytes.length_ofNat]
    exact hvalues

@[simp] theorem map_snd_placed (write : δ → Bytes) (place : Int) (items : List δ) :
    (placed write place items).map Prod.snd = items := by
  induction items generalizing place with
  | nil => rfl
  | cons item items ih => rw [placed, List.map_cons, ih]

theorem denoteAll_nil_iff {write : δ → Bytes} {denotes : Int → δ → α → Prop} {place : Int}
    {items : List δ} : DenoteAll write denotes place items [] ↔ items = [] := by
  rw [DenoteAll, List.forall₂_nil_right_iff]
  cases items with
  | nil => simp [placed]
  | cons item items => simp [placed]

theorem denoteAll_cons_iff {write : δ → Bytes} {denotes : Int → δ → α → Prop} {place : Int}
    {items : List δ} {value : α} {values : List α} :
    DenoteAll write denotes place items (value :: values) ↔
      ∃ item rest, items = item :: rest ∧ denotes place item value ∧
        DenoteAll write denotes (place + (write item).length) rest values := by
  cases items with
  | nil => simp [DenoteAll, placed]
  | cons item items => simp [DenoteAll, placed]

/-- A value in the middle of a list is what an item in the middle denotes, at the position behind
the items before it. -/
theorem denoteAll_append_cons_iff {write : δ → Bytes} {denotes : Int → δ → α → Prop} {place : Int}
    {items : List δ} {before after : List α} {value : α} :
    DenoteAll write denotes place items (before ++ value :: after) ↔
      ∃ front item back, items = front ++ item :: back ∧
        DenoteAll write denotes place front before ∧
        denotes (place + (front.flatMap write).length) item value ∧
        DenoteAll write denotes
          (place + (front.flatMap write).length + (write item).length) back after := by
  induction before generalizing place items with
  | nil =>
    simp only [List.nil_append, denoteAll_cons_iff, denoteAll_nil_iff]
    constructor
    · rintro ⟨item, back, rfl, hitem, hback⟩
      exact ⟨[], item, back, rfl, rfl, by simpa using hitem, by simpa using hback⟩
    · rintro ⟨_, item, back, rfl, rfl, hitem, hback⟩
      exact ⟨item, back, rfl, by simpa using hitem, by simpa using hback⟩
  | cons first before ih =>
    -- the place behind the first item and the items after it is the place behind all of them
    have hplace (head : δ) (front : List δ) :
        place + (write head).length + (front.flatMap write).length =
          place + ((head :: front).flatMap write).length := by
      simp only [List.flatMap_cons, List.length_append, Int.natCast_add]
      omega
    simp only [List.cons_append, denoteAll_cons_iff, ih]
    constructor
    · rintro ⟨head, _, rfl, hhead, front, item, back, rfl, hfront, hitem, hback⟩
      rw [hplace] at hitem hback
      exact ⟨head :: front, item, back, rfl, ⟨head, front, rfl, hhead, hfront⟩, hitem, hback⟩
    · rintro ⟨_, item, back, rfl, ⟨head, front, rfl, hhead, hfront⟩, hitem, hback⟩
      rw [← hplace] at hitem hback
      exact ⟨head, _, rfl, hhead, front, item, back, rfl, hfront, hitem, hback⟩

/-- Items whose values do not depend on where they stand. -/
theorem denoteAll_iff_eq_map_of_still {write : δ → Bytes} {value : δ → α} {place : Int}
    {items : List δ} {values : List α} :
    DenoteAll write (fun _ item found ↦ found = value item) place items values ↔
      values = items.map value := by
  have hmap : (placed write place items).map (fun item ↦ value item.2) = items.map value := by
    rw [← Function.comp_def value, ← List.map_map, map_snd_placed]
  rw [denoteAll_iff_eq_map, hmap]

theorem Decodes.times_map {scan : Scan α} {wellFormed : δ → Prop} {write : δ → Bytes}
    {value : δ → α} (h : Decodes scan wellFormed write fun _ item found ↦ found = value item)
    (count : Nat) :
    Decodes (Scan.times count scan)
      (fun items : List δ ↦ items.length = count ∧ ∀ item ∈ items, wellFormed item)
      (fun items : List δ ↦ items.flatMap write) fun _ items values ↦ values = items.map value := by
  refine (h.times count).congr fun m bytes values ↦ ?_
  simp only [denoteAll_iff_eq_map_of_still]

theorem Decodes.counted_map {scan : Scan α} {wellFormed : δ → Prop} {write : δ → Bytes}
    {value : δ → α} (h : Decodes scan wellFormed write fun _ item found ↦ found = value item) :
    Decodes (Scan.counted scan)
      (fun items ↦ items.length < 2 ^ 16 ∧ ∀ item ∈ items, wellFormed item)
      (writeCounted write) fun _ items values ↦ values = items.map value := by
  refine h.counted.congr fun m bytes values ↦ ?_
  simp only [denoteAll_iff_eq_map_of_still]

/-! ### Numbers of fixed types -/

/-- An unsigned number reads the values of a type that has as many as there are byte strings. -/
theorem decodes_unsigned {size : Nat} (number : δ → Nat) (hlt : ∀ item, number item < 256 ^ size)
    (honto : ∀ value < 256 ^ size, ∃ item, number item = value) :
    Decodes (unsigned size) (fun _ : δ ↦ True) (fun item ↦ Bytes.ofNat size (number item))
      fun _ item value ↦ value = number item := by
  refine (Reads.unsigned size).congr fun _ bytes value ↦ ?_
  constructor
  · rintro ⟨hvalue, rfl⟩
    obtain ⟨item, rfl⟩ := honto value hvalue
    exact ⟨item, trivial, rfl, rfl⟩
  · rintro ⟨item, -, rfl, rfl⟩
    exact ⟨hlt item, rfl⟩

/-- A number of one byte. -/
theorem decodes_u8 :
    Decodes u8 (fun _ : UInt8 ↦ True) (fun number ↦ .ofNat 1 number.toNat)
      fun _ number value ↦ value = number.toNat :=
  decodes_unsigned UInt8.toNat UInt8.toNat_lt fun value hvalue ↦
    ⟨.ofNat value, UInt8.toNat_ofNat_of_lt' hvalue⟩

/-- A number of two bytes. -/
theorem decodes_u16 :
    Decodes u16 (fun _ : UInt16 ↦ True) .ofU16 fun _ number value ↦ value = number.toNat :=
  decodes_unsigned UInt16.toNat UInt16.toNat_lt fun value hvalue ↦
    ⟨.ofNat value, UInt16.toNat_ofNat_of_lt' hvalue⟩

/-- A signed number. -/
theorem decodes_signed {size : Nat} (hsize : 0 < size) :
    Decodes (signed size) (Bytes.FitsSigned size) (.ofInt size)
      fun _ number value ↦ value = number := by
  refine (Reads.signed hsize).congr fun _ bytes value ↦ ?_
  constructor
  · rintro ⟨hfits, rfl⟩
    exact ⟨value, hfits, rfl, rfl⟩
  · rintro ⟨_, hfits, rfl, rfl⟩
    exact ⟨hfits, rfl⟩

/-- A function of what was read, if it takes back what the description gave. -/
theorem Decodes.map {scan : Scan α} {wellFormed : δ → Prop} {write : δ → Bytes} {value : δ → α}
    (h : Decodes scan wellFormed write fun _ item found ↦ found = value item) {f : α → β}
    {value' : δ → β} (hf : ∀ item, f (value item) = value' item) :
    Decodes (f <$> scan) wellFormed write fun _ item found ↦ found = value' item := by
  refine (Reads.map h f).congr fun _ bytes found ↦ ?_
  constructor
  · rintro ⟨_, ⟨item, hitem, rfl, rfl⟩, rfl⟩
    exact ⟨item, hitem, rfl, hf item⟩
  · rintro ⟨item, hitem, rfl, rfl⟩
    exact ⟨value item, ⟨item, hitem, rfl, rfl⟩, (hf item).symm⟩

/-- The bits of four bytes. -/
theorem decodes_f32 :
    Decodes f32 (fun _ ↦ True) (fun bits ↦ .ofNat 4 bits.toNat)
      fun _ bits value ↦ value = bits := by
  unfold f32
  rw [← map_eq_pure_bind]
  refine (decodes_unsigned UInt32.toNat UInt32.toNat_lt fun value hvalue ↦ ?_).map
    fun _ ↦ UInt32.ofNat_toNat
  exact ⟨.ofNat value, UInt32.toNat_ofNat_of_lt' hvalue⟩

/-- The bits of eight bytes. -/
theorem decodes_f64 :
    Decodes f64 (fun _ ↦ True) (fun bits ↦ .ofNat 8 bits.toNat)
      fun _ bits value ↦ value = bits := by
  unfold f64
  rw [← map_eq_pure_bind]
  refine (decodes_unsigned UInt64.toNat UInt64.toNat_lt fun value hvalue ↦ ?_).map
    fun _ ↦ UInt64.ofNat_toNat
  exact ⟨.ofNat value, UInt64.toNat_ofNat_of_lt' hvalue⟩

end Scan

end ClassInspect
