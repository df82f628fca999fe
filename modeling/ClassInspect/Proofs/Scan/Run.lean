import ClassInspect.Proofs.Outcome
import ClassInspect.Scan.Progress

/-!
# Runs of scans

What a scan does to its cursor, with the log left out. A `Scan.run` is the outcome and the cursor
behind it, also behind a failure, so that two runs can be compared although they were started
with different logs.

A cursor only ever moves forwards over the bytes ahead (`Cursor.advance`), and all that its
future depends on besides these bytes is its `Mark`: where the data begins in its file, and how
far the cursor has come in it.
-/

namespace ClassInspect

/-- Where a scan stands: its data begins at `base` in the file, and `pos` bytes of it are behind
the cursor. -/
structure Mark where
  base : Int
  pos : Nat
  deriving DecidableEq, Repr

namespace Mark

/-- The position in the file. -/
def place (m : Mark) : Int :=
  m.base + m.pos

/-- The mark `count` bytes further on. -/
def after (m : Mark) (count : Nat) : Mark :=
  { m with pos := m.pos + count }

@[simp] theorem place_start (base : Int) : place ⟨base, 0⟩ = base := by
  simp [place]

@[simp] theorem after_zero (m : Mark) : m.after 0 = m :=
  rfl

@[simp] theorem after_after (m : Mark) (i j : Nat) : (m.after i).after j = m.after (i + j) := by
  simp [after, Nat.add_assoc]

@[simp] theorem pos_after (m : Mark) (count : Nat) : (m.after count).pos = m.pos + count :=
  rfl

@[simp] theorem base_after (m : Mark) (count : Nat) : (m.after count).base = m.base :=
  rfl

@[simp] theorem place_after (m : Mark) (count : Nat) :
    (m.after count).place = m.place + count := by
  simp only [place, after, Int.natCast_add]
  omega

end Mark

namespace Cursor

/-- The mark of a cursor. -/
def mark (c : Cursor) : Mark :=
  ⟨c.base, c.pos⟩

/-- The cursor `count` bytes further on. -/
def advance (c : Cursor) (count : Nat) : Cursor :=
  { c with pos := c.pos + count, rest := c.rest.drop count }

@[simp] theorem place_mark (c : Cursor) : c.mark.place = c.place :=
  rfl

@[simp] theorem pos_mark (c : Cursor) : c.mark.pos = c.pos :=
  rfl

@[simp] theorem mark_start (data : Bytes) (base : Int) : (start data base).mark = ⟨base, 0⟩ :=
  rfl

@[simp] theorem rest_start (data : Bytes) (base : Int) : (start data base).rest = data :=
  rfl

@[simp] theorem advance_zero (c : Cursor) : c.advance 0 = c := by
  simp [advance]

@[simp] theorem advance_advance (c : Cursor) (i j : Nat) :
    (c.advance i).advance j = c.advance (i + j) := by
  simp [advance, Nat.add_assoc]

@[simp] theorem mark_advance (c : Cursor) (count : Nat) :
    (c.advance count).mark = c.mark.after count :=
  rfl

@[simp] theorem pos_advance (c : Cursor) (count : Nat) : (c.advance count).pos = c.pos + count :=
  rfl

@[simp] theorem rest_advance (c : Cursor) (count : Nat) :
    (c.advance count).rest = c.rest.drop count :=
  rfl

@[simp] theorem data_advance (c : Cursor) (count : Nat) : (c.advance count).data = c.data :=
  rfl

/-- Behind the bytes of a prefix stands what follows the prefix. -/
theorem prefix_rest_advance {c : Cursor} {front back : Bytes} (h : front ++ back <+: c.rest) :
    back <+: (c.advance front.length).rest := by
  obtain ⟨tail, h⟩ := h
  refine ⟨tail, ?_⟩
  rw [rest_advance, ← h, List.append_assoc, List.drop_left]

/-- Two prefixes in a row are a prefix. -/
theorem append_prefix_rest {c : Cursor} {front back : Bytes} (hfront : front <+: c.rest)
    (hback : back <+: (c.advance front.length).rest) : front ++ back <+: c.rest := by
  obtain ⟨tail, hfront⟩ := hfront
  obtain ⟨tail', hback⟩ := hback
  refine ⟨tail', ?_⟩
  rw [rest_advance, ← hfront, List.drop_left] at hback
  rw [List.append_assoc, hback, hfront]

/-- A prefix with nothing behind it is all that was ahead. -/
theorem eq_rest_of_ahead {c : Cursor} {bytes : Bytes} (h : bytes <+: c.rest)
    (hrest : (c.advance bytes.length).rest = []) : bytes = c.rest := by
  rw [rest_advance, List.drop_eq_nil_iff] at hrest
  exact h.eq_of_length (Nat.le_antisymm h.length_le hrest)

end Cursor

namespace Scan

variable {α β : Type}

/-- The outcome of a scan and the cursor behind it. -/
def run (scan : Scan α) (s : State) : Except Fault α × Cursor :=
  match scan s with
  | .ok value t => (.ok value, t.cursor)
  | .error fault t => (.error fault, t.cursor)

/-- A run that succeeds is a scan that succeeds, with some log behind it. -/
theorem run_eq_ok_iff {scan : Scan α} {s : State} {value : α} {c : Cursor} :
    run scan s = (.ok value, c) ↔ ∃ log, scan s = .ok value ⟨c, log⟩ := by
  unfold run
  cases scan s with
  | ok first t =>
    constructor
    · intro h
      cases h
      exact ⟨t.log, rfl⟩
    · rintro ⟨log, h⟩
      cases h
      rfl
  | error fault t => simp

/-- A run that fails is a scan that fails, with some log behind it. -/
theorem run_eq_error_iff {scan : Scan α} {s : State} {fault : Fault} {c : Cursor} :
    run scan s = (.error fault, c) ↔ ∃ log, scan s = .error fault ⟨c, log⟩ := by
  unfold run
  cases scan s with
  | ok first t => simp
  | error fault' t =>
    constructor
    · intro h
      cases h
      exact ⟨t.log, rfl⟩
    · rintro ⟨log, h⟩
      cases h
      rfl

@[simp] theorem run_pure (value : α) (s : State) : run (pure value) s = (.ok value, s.cursor) :=
  rfl

@[simp] theorem run_throw (fault : Fault) (s : State) :
    run (throw fault : Scan α) s = (.error fault, s.cursor) :=
  rfl

@[simp] theorem run_fail (problem : Problem) (offset : Int) (s : State) :
    run (fail problem offset : Scan α) s = (.error (.format problem (some offset)), s.cursor) :=
  rfl

@[simp] theorem run_place (s : State) : run place s = (.ok s.cursor.place, s.cursor) :=
  rfl

@[simp] theorem run_pos (s : State) : run pos s = (.ok s.cursor.pos, s.cursor) :=
  rfl

@[simp] theorem run_note (level : Log.Level) (source : Log.Source) (message : Text) (s : State) :
    run (note level source message) s = (.ok (), s.cursor) :=
  rfl

@[simp] theorem run_ofExcept (outcome : Except Fault α) (s : State) :
    run (ofExcept outcome) s = (outcome, s.cursor) := by
  cases outcome <;> rfl

/-- After a success the next scan goes on where the first stopped. -/
theorem run_bind_of_ok {scan : Scan α} {s : State} {value : α} {c : Cursor}
    (h : run scan s = (.ok value, c)) (next : α → Scan β) :
    ∃ log, run (scan >>= next) s = run (next value) ⟨c, log⟩ := by
  obtain ⟨log, h⟩ := run_eq_ok_iff.1 h
  refine ⟨log, ?_⟩
  unfold run
  simp only [bind, EStateM.bind, h]

/-- A failure is not followed by anything. -/
theorem run_bind_of_error {scan : Scan α} {s : State} {fault : Fault} {c : Cursor}
    (h : run scan s = (.error fault, c)) (next : α → Scan β) :
    run (scan >>= next) s = (.error fault, c) := by
  obtain ⟨log, h⟩ := run_eq_error_iff.1 h
  unfold run
  simp only [bind, EStateM.bind, h]

/-- Two scans in a row succeed if both do, the second from where the first stopped. -/
theorem run_bind_eq_ok_iff {scan : Scan α} {next : α → Scan β} {s : State} {value : β}
    {c : Cursor} :
    run (scan >>= next) s = (.ok value, c) ↔
      ∃ first t, scan s = .ok first t ∧ run (next first) t = (.ok value, c) := by
  rw [run_eq_ok_iff]
  constructor
  · rintro ⟨log, h⟩
    obtain ⟨first, t, hscan, hnext⟩ := bind_eq_ok_iff.1 h
    exact ⟨first, t, hscan, run_eq_ok_iff.2 ⟨log, hnext⟩⟩
  · rintro ⟨first, t, hscan, hnext⟩
    obtain ⟨log, hnext⟩ := run_eq_ok_iff.1 hnext
    exact ⟨log, bind_eq_ok_iff.2 ⟨first, t, hscan, hnext⟩⟩

/-! ### Taking bytes -/

/-- With enough bytes ahead, taking answers them and moves behind them. -/
theorem run_take_of_le {size : Nat} {s : State} (h : size ≤ s.cursor.rest.length) :
    run (take size) s = (.ok (s.cursor.rest.take size), s.cursor.advance size) := by
  have hsplit : Bytes.split? size s.cursor.rest =
      some (s.cursor.rest.take size, s.cursor.rest.drop size) :=
    Bytes.split?_eq_some_iff.2 ⟨h, rfl, rfl⟩
  have hnonneg : ¬ (size : Int) < 0 := by omega
  simp only [run, take, Cursor.take, hnonneg, if_false, Int.toNat_natCast, hsplit, Cursor.advance]

/-- With too few bytes ahead, taking fails on the spot. -/
theorem run_take_of_lt {size : Nat} {s : State} (h : s.cursor.rest.length < size) :
    run (take size) s = (.error (.format (.truncated size s.cursor.rest.length)
      (some s.cursor.place)), s.cursor) := by
  have hsplit : Bytes.split? size s.cursor.rest = none := by
    rw [Option.eq_none_iff_forall_ne_some]
    rintro ⟨front, rest⟩ hsome
    have := (Bytes.split?_eq_some_iff.1 hsome).1
    omega
  have hnonneg : ¬ (size : Int) < 0 := by omega
  simp only [run, take, Cursor.take, hnonneg, if_false, Int.toNat_natCast, hsplit,
    Cursor.remaining]

/-- The bytes taken are as many as were asked for. -/
theorem length_of_run_take {size : Nat} {s : State} {bytes : Bytes} {c : Cursor}
    (h : run (take size) s = (.ok bytes, c)) : bytes.length = size := by
  rcases Nat.lt_or_ge s.cursor.rest.length size with hlt | hle
  · rw [run_take_of_lt hlt] at h
    cases h
  · rw [run_take_of_le hle] at h
    cases h
    rw [List.length_take]
    omega

/-- The bytes taken for a number always fill it, so reading a number is taking its bytes. -/
theorem unsigned_eq (size : Nat) : unsigned size = (do return Bytes.toNat (← take size)) := by
  funext s
  show EStateM.bind (take size) (number size) s = EStateM.bind (take size) _ s
  unfold EStateM.bind
  cases h : take size s with
  | error fault t => rfl
  | ok bytes t =>
    have hlength : bytes.length = size := length_of_run_take (run_eq_ok_iff.2 ⟨t.log, h⟩)
    simp only [number, hlength, if_true]

/-! ### Scans within data of their own -/

/-- A scan over other data leaves the cursor where it is. -/
theorem run_within (data : Bytes) (base : Int) (scan : Scan α) (s : State) :
    run (within data base scan) s = ((run scan ⟨.start data base, s.log⟩).1, s.cursor) := by
  unfold run within
  cases scan ⟨.start data base, s.log⟩ <;> rfl

/-- What a scan that must leave no byte makes of a success. -/
theorem run_exhaust_of_ok {problem : Nat → Problem} {scan : Scan α} {s : State} {value : α}
    {c : Cursor} (h : run scan s = (.ok value, c)) :
    run (exhaust problem scan) s =
      (if c.rest = [] then .ok value
        else .error (.format (problem c.rest.length) (some c.place)), c) := by
  -- what is left is looked at in the state behind the scan
  obtain ⟨log, hbind⟩ := run_bind_of_ok h fun value ↦ (do
    let cursor := (← get).cursor
    unless cursor.atEnd do
      failHere (problem cursor.remaining)
    return value : Scan α)
  show run (scan >>= _) s = _
  rw [hbind]
  show run (do
    unless c.atEnd do
      failHere (problem c.remaining)
    return value : Scan α) ⟨c, log⟩ = _
  have hatEnd : c.atEnd = true ↔ c.rest = [] := List.isEmpty_iff
  by_cases hend : c.atEnd = true
  · rw [if_pos hend, if_pos (hatEnd.1 hend)]
    rfl
  · rw [if_neg hend, if_neg fun hrest ↦ hend (hatEnd.2 hrest)]
    rfl

/-- A scan that must leave no byte fails where the scan itself does. -/
theorem run_exhaust_of_error {problem : Nat → Problem} {scan : Scan α} {s : State}
    {fault : Fault} {c : Cursor} (h : run scan s = (.error fault, c)) :
    run (exhaust problem scan) s = (.error fault, c) :=
  run_bind_of_error h _

/-! ### Repetition to the end of the data -/

/-- No results come from data without bytes, and from no other. -/
theorem mapM_trace_eq_nil_iff {scan : Scan α} (progress : Progresses scan) (s : State) :
    (trace scan progress s).mapM Prod.fst = .ok [] ↔ s.cursor.rest = [] := by
  rw [trace_eq]
  split
  · rename_i hend
    exact iff_of_true rfl (List.isEmpty_iff.1 hend)
  · rename_i hend
    refine iff_of_false ?_ fun hrest ↦ hend (List.isEmpty_iff.2 hrest)
    split
    · rw [List.mapM_cons, ClassInspect.bind_eq_ok_iff]
      rintro ⟨value, -, hrest⟩
      obtain ⟨values, -, hcons⟩ := ClassInspect.bind_eq_ok_iff.1 hrest
      cases hcons
    · intro h
      cases h

/-- The first result is that of one scan, and the others come from behind it. -/
theorem mapM_trace_eq_cons_iff {scan : Scan α} (progress : Progresses scan) (s : State)
    (value : α) (values : List α) :
    (trace scan progress s).mapM Prod.fst = .ok (value :: values) ↔
      ∃ t, scan s = .ok value t ∧ (trace scan progress t).mapM Prod.fst = .ok values := by
  rw [trace_eq]
  split
  · -- a scan that makes progress needs a byte
    rename_i hend
    refine iff_of_false (fun h ↦ by cases h) ?_
    rintro ⟨t, hscan, -⟩
    have hlt := progress _ _ _ hscan
    rw [List.isEmpty_iff.1 hend] at hlt
    exact absurd hlt (Nat.not_lt_zero _)
  · split
    · rename_i found t hscan
      rw [List.mapM_cons, ClassInspect.bind_eq_ok_iff]
      constructor
      · rintro ⟨_, hfound, hrest⟩
        obtain ⟨_, hvalues, hcons⟩ := ClassInspect.bind_eq_ok_iff.1 hrest
        cases hfound
        cases hcons
        exact ⟨t, hscan, hvalues⟩
      · rintro ⟨t', hscan', hvalues⟩
        rw [hscan] at hscan'
        cases hscan'
        exact ⟨value, rfl, ClassInspect.bind_eq_ok_iff.2 ⟨values, hvalues, rfl⟩⟩
    · rename_i fault t hscan
      refine iff_of_false (fun h ↦ by cases h) ?_
      rintro ⟨t', hscan', -⟩
      rw [hscan] at hscan'
      cases hscan'

/-- After a success the repetition goes on behind it. -/
theorem mapM_trace_of_ok {scan : Scan α} (progress : Progresses scan) {s t : State} {value : α}
    (h : scan s = .ok value t) :
    (trace scan progress s).mapM Prod.fst =
      ((trace scan progress t).mapM Prod.fst).map (value :: ·) := by
  have hrest : s.cursor.atEnd = false := by
    have hlt := progress _ _ _ h
    exact List.isEmpty_eq_false_iff.2 (List.ne_nil_of_length_pos (Nat.zero_lt_of_lt hlt))
  rw [trace_eq, hrest, h]
  show ((Except.ok value, t) :: trace scan progress t).mapM Prod.fst = _
  rw [List.mapM_cons]
  show ((trace scan progress t).mapM Prod.fst >>= fun values ↦ pure (value :: values)) = _
  cases (trace scan progress t).mapM Prod.fst <;> rfl

/-- A failure ends the repetition, unless the data ended before. -/
theorem mapM_trace_of_error {scan : Scan α} (progress : Progresses scan) {s t : State}
    {fault : Fault} (hrest : s.cursor.rest ≠ []) (h : scan s = .error fault t) :
    (trace scan progress s).mapM Prod.fst = .error fault := by
  have hend : s.cursor.atEnd = false := List.isEmpty_eq_false_iff.2 hrest
  rw [trace_eq, hend, h]
  rfl

/-- A failure is that of one of the scans. -/
theorem exists_run_of_mapM_trace {scan : Scan α} (progress : Progresses scan) {s : State}
    {fault : Fault} (h : (trace scan progress s).mapM Prod.fst = .error fault) :
    ∃ t c, run scan t = (.error fault, c) := by
  -- every scan but the last leaves fewer bytes ahead
  induction hlength : s.cursor.rest.length using Nat.strongRecOn generalizing s with
  | ind length ih =>
    rw [trace_eq] at h
    split at h
    · cases h
    · split at h
      · rename_i value t hscan
        have hless : t.cursor.rest.length < length := hlength ▸ progress _ _ _ hscan
        rw [List.mapM_cons, ClassInspect.bind_eq_error_iff] at h
        obtain h | ⟨_, -, h⟩ := h
        · cases h
        · obtain h | ⟨_, -, h⟩ := ClassInspect.bind_eq_error_iff.1 h
          · exact ih _ hless h rfl
          · cases h
      · rename_i fault' t hscan
        cases h
        exact ⟨s, t.cursor, run_eq_error_iff.2 ⟨t.log, hscan⟩⟩

end Scan

end ClassInspect
