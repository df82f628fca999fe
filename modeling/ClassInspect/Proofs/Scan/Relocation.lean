import ClassInspect.Proofs.Scan.Run

/-!
# Scans in another place

The same bytes are scanned twice, the second time with some more bytes behind the cursor. Two scans
relocate (`Scan.Relocates`) if they then end alike: they succeed with values that differ in the
positions they hold, and go on from cursors that are as far apart as before, or they fail with the
same problem at positions that far apart. This is shown for each step of a scan and carried over its
parts by `Relocates.bind`, and over repetition to the end of the data by one induction
(`Relocates.mapM_trace`).
-/

namespace ClassInspect

/-! ### Cursors apart -/

namespace Cursor

/-- The second cursor has the same bytes ahead as the first, and `distance` more behind it. -/
structure Relocated (distance : Nat) (c c' : Cursor) : Prop where
  base : c'.base = c.base
  pos : c'.pos = c.pos + distance
  rest : c'.rest = c.rest

variable {distance : Nat} {c c' : Cursor}

theorem Relocated.place (h : c.Relocated distance c') : c'.place = c.place + distance := by
  rw [Cursor.place, Cursor.place, h.base, h.pos, Int.natCast_add, Int.add_assoc]

theorem Relocated.advance (h : c.Relocated distance c') (count : Nat) :
    (c.advance count).Relocated distance (c'.advance count) where
  base := h.base
  pos := by
    rw [pos_advance, pos_advance, h.pos]
    omega
  rest := by rw [rest_advance, rest_advance, h.rest]

end Cursor

/-! ### Scans that relocate -/

namespace Scan

variable {α β γ δ : Type} {distance : Nat}

/-- From cursors that are `distance` apart two scans end alike. A value of the first becomes one of
the second by moving the positions in it. -/
def Relocates (distance : Nat) (move : α → β) (scan : Scan α) (scan' : Scan β) : Prop :=
  ∀ s s' : State, s.cursor.Relocated distance s'.cursor →
    (∃ value c c', run scan s = (.ok value, c) ∧ run scan' s' = (.ok (move value), c') ∧
      c.Relocated distance c') ∨
    (∃ problem offset c c', run scan s = (.error (.format problem (some offset)), c) ∧
      run scan' s' = (.error (.format problem (some (offset + distance))), c'))

namespace Relocates

theorem pure {move : α → β} {value : α} {value' : β} (h : value' = move value) :
    Relocates distance move (pure value) (pure value') := by
  intro s s' hs
  subst h
  exact .inl ⟨value, s.cursor, s'.cursor, rfl, rfl, hs⟩

theorem fail (move : α → β) (problem : Problem) {offset offset' : Int}
    (h : offset' = offset + distance) :
    Relocates distance move (fail problem offset) (fail problem offset') := by
  intro s s' _
  subst h
  exact .inr ⟨problem, offset, s.cursor, s'.cursor, rfl, rfl⟩

theorem pos : Relocates distance (· + distance) pos pos := by
  intro s s' hs
  refine .inl ⟨s.cursor.pos, s.cursor, s'.cursor, rfl, ?_, hs⟩
  rw [run_pos, hs.pos]

/-- The bytes taken are the same. -/
theorem take (size : Nat) : Relocates distance id (take size) (take size) := by
  intro s s' hs
  rcases Nat.lt_or_ge s.cursor.rest.length size with hlt | hle
  · refine .inr ⟨_, _, s.cursor, s'.cursor, run_take_of_lt hlt, ?_⟩
    rw [run_take_of_lt (by rw [hs.rest]; exact hlt), hs.rest, hs.place]
  · refine .inl ⟨_, s.cursor.advance size, s'.cursor.advance size, run_take_of_le hle, ?_,
      hs.advance size⟩
    rw [run_take_of_le (by rw [hs.rest]; exact hle), hs.rest]
    rfl

/-- Two scans in a row relocate if both do, the second ones behind values that were moved. -/
theorem bind {scan : Scan α} {scan' : Scan β} {move : α → β} {next : α → Scan γ}
    {next' : β → Scan δ} {move' : γ → δ} (h : Relocates distance move scan scan')
    (hnext : ∀ value, Relocates distance move' (next value) (next' (move value))) :
    Relocates distance move' (scan >>= next) (scan' >>= next') := by
  intro s s' hs
  rcases h s s' hs with ⟨value, c, c', hrun, hrun', hc⟩ | ⟨problem, offset, c, c', hrun, hrun'⟩
  · obtain ⟨log, hbind⟩ := run_bind_of_ok hrun next
    obtain ⟨log', hbind'⟩ := run_bind_of_ok hrun' next'
    rw [hbind, hbind']
    exact hnext value ⟨c, log⟩ ⟨c', log'⟩ hc
  · exact .inr ⟨problem, offset, c, c', run_bind_of_error hrun next, run_bind_of_error hrun' next'⟩

/-- What is done with values that hold no position. -/
theorem andThen {scan : Scan α} {next : α → Scan γ} {next' : α → Scan δ} {move : γ → δ}
    (h : Relocates distance id scan scan)
    (hnext : ∀ value, Relocates distance move (next value) (next' value)) :
    Relocates distance move (scan >>= next) (scan >>= next') :=
  h.bind hnext

theorem skip (size : Nat) : Relocates distance id (skip size) (skip size) :=
  (take size).andThen fun _ ↦ .pure rfl

theorem unsigned (size : Nat) : Relocates distance id (unsigned size) (unsigned size) := by
  rw [unsigned_eq]
  exact (take size).andThen fun _ ↦ .pure rfl

theorem signed (size : Nat) : Relocates distance id (signed size) (signed size) :=
  (unsigned size).andThen fun _ ↦ .pure rfl

/-- Repetition moves the values one by one. -/
theorem times {scan : Scan α} {scan' : Scan β} {move : α → β}
    (h : Relocates distance move scan scan') (count : Nat) :
    Relocates distance (List.map move) (times count scan) (times count scan') := by
  induction count with
  | zero => exact .pure rfl
  | succ count ih =>
    rw [times_succ, times_succ]
    exact h.bind fun _ ↦ ih.bind fun _ ↦ .pure rfl

/-- Repetition to the end of the data. Both runs take the same number of scans, since each leaves
the same bytes ahead. -/
theorem mapM_trace {scan : Scan α} (progress : Progresses scan) {move : α → α}
    (h : Relocates distance move scan scan) {s s' : State}
    (hs : s.cursor.Relocated distance s'.cursor) :
    (∃ values, (trace scan progress s).mapM Prod.fst = .ok values ∧
      (trace scan progress s').mapM Prod.fst = .ok (values.map move)) ∨
    (∃ problem offset,
      (trace scan progress s).mapM Prod.fst = .error (.format problem (some offset)) ∧
      (trace scan progress s').mapM Prod.fst =
        .error (.format problem (some (offset + distance)))) := by
  induction hlength : s.cursor.rest.length using Nat.strongRecOn generalizing s s' with
  | ind length ih =>
    by_cases hrest : s.cursor.rest = []
    · have hrest' : s'.cursor.rest = [] := by rw [hs.rest, hrest]
      exact .inl ⟨[], (mapM_trace_eq_nil_iff progress s).2 hrest,
        (mapM_trace_eq_nil_iff progress s').2 hrest'⟩
    have hrest' : s'.cursor.rest ≠ [] := by
      rw [hs.rest]
      exact hrest
    rcases h s s' hs with ⟨value, c, c', hrun, hrun', hc⟩ | ⟨problem, offset, c, c', hrun, hrun'⟩
    · obtain ⟨log, hscan⟩ := run_eq_ok_iff.1 hrun
      obtain ⟨log', hscan'⟩ := run_eq_ok_iff.1 hrun'
      rw [mapM_trace_of_ok progress hscan, mapM_trace_of_ok progress hscan']
      have hless : c.rest.length < length := hlength ▸ progress _ _ _ hscan
      rcases @ih _ hless ⟨c, log⟩ ⟨c', log'⟩ hc rfl with
        ⟨values, hvalues, hvalues'⟩ | ⟨problem, offset, hfault, hfault'⟩
      · rw [hvalues, hvalues']
        exact .inl ⟨value :: values, rfl, rfl⟩
      · rw [hfault, hfault']
        exact .inr ⟨problem, offset, rfl, rfl⟩
    · obtain ⟨log, hscan⟩ := run_eq_error_iff.1 hrun
      obtain ⟨log', hscan'⟩ := run_eq_error_iff.1 hrun'
      exact .inr ⟨problem, offset, mapM_trace_of_error progress hrest hscan,
        mapM_trace_of_error progress hrest' hscan'⟩

end Relocates

end Scan

end ClassInspect
