import ClassInspect.Proofs.Scan.Stepwise

/-!
# Scans only advance

A scan moves its cursor forwards over bytes that are ahead, or not at all, and this holds also where
it gave up in the middle (`Scan.Advances`). Local scans do so by what they are, and the look at what
is left of the data moves nothing of its own.
-/

namespace ClassInspect

/-! ### Cursors that were moved -/

namespace Cursor

/-- The second cursor is the first, moved forwards over bytes that are there. -/
def Forwards (c c' : Cursor) : Prop :=
  ∃ count ≤ c.rest.length, c' = c.advance count

variable {c c' c'' : Cursor}

theorem Forwards.refl (c : Cursor) : c.Forwards c :=
  ⟨0, Nat.zero_le _, (advance_zero c).symm⟩

theorem Forwards.trans (h : c.Forwards c') (h' : c'.Forwards c'') : c.Forwards c'' := by
  obtain ⟨count, hcount, rfl⟩ := h
  obtain ⟨count', hcount', rfl⟩ := h'
  rw [rest_advance, List.length_drop] at hcount'
  exact ⟨count + count', by omega, advance_advance c count count'⟩

/-- What is ahead of a valid cursor is as long as the data behind its position. -/
theorem Valid.remaining_eq (h : c.Valid) : c.remaining = c.data.length - c.pos := by
  rw [remaining, h.1, List.length_drop]

theorem Forwards.valid (h : c.Forwards c') (hc : c.Valid) : c'.Valid := by
  have hremaining := hc.remaining_eq
  obtain ⟨count, hcount, rfl⟩ := h
  rw [remaining] at hremaining
  refine ⟨?_, ?_⟩
  · rw [rest_advance, data_advance, pos_advance, hc.1, List.drop_drop]
  · have hpos := hc.2
    rw [data_advance, pos_advance]
    omega

theorem Forwards.data_eq (h : c.Forwards c') : c'.data = c.data := by
  obtain ⟨count, -, rfl⟩ := h
  rfl

theorem Forwards.base_eq (h : c.Forwards c') : c'.base = c.base := by
  obtain ⟨count, -, rfl⟩ := h
  rfl

theorem Forwards.pos_le (h : c.Forwards c') : c.pos ≤ c'.pos := by
  obtain ⟨count, -, rfl⟩ := h
  exact Nat.le_add_right _ _

end Cursor

/-! ### Scans that only advance -/

namespace Scan

variable {α β : Type}

/-- However it ends, the scan has moved its cursor forwards or left it alone. -/
def Advances (scan : Scan α) : Prop :=
  ∀ s : State, s.cursor.Forwards (run scan s).2

theorem IsLocal.advances {scan : Scan α} (h : IsLocal scan) : Advances scan := by
  intro s
  rcases h s with ⟨taken, outcome, hahead, hends⟩ | ⟨taken, needed, hahead, hshort, hstarves⟩
  · rw [hends s rfl hahead]
    exact ⟨taken.length, hahead.length_le, rfl⟩
  · rw [hstarves s rfl hahead hshort]
    exact ⟨taken.length, hahead.length_le, rfl⟩

theorem Advances.bind {scan : Scan α} {next : α → Scan β} (h : Advances scan)
    (hnext : ∀ value, Advances (next value)) : Advances (scan >>= next) := by
  intro s
  have hfirst := h s
  rcases hscan : run scan s with ⟨fault | value, c⟩
  · rw [hscan] at hfirst
    rw [run_bind_of_error hscan]
    exact hfirst
  · rw [hscan] at hfirst
    obtain ⟨log, hbind⟩ := run_bind_of_ok hscan next
    rw [hbind]
    exact hfirst.trans (hnext value ⟨c, log⟩)

theorem Advances.map {scan : Scan α} (h : Advances scan) (f : α → β) : Advances (f <$> scan) := by
  rw [map_eq_pure_bind]
  exact h.bind fun _ s ↦ .refl s.cursor

/-- The look at what is left moves nothing. -/
theorem Advances.exhaust {scan : Scan α} (h : Advances scan) (problem : Nat → Problem) :
    Advances (exhaust problem scan) := by
  intro s
  have hscan := h s
  rcases hrun : run scan s with ⟨fault | value, c⟩
  · rw [hrun] at hscan
    rw [run_exhaust_of_error hrun]
    exact hscan
  · rw [hrun] at hscan
    rw [run_exhaust_of_ok hrun]
    exact hscan

/-- A negative number of bytes is refused on the spot. -/
theorem run_take_of_neg {size : Int} (h : size < 0) (s : State) :
    run (take size) s = (.error (.negativeSize size), s.cursor) := by
  simp only [run, take, Cursor.take, h, if_true]

theorem advances_take (size : Int) : Advances (take size) := by
  rcases Int.lt_or_le size 0 with hneg | hnonneg
  · intro s
    rw [run_take_of_neg hneg]
    exact .refl s.cursor
  · obtain ⟨count, rfl⟩ := Int.eq_ofNat_of_zero_le hnonneg
    exact (IsLocal.take count).advances

theorem advances_ofExcept (outcome : Except Fault α) : Advances (ofExcept outcome) := by
  intro s
  rw [run_ofExcept]
  exact .refl s.cursor

end Scan

end ClassInspect
