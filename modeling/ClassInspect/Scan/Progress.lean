import ClassInspect.Scan

/-!
# Progress of scans

A scan that succeeds leaves at most as many bytes ahead as it found (`Shrinks`), and one that
takes at least one byte leaves fewer (`Progresses`). A progressing scan can be repeated up to
the end of the data; `Scan.trace` does so and keeps every outcome.
-/

namespace ClassInspect.Scan

variable {α β : Type}

/-- A success leaves at most as many bytes ahead. -/
def Shrinks (scan : Scan α) : Prop :=
  ∀ (s s' : State) (value : α), scan s = .ok value s' →
    s'.cursor.rest.length ≤ s.cursor.rest.length

/-- A success leaves fewer bytes ahead. -/
def Progresses (scan : Scan α) : Prop :=
  ∀ (s s' : State) (value : α), scan s = .ok value s' →
    s'.cursor.rest.length < s.cursor.rest.length

/-- A success of two scans in a row is a success of both. -/
theorem bind_eq_ok_iff {scan : Scan α} {next : α → Scan β} {s s' : State} {value : β} :
    (scan >>= next) s = .ok value s' ↔
      ∃ first t, scan s = .ok first t ∧ next first t = .ok value s' := by
  simp only [bind, EStateM.bind]
  cases scan s with
  | ok first t =>
    constructor
    · exact fun h ↦ ⟨first, t, rfl, h⟩
    · rintro ⟨_, _, h₁, h₂⟩
      cases h₁
      exact h₂
  | error fault t => simp

theorem Shrinks.pure (value : α) : Shrinks (Pure.pure value : Scan α) := by
  intro s s' value' h
  simp only [Pure.pure, EStateM.pure, EStateM.Result.ok.injEq] at h
  exact h.2 ▸ Nat.le_refl _

theorem Shrinks.throw (fault : Fault) : Shrinks (MonadExcept.throw fault : Scan α) := by
  intro s s' value h
  exact nomatch show EStateM.Result.error fault s = .ok value s' from h

theorem Shrinks.get : Shrinks (MonadState.get : Scan State) := by
  intro s s' value h
  cases show EStateM.Result.ok s s = .ok value s' from h
  exact Nat.le_refl _

theorem Shrinks.bind {scan : Scan α} {next : α → Scan β} (first : Shrinks scan)
    (second : ∀ value, Shrinks (next value)) : Shrinks (scan >>= next) := by
  intro s s' value h
  obtain ⟨_, _, h₁, h₂⟩ := bind_eq_ok_iff.1 h
  exact Nat.le_trans (second _ _ _ _ h₂) (first _ _ _ h₁)

theorem Progresses.bind {scan : Scan α} {next : α → Scan β} (first : Progresses scan)
    (second : ∀ value, Shrinks (next value)) : Progresses (scan >>= next) := by
  intro s s' value h
  obtain ⟨_, _, h₁, h₂⟩ := bind_eq_ok_iff.1 h
  exact Nat.lt_of_le_of_lt (second _ _ _ _ h₂) (first _ _ _ h₁)

theorem Shrinks.bind_progresses {scan : Scan α} {next : α → Scan β} (first : Shrinks scan)
    (second : ∀ value, Progresses (next value)) : Progresses (scan >>= next) := by
  intro s s' value h
  obtain ⟨_, _, h₁, h₂⟩ := bind_eq_ok_iff.1 h
  exact Nat.lt_of_lt_of_le (second _ _ _ _ h₂) (first _ _ _ h₁)

/-- Taking bytes leaves exactly the others. -/
theorem length_of_take {size : Int} {s s' : State} {bytes : Bytes}
    (h : take size s = .ok bytes s') :
    s.cursor.rest.length = size.toNat + s'.cursor.rest.length := by
  unfold take Cursor.take at h
  by_cases negative : size < 0
  · simp [negative] at h
  · simp only [negative, if_false] at h
    split at h
    · rename_i split
      split at split
      · rename_i front rest found
        simp only [Except.ok.injEq, Prod.mk.injEq] at split
        simp only [EStateM.Result.ok.injEq] at h
        obtain ⟨enough, -, rfl⟩ := Bytes.split?_eq_some_iff.1 found
        rw [← h.2, ← split.2]
        simp only [List.length_drop]
        omega
      · simp at split
    · simp at h

theorem Shrinks.take (size : Int) : Shrinks (Scan.take size) := by
  intro s s' value h
  have := length_of_take h
  omega

theorem Progresses.take {size : Int} (positive : 0 < size) : Progresses (Scan.take size) := by
  intro s s' value h
  have := length_of_take h
  omega

theorem Shrinks.skip (size : Int) : Shrinks (Scan.skip size) :=
  .bind (.take size) fun _ ↦ .pure _

theorem Shrinks.number (size : Nat) (bytes : Bytes) : Shrinks (Scan.number size bytes) := by
  unfold Scan.number
  split
  · exact .pure _
  · exact .throw _

theorem Shrinks.unsigned (size : Nat) : Shrinks (Scan.unsigned size) :=
  .bind (.take size) (.number size)

theorem Shrinks.signed (size : Nat) : Shrinks (Scan.signed size) :=
  .bind (.unsigned size) fun _ ↦ .pure _

theorem Shrinks.pos : Shrinks Scan.pos :=
  .bind .get fun _ ↦ .pure _

theorem Progresses.u8 : Progresses Scan.u8 :=
  Progresses.bind (.take (by decide)) (.number 1)

theorem Shrinks.fail (problem : Problem) (offset : Int) :
    Shrinks (Scan.fail problem offset : Scan α) :=
  .throw _

theorem Shrinks.times {scan : Scan α} (shrinks : Shrinks scan) (count : Nat) :
    Shrinks (Scan.times count scan) := by
  induction count with
  | zero => exact .pure _
  | succ count ih =>
    rw [times_succ]
    exact .bind shrinks fun _ ↦ .bind ih fun _ ↦ .pure _

/-- Repeats a scan up to the end of the data or the first failure, and adds the outcomes, each
with the state behind it, to those in `done`, which has the last one first. -/
def traceOnto (scan : Scan α) (progress : Progresses scan) (s : State)
    (done : List (Except Fault α × State)) : List (Except Fault α × State) :=
  if s.cursor.atEnd then done.reverse
  else
    match _h : scan s with
    | .ok value s' => traceOnto scan progress s' ((.ok value, s') :: done)
    | .error fault s' => ((.error fault, s') :: done).reverse
termination_by s.cursor.rest.length
decreasing_by exact progress _ _ _ _h

/-- The outcomes of a scan repeated up to the end of the data or the first failure. -/
def trace (scan : Scan α) (progress : Progresses scan) (s : State) :
    List (Except Fault α × State) :=
  traceOnto scan progress s []

/-- Outcomes that are already there come first. -/
theorem traceOnto_eq (scan : Scan α) (progress : Progresses scan) (s : State)
    (done : List (Except Fault α × State)) :
    traceOnto scan progress s done = done.reverse ++ trace scan progress s := by
  induction hn : s.cursor.rest.length using Nat.strongRecOn generalizing s done with
  | ind n ih =>
    subst hn
    rw [trace, traceOnto, traceOnto]
    split
    · simp
    · split
      · rename_i found
        have shorter := progress _ _ _ found
        rw [ih _ shorter _ _ rfl, ih _ shorter _ [_] rfl]
        simp
      · simp

/-- A trace is the outcome of one scan and the trace behind it. -/
theorem trace_eq (scan : Scan α) (progress : Progresses scan) (s : State) :
    trace scan progress s =
      if s.cursor.atEnd then []
      else
        match scan s with
        | .ok value s' => (.ok value, s') :: trace scan progress s'
        | .error fault s' => [(.error fault, s')] := by
  rw [trace, traceOnto]
  split
  · rfl
  · cases found : scan s with
    | ok value s' => simp only [traceOnto_eq scan progress s' [_]]; rfl
    | error fault s' => rfl

end ClassInspect.Scan
