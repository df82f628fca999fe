import ClassInspect.Proofs.Scan.Stepwise

/-!
# Computations and the log they find

A computation that only writes to its log does the same whatever stands in the log already. This
is said with changes of the state. A computation carries a change along (`Carries`) if from the
changed state it ends in the same way, with the same change made to the state it leaves.

* A stepwise scan carries along every change of the log that leaves room for more records at the
  end (`Scan.Stepwise.carries`), such as putting other records in front.
* A scan that writes no record carries every change of the log along (`Scan.Silent`).
-/

namespace ClassInspect

variable {σ α β : Type}

/-- The result with a change made to the state that it leaves. -/
def changeState (f : σ → σ) : EStateM.Result Fault σ α → EStateM.Result Fault σ α
  | .ok value s => .ok value (f s)
  | .error fault s => .error fault (f s)

/-- The computation ends in the same way from a changed state, and leaves a changed state. -/
def Carries (f : σ → σ) (computation : EStateM Fault σ α) : Prop :=
  ∀ s, computation (f s) = changeState f (computation s)

theorem changeState_changeState (f g : σ → σ) (result : EStateM.Result Fault σ α) :
    changeState f (changeState g result) = changeState (f ∘ g) result := by
  cases result <;> rfl

section Bind

variable {first first' : EStateM Fault σ α} {next : α → EStateM Fault σ β} {f : σ → σ} {s s' : σ}

theorem bind_apply_of_ok {value : α} (h : first s = .ok value s') :
    (first >>= next) s = next value s' := by
  simp only [bind, EStateM.bind, h]

theorem bind_apply_of_error {fault : Fault} (h : first s = .error fault s') :
    (first >>= next) s = .error fault s' := by
  simp only [bind, EStateM.bind, h]

/-- What follows carries on the change between two results. -/
theorem bind_eq_changeState (h : first' s' = changeState f (first s))
    (hnext : ∀ value, Carries f (next value)) :
    (first' >>= next) s' = changeState f ((first >>= next) s) := by
  rcases hfirst : first s with ⟨value, t⟩ | ⟨fault, t⟩
  · rw [hfirst] at h
    rw [bind_apply_of_ok h, bind_apply_of_ok hfirst]
    exact hnext value t
  · rw [hfirst] at h
    rw [bind_apply_of_error h, bind_apply_of_error hfirst]
    rfl

end Bind

namespace Carries

variable {f : σ → σ}

theorem pure (value : α) : Carries f (pure value) :=
  fun _ ↦ rfl

theorem throw (fault : Fault) : Carries f (throw fault : EStateM Fault σ α) :=
  fun _ ↦ rfl

theorem bind {first : EStateM Fault σ α} {next : α → EStateM Fault σ β} (h : Carries f first)
    (hnext : ∀ value, Carries f (next value)) : Carries f (first >>= next) :=
  fun s ↦ bind_eq_changeState (h s) hnext

end Carries

/-- A change that commutes with the writing of records. -/
def Log.KeepsEnd (f : Log → Log) : Prop :=
  ∀ log record, f (log.push record) = (f log).push record

theorem Log.keepsEnd_append (log : Log) : KeepsEnd (log ++ ·) :=
  fun _ _ ↦ Array.append_push

namespace Scan

/-- The state with a change made to its log. -/
def State.relog (f : Log → Log) (s : State) : State :=
  { s with log := f s.log }

variable {f : Log → Log}

theorem carries_take (size : Int) : Carries (State.relog f) (take size) := by
  intro s
  rw [take, take, State.relog]
  cases s.cursor.take size <;> rfl

theorem carries_exhaust {scan : Scan α} (h : Carries (State.relog f) scan)
    (problem : Nat → Problem) : Carries (State.relog f) (exhaust problem scan) := by
  refine h.bind fun value s ↦ ?_
  -- what is left is looked at in the state, which has the same cursor
  show (do
    unless s.cursor.atEnd do
      failHere (problem s.cursor.remaining)
    return value : Scan α) (s.relog f) = changeState _ ((do
    unless s.cursor.atEnd do
      failHere (problem s.cursor.remaining)
    return value : Scan α) s)
  cases s.cursor.atEnd <;> rfl

theorem carries_within {scan : Scan α} (h : Carries (State.relog f) scan) (data : Bytes)
    (base : Int) : Carries (State.relog f) (within data base scan) := by
  intro s
  have hinner := h ⟨.start data base, s.log⟩
  rw [State.relog] at hinner
  rw [within, within, State.relog, hinner]
  cases scan ⟨.start data base, s.log⟩ <;> rfl

theorem Stepwise.carries {allowed : Fault → Prop} {scan : Scan α} (h : Stepwise allowed scan)
    (hf : Log.KeepsEnd f) : Carries (State.relog f) scan := by
  induction h with
  | pure value => exact .pure value
  | throw => exact .throw _
  | place | pos => exact fun _ ↦ rfl
  | note level source message =>
    intro s
    show EStateM.Result.ok () (State.mk s.cursor ((f s.log).push ⟨level, source, message⟩)) =
      .ok () ⟨s.cursor, f (s.log.push ⟨level, source, message⟩)⟩
    rw [hf]
  | take size => exact carries_take size
  | within problem data base _ _ ih => exact carries_within (carries_exhaust ih problem) data base
  | bind _ _ ih ihnext => exact ih.bind ihnext

/-! ### Silent scans -/

/-- The scan writes no record and takes no notice of any. -/
def Silent (scan : Scan α) : Prop :=
  ∀ f, Carries (State.relog f) scan

namespace Silent

variable {scan : Scan α} {s : State} {c : Cursor}

theorem pure (value : α) : Silent (pure value) :=
  fun _ ↦ .pure value

theorem throw (fault : Fault) : Silent (throw fault : Scan α) :=
  fun _ ↦ .throw fault

theorem fail (problem : Problem) (offset : Int) : Silent (Scan.fail problem offset : Scan α) :=
  .throw _

theorem place : Silent Scan.place :=
  fun _ _ ↦ rfl

theorem take (size : Int) : Silent (Scan.take size) :=
  fun _ ↦ carries_take size

theorem bind {next : α → Scan β} (h : Silent scan) (hnext : ∀ value, Silent (next value)) :
    Silent (scan >>= next) :=
  fun f ↦ (h f).bind fun value ↦ hnext value f

theorem unsigned (size : Nat) : Silent (Scan.unsigned size) := by
  rw [unsigned_eq]
  exact .bind (.take size) fun _ ↦ .pure _

theorem signed (size : Nat) : Silent (Scan.signed size) :=
  .bind (.unsigned size) fun _ ↦ .pure _

/-- The log stays as it was. -/
theorem eq_ok_of_run {value : α} (h : Silent scan) (hrun : run scan s = (.ok value, c)) :
    scan s = .ok value ⟨c, s.log⟩ := by
  obtain ⟨log, hscan⟩ := run_eq_ok_iff.1 hrun
  -- the old log put in the place of the new one changes nothing
  have hsame := h (fun _ ↦ s.log) s
  rw [hscan] at hsame
  exact hsame

theorem eq_error_of_run {fault : Fault} (h : Silent scan) (hrun : run scan s = (.error fault, c)) :
    scan s = .error fault ⟨c, s.log⟩ := by
  obtain ⟨log, hscan⟩ := run_eq_error_iff.1 hrun
  have hsame := h (fun _ ↦ s.log) s
  rw [hscan] at hsame
  exact hsame

end Silent

theorem unsigned_of_le {size : Nat} {s : State} (h : size ≤ s.cursor.rest.length) :
    unsigned size s =
      .ok (Bytes.toNat (s.cursor.rest.take size)) ⟨s.cursor.advance size, s.log⟩ := by
  rw [unsigned_eq, bind_apply_of_ok ((Silent.take size).eq_ok_of_run (run_take_of_le h))]
  rfl

theorem unsigned_of_lt {size : Nat} {s : State} (h : s.cursor.rest.length < size) :
    unsigned size s = .error (shortage size s.cursor.rest.length s.cursor.place) s := by
  rw [unsigned_eq, bind_apply_of_error ((Silent.take size).eq_error_of_run (run_take_of_lt h))]
  rfl

end Scan

end ClassInspect
