import ClassInspect.Logged

/-!
# Outcomes of computations that may fail

Sequences of computations in `Except`, taken apart: a sequence succeeds if each of its parts
does, and a sequence of checks passes if each check does. A sequence that fails does so with the
fault of the first part that fails.

A computation that logs but never looks at its log is one in `Except` as far as its outcome goes
(`Logged.Yields`).
-/

namespace ClassInspect

variable {ε ε' α β : Type}

/-- A computation that gives a value succeeds. -/
theorem exists_eq_ok {outcome : Except ε α} (h : outcome.toOption.isSome = true) :
    ∃ value, outcome = .ok value := by
  cases outcome with
  | error fault => cases h
  | ok value => exact ⟨value, rfl⟩

/-- A success of two computations in a row is a success of both. -/
theorem bind_eq_ok_iff {first : Except ε α} {next : α → Except ε β} {value : β} :
    (first >>= next) = .ok value ↔ ∃ found, first = .ok found ∧ next found = .ok value := by
  cases first with
  | error fault => simp [bind, Except.bind]
  | ok found => simp [bind, Except.bind]

/-- Two computations in a row fail if the first does, or if it succeeds and the second fails. -/
theorem bind_eq_error_iff {first : Except ε α} {next : α → Except ε β} {fault : ε} :
    (first >>= next) = .error fault ↔
      first = .error fault ∨ ∃ found, first = .ok found ∧ next found = .error fault := by
  cases first with
  | error fault => simp [bind, Except.bind]
  | ok found => simp [bind, Except.bind]

/-- Two computations in a row succeed if the first does and the second then does. -/
theorem exists_bind_eq_ok {first : Except ε α} {next : α → Except ε β}
    (hfirst : ∃ found, first = .ok found)
    (hnext : ∀ found, first = .ok found → ∃ value, next found = .ok value) :
    ∃ value, (first >>= next) = .ok value := by
  obtain ⟨found, hfound⟩ := hfirst
  obtain ⟨value, hvalue⟩ := hnext found hfound
  exact ⟨value, bind_eq_ok_iff.2 ⟨found, hfound, hvalue⟩⟩

/-- A function of a success. -/
theorem map_eq_ok_iff {outcome : Except ε α} {f : α → β} {value : β} :
    outcome.map f = .ok value ↔ ∃ found, outcome = .ok found ∧ f found = value := by
  cases outcome with
  | error fault =>
    refine iff_of_false (fun h ↦ by cases h) ?_
    rintro ⟨found, h, -⟩
    cases h
  | ok found =>
    constructor
    · intro h
      cases h
      exact ⟨found, rfl, rfl⟩
    · rintro ⟨found', h, rfl⟩
      cases h
      rfl

/-- Telling failures differently does not change successes. -/
theorem mapError_eq_ok_iff {outcome : Except ε α} {f : ε → ε'} {value : α} :
    outcome.mapError f = .ok value ↔ outcome = .ok value := by
  cases outcome with
  | error fault => exact iff_of_false (fun h ↦ by cases h) fun h ↦ by cases h
  | ok found =>
    constructor
    · intro h
      cases h
      rfl
    · intro h
      cases h
      rfl

/-- A list of checks passes if each of them does. -/
theorem forM_eq_ok_iff {check : α → Except ε Unit} {items : List α} :
    items.forM check = .ok () ↔ ∀ item ∈ items, check item = .ok () := by
  induction items with
  | nil => simp [List.forM, pure, Except.pure]
  | cons item items ih =>
    rw [List.forM, bind_eq_ok_iff, List.forall_mem_cons, ← ih]
    constructor
    · rintro ⟨_, hitem, hitems⟩
      exact ⟨hitem, hitems⟩
    · rintro ⟨hitem, hitems⟩
      exact ⟨(), hitem, hitems⟩

/-- A list of computations succeeds if each of them does. -/
theorem exists_mapM_eq_ok_iff {compute : α → Except ε β} {items : List α} :
    (∃ values, items.mapM compute = .ok values) ↔
      ∀ item ∈ items, ∃ value, compute item = .ok value := by
  induction items with
  | nil => exact iff_of_true ⟨[], rfl⟩ fun item hitem ↦ by cases hitem
  | cons item items ih =>
    rw [List.mapM_cons, List.forall_mem_cons, ← ih]
    constructor
    · rintro ⟨values, h⟩
      obtain ⟨value, hitem, hrest⟩ := bind_eq_ok_iff.1 h
      obtain ⟨values', hitems, -⟩ := bind_eq_ok_iff.1 hrest
      exact ⟨⟨value, hitem⟩, values', hitems⟩
    · rintro ⟨hitem, hitems⟩
      exact exists_bind_eq_ok hitem fun _ _ ↦ exists_bind_eq_ok hitems fun _ _ ↦ ⟨_, rfl⟩

/-- A list of computations fails like the first of them that does. -/
theorem mapM_eq_error_of_first {compute : α → Except ε β} {before after : List α} {item : α}
    {fault : ε} (hbefore : ∀ earlier ∈ before, ∃ value, compute earlier = .ok value)
    (hitem : compute item = .error fault) :
    (before ++ item :: after).mapM compute = .error fault := by
  obtain ⟨values, hvalues⟩ := exists_mapM_eq_ok_iff.2 hbefore
  have hrest : (item :: after).mapM compute = .error fault := by
    rw [List.mapM_cons]
    exact bind_eq_error_iff.2 (.inl hitem)
  rw [List.mapM_append]
  exact bind_eq_error_iff.2 (.inr ⟨values, hvalues, bind_eq_error_iff.2 (.inl hrest)⟩)

/-- A list of computations fails like one of them. -/
theorem exists_mem_of_mapM_eq_error {compute : α → Except ε β} {items : List α} {fault : ε}
    (h : items.mapM compute = .error fault) : ∃ item ∈ items, compute item = .error fault := by
  induction items with
  | nil => cases h
  | cons item items ih =>
    rw [List.mapM_cons] at h
    rcases bind_eq_error_iff.1 h with hitem | ⟨value, -, hrest⟩
    · exact ⟨item, .head _, hitem⟩
    · rcases bind_eq_error_iff.1 hrest with hitems | ⟨values, -, hpure⟩
      · obtain ⟨other, hother, herror⟩ := ih hitems
        exact ⟨other, .tail _ hother, herror⟩
      · cases hpure

/-- A list of computations fails if one of them does. -/
theorem exists_mapM_eq_error_iff {compute : α → Except ε β} {items : List α} :
    (∃ fault, items.mapM compute = .error fault) ↔
      ∃ item ∈ items, ∃ fault, compute item = .error fault := by
  constructor
  · rintro ⟨fault, h⟩
    obtain ⟨item, hitem, herror⟩ := exists_mem_of_mapM_eq_error h
    exact ⟨item, hitem, fault, herror⟩
  · rintro ⟨item, hitem, fault, herror⟩
    rcases h : items.mapM compute with fault' | values
    · exact ⟨fault', rfl⟩
    · obtain ⟨value, hvalue⟩ := exists_mapM_eq_ok_iff.1 ⟨values, h⟩ item hitem
      rw [herror] at hvalue
      cases hvalue

/-! ### Computations with a log -/

namespace Logged

variable {first : Logged α} {log log' : Log}

theorem bind_of_ok {value : α} (h : first log = .ok value log') (next : α → Logged β) :
    (first >>= next) log = next value log' := by
  simp only [bind, EStateM.bind, h]

theorem bind_of_error {fault : Fault} (h : first log = .error fault log') (next : α → Logged β) :
    (first >>= next) log = .error fault log' := by
  simp only [bind, EStateM.bind, h]

/-- Whatever is in the log, the computation ends as given. -/
def Yields (computation : Logged α) (outcome : Except Fault α) : Prop :=
  ∀ log, ∃ log', computation log = ofExcept outcome log'

theorem yields_ofExcept (outcome : Except Fault α) : Yields (ofExcept outcome) outcome :=
  fun log ↦ ⟨log, rfl⟩

theorem yields_note (level : Log.Level) (source : Log.Source) (message : Text) :
    Yields (note level source message) (.ok ()) :=
  fun log ↦ ⟨log.push ⟨level, source, message⟩, rfl⟩

theorem yields_pure (value : α) : Yields (pure value) (.ok value) :=
  fun log ↦ ⟨log, rfl⟩

theorem Yields.bind {outcome : Except Fault α} {next : α → Logged β}
    {nextOutcome : α → Except Fault β} (hfirst : Yields first outcome)
    (hnext : ∀ value, Yields (next value) (nextOutcome value)) :
    Yields (first >>= next) (outcome >>= nextOutcome) := by
  intro log
  obtain ⟨log', h⟩ := hfirst log
  cases outcome with
  | error fault => exact ⟨log', bind_of_error h next⟩
  | ok value =>
    obtain ⟨log'', hvalue⟩ := hnext value log'
    exact ⟨log'', (bind_of_ok h next).trans hvalue⟩

theorem Yields.mapM {compute : α → Logged β} {outcome : α → Except Fault β}
    (h : ∀ item, Yields (compute item) (outcome item)) (items : List α) :
    Yields (items.mapM compute) (items.mapM outcome) := by
  induction items with
  | nil => exact yields_pure []
  | cons item items ih =>
    rw [List.mapM_cons, List.mapM_cons]
    exact (h item).bind fun value ↦ ih.bind fun values ↦ yields_pure (value :: values)

theorem Yields.outcome_eq {computation : Logged α} {outcome : Except Fault α}
    (h : Yields computation outcome) : computation.outcome.1 = outcome := by
  obtain ⟨log, h⟩ := h #[]
  rw [Logged.outcome, h]
  cases outcome with
  | error fault => rfl
  | ok value => rfl

end Logged

end ClassInspect
