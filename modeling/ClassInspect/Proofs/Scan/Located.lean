import ClassInspect.Proofs.Bytes.Parts
import ClassInspect.Proofs.Scan.Advance

/-!
# Where faults point

A fault that comes with a position should point into the data, and one for want of bytes should
point at the place from which as many bytes are left as it says (`Fault.PointsInto`).

A position is looked at before the bytes whose fault it is to report, so what is known of it has to
be carried along. `Scan.Located` does so: from every cursor that lies in the data, the scan succeeds
with a value that is good, or it fails with a fault that points into the data. A scan over data of
its own may end in a fault that points into those instead. Such faults are let through by name
(`other`), for the one who knows where those data stand to judge.
-/

namespace ClassInspect

/-! ### Cursors and faults in data -/

namespace Cursor

theorem place_advance_start (data : Bytes) (base : Int) (count : Nat) :
    ((start data base).advance count).place = base + count := by
  rw [← place_mark, mark_advance, mark_start, Mark.place_after, Mark.place_start]

/-- The cursor has come from the front of the data, which begins at `base` in its file. -/
def LiesIn (c : Cursor) (data : Bytes) (base : Int) : Prop :=
  (start data base).Forwards c

variable {c : Cursor} {data : Bytes} {base : Int}

theorem liesIn_start (data : Bytes) (base : Int) : (start data base).LiesIn data base :=
  .refl _

/-- Where a cursor in the data stands, and how much it has ahead. -/
theorem LiesIn.place_add (h : c.LiesIn data base) :
    base ≤ c.place ∧ c.place + c.rest.length = base + data.length := by
  obtain ⟨count, hcount, rfl⟩ := h
  rw [rest_start] at hcount
  rw [place_advance_start, rest_advance, rest_start, List.length_drop]
  omega

/-- The bytes ahead of a cursor in the data stand where the cursor does. -/
theorem LiesIn.standsAt (h : c.LiesIn data base) {bytes : Bytes} (hbytes : bytes <+: c.rest) :
    data.StandsAt (c.place - base) bytes := by
  obtain ⟨count, hcount, rfl⟩ := h
  obtain ⟨tail, htail⟩ := hbytes
  rw [rest_start] at hcount
  rw [rest_advance, rest_start] at htail
  refine Bytes.standsAt_iff.2 ⟨data.take count, tail, ?_, ?_⟩
  · rw [List.append_assoc, htail, List.take_append_drop]
  · rw [place_advance_start, List.length_take]
    omega

end Cursor

/-- A position in the fault lies within the data, its end included. Missing bytes are missed at the
position from which all that is left is what the fault says is available. -/
structure Fault.PointsInto (data : Bytes) (base : Int) (fault : Fault) : Prop where
  offset : ∀ problem offset, fault = .format problem (some offset) →
    base ≤ offset ∧ offset ≤ base + data.length
  shortage : ∀ needed available offset?, fault = .format (.truncated needed available) offset? →
    available < needed ∧ ∃ offset, offset? = some offset ∧ offset + available = base + data.length

namespace Fault.PointsInto

variable {data : Bytes} {base : Int} {problem : Problem}

theorem of_nowhere (h : problem.kind ≠ .truncatedData) :
    (Fault.nowhere problem).PointsInto data base := by
  refine ⟨fun _ _ hfault ↦ ?_, fun _ _ _ hfault ↦ ?_⟩
  · cases hfault
  · cases hfault
    exact absurd rfl h

theorem of_offset {offset : Int} (hoffset : base ≤ offset ∧ offset ≤ base + data.length)
    (h : problem.kind ≠ .truncatedData) :
    (Fault.format problem (some offset)).PointsInto data base := by
  refine ⟨fun _ _ hfault ↦ ?_, fun _ _ _ hfault ↦ ?_⟩
  · cases hfault
    exact hoffset
  · cases hfault
    exact absurd rfl h

/-- A breach has no position. -/
theorem of_breach (cause : Breach) : (Fault.breach cause).PointsInto data base :=
  ⟨nofun, nofun⟩

/-- A cursor that has too few bytes ahead points where they are missed. -/
theorem of_shortage {c : Cursor} (hc : c.LiesIn data base) {needed : Nat}
    (h : c.rest.length < needed) :
    (Fault.format (.truncated needed c.rest.length) (some c.place)).PointsInto data base := by
  obtain ⟨hbase, hend⟩ := hc.place_add
  refine ⟨fun _ _ hfault ↦ ?_, fun _ _ _ hfault ↦ ?_⟩
  · cases hfault
    omega
  · cases hfault
    exact ⟨h, c.place, rfl, hend⟩

end Fault.PointsInto

/-! ### Located scans -/

namespace Scan

/-- What is taken from a cursor in the data stands where the cursor stood, and the cursor stays in
the data. -/
theorem liesIn_of_take {data : Bytes} {base : Int} {s : State} (hs : s.cursor.LiesIn data base)
    {size : Nat} {bytes : Bytes} {c : Cursor} (h : run (take size) s = (.ok bytes, c)) :
    c.LiesIn data base ∧ data.StandsAt (s.cursor.place - base) bytes := by
  rcases Nat.lt_or_ge s.cursor.rest.length size with hlt | hle
  · rw [run_take_of_lt hlt] at h
    cases h
  · rw [run_take_of_le hle] at h
    cases h
    exact ⟨hs.trans ⟨size, hle, rfl⟩, hs.standsAt (List.take_prefix _ _)⟩

theorem pointsInto_of_take {data : Bytes} {base : Int} {s : State}
    (hs : s.cursor.LiesIn data base) {size : Nat} {fault : Fault} {c : Cursor}
    (h : run (take size) s = (.error fault, c)) : fault.PointsInto data base := by
  rcases Nat.lt_or_ge s.cursor.rest.length size with hlt | hle
  · rw [run_take_of_lt hlt] at h
    cases h
    exact .of_shortage hs hlt
  · rw [run_take_of_le hle] at h
    cases h

variable {α β : Type} {data : Bytes} {base : Int} {other : Fault → Prop} {good : α → Prop}
  {good' : β → Prop}

/-- From the given state, the scan goes on in the data with a good value, or it fails with a fault
that points into the data or is one of the others. -/
structure LocatedFrom (data : Bytes) (base : Int) (other : Fault → Prop) (s : State) (scan : Scan α)
    (good : α → Prop) : Prop where
  success : ∀ value c, run scan s = (.ok value, c) → c.LiesIn data base ∧ good value
  failure : ∀ fault c, run scan s = (.error fault, c) → fault.PointsInto data base ∨ other fault

/-- The same from every state with a cursor in the data. -/
def Located (data : Bytes) (base : Int) (other : Fault → Prop) (scan : Scan α)
    (good : α → Prop) : Prop :=
  ∀ s : State, s.cursor.LiesIn data base → LocatedFrom data base other s scan good

/-- The second scan starts from where the first one stopped, which is in the data. -/
theorem LocatedFrom.bind {s : State} {scan : Scan α} {next : α → Scan β}
    (h : LocatedFrom data base other s scan fun value ↦
      Located data base other (next value) good') :
    LocatedFrom data base other s (scan >>= next) good' := by
  rcases hscan : run scan s with ⟨fault | first, c'⟩
  · refine ⟨fun value c hrun ↦ ?_, fun fault' c hrun ↦ ?_⟩
    · rw [run_bind_of_error hscan] at hrun
      cases hrun
    · rw [run_bind_of_error hscan] at hrun
      cases hrun
      exact h.failure fault c' hscan
  · obtain ⟨hc, hnext⟩ := h.success first c' hscan
    obtain ⟨log, hbind⟩ := run_bind_of_ok hscan next
    have hrest := hnext ⟨c', log⟩ hc
    exact ⟨fun value c hrun ↦ hrest.success value c (hbind ▸ hrun),
      fun fault c hrun ↦ hrest.failure fault c (hbind ▸ hrun)⟩

namespace Located

theorem pure {value : α} (h : good value) : Located data base other (pure value) good := by
  intro s hs
  refine ⟨fun _ _ hrun ↦ ?_, fun _ _ hrun ↦ ?_⟩
  · cases hrun
    exact ⟨hs, h⟩
  · cases hrun

theorem throw {fault : Fault} (h : fault.PointsInto data base) :
    Located data base other (throw fault : Scan α) good := by
  intro s hs
  refine ⟨fun _ _ hrun ↦ ?_, fun _ _ hrun ↦ ?_⟩
  · cases hrun
  · cases hrun
    exact .inl h

theorem note (level : Log.Level) (source : Log.Source) (message : Text) :
    Located data base other (note level source message) fun _ ↦ True := by
  intro s hs
  refine ⟨fun _ _ hrun ↦ ?_, fun _ _ hrun ↦ ?_⟩
  · cases hrun
    exact ⟨hs, trivial⟩
  · cases hrun

/-- The position of a cursor in the data lies within the data. -/
theorem place :
    Located data base other place fun offset ↦ base ≤ offset ∧ offset ≤ base + data.length := by
  intro s hs
  obtain ⟨hbase, hend⟩ := hs.place_add
  refine ⟨fun _ _ hrun ↦ ?_, fun _ _ hrun ↦ ?_⟩
  · cases hrun
    exact ⟨hs, hbase, by omega⟩
  · cases hrun

theorem take (size : Nat) : Located data base other (take size) fun _ ↦ True := by
  intro s hs
  exact ⟨fun _ _ hrun ↦ ⟨(liesIn_of_take hs hrun).1, trivial⟩,
    fun _ _ hrun ↦ .inl (pointsInto_of_take hs hrun)⟩

theorem ofExcept {outcome : Except Fault α} (hok : ∀ value, outcome = .ok value → good value)
    (herror : ∀ fault, outcome = .error fault → fault.PointsInto data base) :
    Located data base other (ofExcept outcome) good := by
  cases outcome with
  | ok value => exact .pure (hok value rfl)
  | error fault => exact .throw (herror fault rfl)

theorem bind {scan : Scan α} {next : α → Scan β} (h : Located data base other scan good)
    (hnext : ∀ value, good value → Located data base other (next value) good') :
    Located data base other (scan >>= next) good' := by
  intro s hs
  refine .bind ⟨fun value c hrun ↦ ?_, (h s hs).failure⟩
  obtain ⟨hc, hvalue⟩ := (h s hs).success value c hrun
  exact ⟨hc, hnext value hvalue⟩

/-- Bytes that are taken right behind a look at the position stand at that position. -/
theorem bind_place_take (size : Nat) {next : Int → Bytes → Scan β}
    (hnext : ∀ offset bytes, data.StandsAt (offset - base) bytes →
      Located data base other (next offset bytes) good') :
    Located data base other (do
      let offset ← Scan.place
      let bytes ← Scan.take size
      next offset bytes) good' := by
  intro s hs
  -- the look at the position changes nothing, so the bytes are taken from the state it was made in
  have htake : LocatedFrom data base other s (Scan.take size) fun bytes ↦
      Located data base other (next s.cursor.place bytes) good' := by
    refine ⟨fun bytes c hrun ↦ ?_, fun fault c hrun ↦ .inl (pointsInto_of_take hs hrun)⟩
    obtain ⟨hc, hstands⟩ := liesIn_of_take hs hrun
    exact ⟨hc, hnext _ bytes hstands⟩
  exact ⟨htake.bind.success, htake.bind.failure⟩

/-- A scan over data of its own moves nothing in the data around it. -/
theorem within {inner : Bytes} {innerBase : Int} {scan : Scan α}
    (hok : ∀ log value, (run scan ⟨.start inner innerBase, log⟩).1 = .ok value → good value)
    (herror : ∀ log fault, (run scan ⟨.start inner innerBase, log⟩).1 = .error fault →
      fault.PointsInto data base ∨ other fault) :
    Located data base other (within inner innerBase scan) good := by
  intro s hs
  refine ⟨fun value c hrun ↦ ?_, fun fault c hrun ↦ ?_⟩
  · rw [run_within] at hrun
    obtain ⟨houtcome, rfl⟩ := Prod.mk.inj hrun
    exact ⟨hs, hok s.log value houtcome⟩
  · rw [run_within] at hrun
    exact herror s.log fault (Prod.mk.inj hrun).1

/-- What is left over is reported where it begins. -/
theorem exhaust {scan : Scan α} (h : Located data base other scan good) {problem : Nat → Problem}
    (hproblem : ∀ count, (problem count).kind ≠ .truncatedData) :
    Located data base other (exhaust problem scan) good := by
  intro s hs
  rcases hscan : run scan s with ⟨fault | found, c⟩
  · have hfault := (h s hs).failure fault c hscan
    refine ⟨fun _ _ hrun ↦ ?_, fun _ _ hrun ↦ ?_⟩
    · rw [run_exhaust_of_error hscan] at hrun
      cases hrun
    · rw [run_exhaust_of_error hscan] at hrun
      cases hrun
      exact hfault
  · have hfound := (h s hs).success found c hscan
    obtain ⟨hbase, hend⟩ := hfound.1.place_add
    refine ⟨fun _ _ hrun ↦ ?_, fun _ _ hrun ↦ ?_⟩
    · rw [run_exhaust_of_ok hscan] at hrun
      split at hrun
      · cases hrun
        exact hfound
      · cases hrun
    · rw [run_exhaust_of_ok hscan] at hrun
      split at hrun
      · cases hrun
      · cases hrun
        exact .inl (.of_offset ⟨hbase, by omega⟩ (hproblem _))

/-- More faults may be let through. -/
theorem mono {scan : Scan α} (h : Located data base other scan good) {other' : Fault → Prop}
    (hother : ∀ fault, other fault → other' fault) : Located data base other' scan good := by
  intro s hs
  refine ⟨(h s hs).success, fun fault c hrun ↦ ?_⟩
  exact ((h s hs).failure fault c hrun).imp_right (hother fault)

/-- What is known of a value includes that it was read from somewhere in the data. -/
theorem traced {scan : Scan α} (h : Located data base other scan good) :
    Located data base other scan fun value ↦ good value ∧
      ∃ s c, s.cursor.LiesIn data base ∧ run scan s = (.ok value, c) := by
  intro s hs
  refine ⟨fun value c hrun ↦ ?_, (h s hs).failure⟩
  obtain ⟨hc, hvalue⟩ := (h s hs).success value c hrun
  exact ⟨hc, hvalue, s, c, hs, hrun⟩

/-! ### Compound scans -/

theorem fail {problem : Problem} {offset : Int}
    (hoffset : base ≤ offset ∧ offset ≤ base + data.length)
    (h : problem.kind ≠ .truncatedData) :
    Located data base other (fail problem offset : Scan α) good :=
  .throw (.of_offset hoffset h)

theorem failHere {problem : Problem} (h : problem.kind ≠ .truncatedData) :
    Located data base other (failHere problem : Scan α) good :=
  .bind .place fun _ hoffset ↦ .fail hoffset h

theorem unsigned (size : Nat) : Located data base other (unsigned size) fun _ ↦ True := by
  rw [unsigned_eq]
  exact .bind (.take size) fun _ _ ↦ .pure trivial

theorem signed (size : Nat) : Located data base other (signed size) fun _ ↦ True :=
  .bind (.unsigned size) fun _ _ ↦ .pure trivial

/-- What is good of each result is good of all. -/
theorem times {scan : Scan α} (h : Located data base other scan good) (count : Nat) :
    Located data base other (times count scan) fun values ↦ ∀ value ∈ values, good value := by
  induction count with
  | zero => exact .pure fun _ hvalue ↦ by cases hvalue
  | succ count ih =>
    rw [times_succ]
    exact .bind h fun value hvalue ↦ .bind ih fun values hvalues ↦
      .pure (List.forall_mem_cons.2 ⟨hvalue, hvalues⟩)

theorem counted {scan : Scan α} (h : Located data base other scan good) :
    Located data base other (counted scan) fun values ↦ ∀ value ∈ values, good value :=
  .bind (.unsigned 2) fun count _ ↦ h.times count

end Located

end Scan

end ClassInspect
