import ClassInspect.Proofs.Scan.Run

/-!
# Scans made of steps

A scan is `Stepwise` if it is put together from the elementary steps alone: answering, failing,
looking at the position, logging, taking bytes, and running another such scan over data of its
own that it must use up. Every reader of a part of a class file is, which is shown once for each;
whatever follows from it is proved here, once, by induction on how a scan is made.

* `Stepwise.isLocal`: what a scan does is decided by the bytes it takes. Given these bytes it
  ends in the same way whatever follows them, and it complains about missing bytes only when they
  are missing.
* `Stepwise.fault`: a scan fails with nothing but the faults it was made with, and with missing
  bytes.

A scan that looks at all its data, such as the check of the magic number, or at what is left of
them, such as `exhaust`, is not stepwise.
-/

namespace ClassInspect.Scan

variable {α β : Type}

/-! ### Local scans -/

/-- The fault for want of bytes. -/
def shortage (needed available : Nat) (place : Int) : Fault :=
  .format (.truncated needed available) (some place)

/-- At mark `m` and with `taken` ahead, the scan takes just these bytes and ends as given,
whatever follows. -/
def Concludes (scan : Scan α) (m : Mark) (taken : Bytes) (outcome : Except Fault α) : Prop :=
  ∀ s : State, s.cursor.mark = m → taken <+: s.cursor.rest →
    run scan s = (outcome, s.cursor.advance taken.length)

/-- At mark `m` and with `taken` ahead, the scan takes these bytes and then asks for `needed`
more. If these are not there, it fails there for want of them. -/
def Starves (scan : Scan α) (m : Mark) (taken : Bytes) (needed : Nat) : Prop :=
  ∀ s : State, s.cursor.mark = m → taken <+: s.cursor.rest →
    s.cursor.rest.length < taken.length + needed →
      run scan s =
        (.error (shortage needed (s.cursor.rest.length - taken.length)
          (m.place + taken.length)), s.cursor.advance taken.length)

/-- From every state, a local scan ends in a way that is decided by the bytes it takes, or it
lacks bytes. -/
def IsLocal (scan : Scan α) : Prop :=
  ∀ s : State,
    (∃ taken outcome, taken <+: s.cursor.rest ∧ Concludes scan s.cursor.mark taken outcome) ∨
    (∃ taken needed, taken <+: s.cursor.rest ∧
      s.cursor.rest.length < taken.length + needed ∧ Starves scan s.cursor.mark taken needed)

/-- A scan that never moves and never looks at the bytes ahead is local. -/
theorem IsLocal.of_still {scan : Scan α} (outcome : Mark → Except Fault α)
    (h : ∀ s : State, run scan s = (outcome s.cursor.mark, s.cursor)) : IsLocal scan := by
  intro s
  refine .inl ⟨[], outcome s.cursor.mark, List.nil_prefix, ?_⟩
  intro t hmark _
  rw [h t, hmark]
  simp

theorem IsLocal.take (size : Nat) : IsLocal (take size) := by
  intro s
  rcases Nat.lt_or_ge s.cursor.rest.length size with hlt | hle
  · refine .inr ⟨[], size, List.nil_prefix, by simpa using hlt, ?_⟩
    intro t hmark _ hshort
    rw [run_take_of_lt (by simpa using hshort), ← hmark]
    simp [shortage]
  · refine .inl ⟨s.cursor.rest.take size, .ok (s.cursor.rest.take size),
      List.take_prefix _ _, ?_⟩
    intro t _ ⟨tail, htail⟩
    have hlength : (s.cursor.rest.take size).length = size := by
      rw [List.length_take]
      omega
    have hle' : size ≤ t.cursor.rest.length := by
      rw [← htail, List.length_append]
      omega
    rw [run_take_of_le hle', hlength, ← htail, List.take_left' hlength]

/-- A conclusion of two scans in a row, from those of both. -/
theorem Concludes.bind {scan : Scan α} {next : α → Scan β} {m : Mark} {front back : Bytes}
    {value : α} {outcome : Except Fault β} (hscan : Concludes scan m front (.ok value))
    (hnext : Concludes (next value) (m.after front.length) back outcome) :
    Concludes (scan >>= next) m (front ++ back) outcome := by
  intro s hmark hahead
  have hfront := hscan s hmark ((List.prefix_append _ _).trans hahead)
  obtain ⟨log, hbind⟩ := run_bind_of_ok hfront next
  rw [hbind, hnext ⟨s.cursor.advance front.length, log⟩ (by simp [hmark])
    (Cursor.prefix_rest_advance hahead)]
  simp

/-- Two scans in a row lack bytes if the second does. -/
theorem Starves.bind {scan : Scan α} {next : α → Scan β} {m : Mark} {front back : Bytes}
    {value : α} {needed : Nat} (hscan : Concludes scan m front (.ok value))
    (hnext : Starves (next value) (m.after front.length) back needed) :
    Starves (scan >>= next) m (front ++ back) needed := by
  intro s hmark hahead hshort
  have hfront := hscan s hmark ((List.prefix_append _ _).trans hahead)
  obtain ⟨log, hbind⟩ := run_bind_of_ok hfront next
  have hlength := hahead.length_le
  rw [List.length_append] at hshort hlength
  rw [hbind, hnext ⟨s.cursor.advance front.length, log⟩ (by simp [hmark])
    (Cursor.prefix_rest_advance hahead)
    (by simp only [Cursor.rest_advance, List.length_drop]; omega)]
  simp [Nat.sub_sub, Int.add_assoc]

theorem IsLocal.bind {scan : Scan α} {next : α → Scan β} (hscan : IsLocal scan)
    (hnext : ∀ value, IsLocal (next value)) : IsLocal (scan >>= next) := by
  intro s
  rcases hscan s with
    ⟨front, fault | value, hfront, hends⟩ | ⟨front, needed, hfront, hshort, hstarves⟩
  · -- the first scan fails for good
    refine .inl ⟨front, .error fault, hfront, ?_⟩
    intro t hmark hahead
    exact run_bind_of_error (hends t hmark hahead) next
  · -- the first scan succeeds, and the second decides
    rcases hnext value ⟨s.cursor.advance front.length, s.log⟩ with
      ⟨back, outcome, hback, hends'⟩ | ⟨back, needed, hback, hshort, hstarves⟩
    · exact .inl ⟨front ++ back, outcome, Cursor.append_prefix_rest hfront hback,
        hends.bind hends'⟩
    · refine .inr ⟨front ++ back, needed, Cursor.append_prefix_rest hfront hback, ?_,
        .bind hends hstarves⟩
      have := hfront.length_le
      simp only [Cursor.rest_advance, List.length_drop] at hshort
      rw [List.length_append]
      omega
  · -- the first scan lacks bytes
    refine .inr ⟨front, needed, hfront, hshort, ?_⟩
    intro t hmark hahead hshort'
    exact run_bind_of_error (hstarves t hmark hahead hshort') next

/-- The log has no influence on a local scan. -/
theorem IsLocal.run_congr {scan : Scan α} (h : IsLocal scan) {s t : State}
    (hcursor : s.cursor = t.cursor) : run scan s = run scan t := by
  rcases h s with ⟨taken, outcome, hahead, hends⟩ | ⟨taken, needed, hahead, hshort, hstarves⟩
  · rw [hends s rfl hahead, hends t (by rw [hcursor]) (hcursor ▸ hahead), hcursor]
  · rw [hstarves s rfl hahead hshort,
      hstarves t (by rw [hcursor]) (hcursor ▸ hahead) (hcursor ▸ hshort), hcursor]

/-- Whether a local scan leaves a byte does not depend on the log either. -/
theorem IsLocal.run_exhaust_congr {scan : Scan α} (h : IsLocal scan) (problem : Nat → Problem)
    {s t : State} (hcursor : s.cursor = t.cursor) :
    run (exhaust problem scan) s = run (exhaust problem scan) t := by
  have hrun := h.run_congr hcursor
  rcases hs : run scan s with ⟨fault | value, c⟩
  · rw [run_exhaust_of_error hs, run_exhaust_of_error (hrun ▸ hs)]
  · rw [run_exhaust_of_ok hs, run_exhaust_of_ok (hrun ▸ hs)]

/-- A success of a local scan is decided by the bytes it took. -/
theorem IsLocal.concludes {scan : Scan α} (h : IsLocal scan) {s : State} {value : α}
    {c : Cursor} (hrun : run scan s = (.ok value, c)) :
    ∃ taken, taken <+: s.cursor.rest ∧ c = s.cursor.advance taken.length ∧
      Concludes scan s.cursor.mark taken (.ok value) := by
  rcases h s with ⟨taken, outcome, hahead, hends⟩ | ⟨taken, needed, hahead, hshort, hstarves⟩
  · rw [hends s rfl hahead] at hrun
    cases hrun
    exact ⟨taken, hahead, rfl, hends⟩
  · rw [hstarves s rfl hahead hshort] at hrun
    cases hrun

/-- A failure of a local scan is decided by the bytes it took, unless bytes were missing. -/
theorem IsLocal.concludes_of_error {scan : Scan α} (h : IsLocal scan) {s : State} {fault : Fault}
    {c : Cursor} (hrun : run scan s = (.error fault, c))
    (henough : ∀ needed available place, fault ≠ shortage needed available place) :
    ∃ taken, taken <+: s.cursor.rest ∧ Concludes scan s.cursor.mark taken (.error fault) := by
  rcases h s with ⟨taken, outcome, hahead, hends⟩ | ⟨taken, needed, hahead, hshort, hstarves⟩
  · have hfault : outcome = .error fault := by
      rw [hends s rfl hahead] at hrun
      exact congrArg Prod.fst hrun
    exact ⟨taken, hahead, hfault ▸ hends⟩
  · rw [hstarves s rfl hahead hshort] at hrun
    have hfault := Except.error.inj (congrArg Prod.fst hrun)
    exact absurd hfault.symm (henough _ _ _)

/-- A local scan that takes some bytes and succeeds lacks bytes when it is given only a part of
them. It follows the longer run up to the first step that asks for too much, so no other fault
can come before. -/
theorem IsLocal.starves_of_cut {scan : Scan α} (h : IsLocal scan) {m : Mark} {taken : Bytes}
    {value : α} (hends : Concludes scan m taken (.ok value)) {s : State}
    (hmark : s.cursor.mark = m) (hcut : s.cursor.rest <+: taken)
    (hshorter : s.cursor.rest.length < taken.length) :
    ∃ needed available count, count ≤ s.cursor.rest.length ∧
      run scan s = (.error (shortage needed available (m.place + count)),
        s.cursor.advance count) := by
  rcases h s with
    ⟨taken', outcome, hahead, hends'⟩ | ⟨taken', needed, hahead, hshort, hstarves⟩
  · -- had the scan ended within the part, it would have ended there with all the bytes, too
    let whole : State := ⟨⟨taken, m.base, m.pos, taken⟩, #[]⟩
    have hlong := hends whole rfl (List.prefix_refl _)
    have hshort := hends' whole hmark.symm (hahead.trans hcut)
    rw [hlong] at hshort
    have hpos : whole.cursor.pos + taken.length = whole.cursor.pos + taken'.length :=
      congrArg (fun result ↦ result.2.pos) hshort
    have := hahead.length_le
    omega
  · refine ⟨needed, s.cursor.rest.length - taken'.length, taken'.length, hahead.length_le, ?_⟩
    rw [hstarves s rfl hahead hshort, hmark]

/-- A scan over data of its own does not look at the bytes ahead. -/
theorem IsLocal.within {scan : Scan α} (h : IsLocal scan) (problem : Nat → Problem)
    (data : Bytes) (base : Int) : IsLocal (within data base (exhaust problem scan)) :=
  .of_still (fun _ ↦ (run (exhaust problem scan) (.start data base)).1) fun s ↦ by
    have hlog : run (exhaust problem scan) ⟨.start data base, s.log⟩ =
        run (exhaust problem scan) (.start data base) :=
      h.run_exhaust_congr problem rfl
    rw [run_within, hlog]

/-! ### Stepwise scans -/

/-- Scans made of elementary steps, which fail on their own only with faults that are allowed.
Missing bytes are not counted among these. -/
inductive Stepwise (allowed : Fault → Prop) : {α : Type} → Scan α → Prop
  | pure {α : Type} (value : α) : Stepwise allowed (pure value)
  | throw {α : Type} {fault : Fault} (h : allowed fault) :
      Stepwise allowed (throw fault : Scan α)
  | place : Stepwise allowed place
  | pos : Stepwise allowed pos
  | note (level : Log.Level) (source : Log.Source) (message : Text) :
      Stepwise allowed (note level source message)
  | take (size : Nat) : Stepwise allowed (take size)
  | within {α : Type} {scan : Scan α} (problem : Nat → Problem) (data : Bytes) (base : Int)
      (h : Stepwise allowed scan)
      (hproblem : ∀ count offset, allowed (.format (problem count) (some offset))) :
      Stepwise allowed (within data base (exhaust problem scan))
  | bind {α β : Type} {scan : Scan α} {next : α → Scan β} (h : Stepwise allowed scan)
      (hnext : ∀ value, Stepwise allowed (next value)) : Stepwise allowed (scan >>= next)

namespace Stepwise

variable {allowed : Fault → Prop}

theorem isLocal {scan : Scan α} (h : Stepwise allowed scan) : IsLocal scan := by
  induction h with
  | pure value => exact .of_still (fun _ ↦ .ok value) fun _ ↦ rfl
  | throw => exact .of_still (fun _ ↦ .error _) fun _ ↦ rfl
  | place => exact .of_still (fun m ↦ .ok m.place) fun _ ↦ rfl
  | pos => exact .of_still (fun m ↦ .ok m.pos) fun _ ↦ rfl
  | note level source message => exact .of_still (fun _ ↦ .ok ()) fun _ ↦ rfl
  | take size => exact .take size
  | within problem data base _ _ ih => exact ih.within problem data base
  | bind _ _ ih ihnext => exact ih.bind ihnext

/-- A stepwise scan fails only with an allowed fault or for want of bytes. -/
theorem fault {scan : Scan α} (h : Stepwise allowed scan) {s : State} {fault : Fault}
    {c : Cursor} (hrun : run scan s = (.error fault, c)) :
    allowed fault ∨ ∃ needed available place, fault = shortage needed available place := by
  induction h generalizing s c with
  | pure | place | pos | note => cases hrun
  | throw h =>
    cases hrun
    exact .inl h
  | take size =>
    rcases Nat.lt_or_ge s.cursor.rest.length size with hlt | hle
    · rw [run_take_of_lt hlt] at hrun
      cases hrun
      exact .inr ⟨_, _, _, rfl⟩
    · rw [run_take_of_le hle] at hrun
      cases hrun
  | @within _ scan problem data base _ hproblem ih =>
    -- the fault is that of the inner scan, or the inner scan leaves bytes
    rw [run_within] at hrun
    rcases hscan : run scan ⟨.start data base, s.log⟩ with ⟨fault' | value, c'⟩
    · rw [run_exhaust_of_error hscan] at hrun
      cases hrun
      exact ih hscan
    · rw [run_exhaust_of_ok hscan] at hrun
      split at hrun
      · cases hrun
      · cases hrun
        exact .inl (hproblem _ _)
  | @bind _ _ scan next _ _ ih ihnext =>
    rcases hscan : run scan s with ⟨fault' | value, c'⟩
    · rw [run_bind_of_error hscan] at hrun
      cases hrun
      exact ih hscan
    · obtain ⟨log, hbind⟩ := run_bind_of_ok hscan next
      rw [hbind] at hrun
      exact ihnext value hrun

/-! ### Compound steps -/

theorem map {scan : Scan α} (h : Stepwise allowed scan) (f : α → β) :
    Stepwise allowed (f <$> scan) := by
  rw [map_eq_pure_bind]
  exact h.bind fun _ ↦ .pure _

theorem fail {problem : Problem} {offset : Int} (h : allowed (.format problem (some offset))) :
    Stepwise allowed (Scan.fail problem offset : Scan α) :=
  .throw h

theorem failHere {problem : Problem} (h : ∀ offset, allowed (.format problem (some offset))) :
    Stepwise allowed (Scan.failHere problem : Scan α) :=
  .bind .place fun offset ↦ .fail (h offset)

theorem ofExcept {outcome : Except Fault α} (h : ∀ fault, outcome = .error fault → allowed fault) :
    Stepwise allowed (Scan.ofExcept outcome) := by
  cases outcome with
  | ok value => exact .pure value
  | error fault => exact .throw (h fault rfl)

theorem skip (size : Nat) : Stepwise allowed (Scan.skip size) :=
  .bind (.take size) fun _ ↦ .pure ()

theorem unsigned (size : Nat) : Stepwise allowed (Scan.unsigned size) := by
  rw [unsigned_eq]
  exact .bind (.take size) fun _ ↦ .pure _

theorem signed (size : Nat) : Stepwise allowed (Scan.signed size) :=
  .bind (.unsigned size) fun _ ↦ .pure _

theorem times {scan : Scan α} (h : Stepwise allowed scan) (count : Nat) :
    Stepwise allowed (Scan.times count scan) := by
  induction count with
  | zero => exact .pure []
  | succ count ih =>
    rw [times_succ]
    exact .bind h fun _ ↦ .bind ih fun _ ↦ .pure _

theorem counted {scan : Scan α} (h : Stepwise allowed scan) :
    Stepwise allowed (Scan.counted scan) :=
  .bind (.unsigned 2) fun count ↦ h.times count

end Stepwise

end ClassInspect.Scan
