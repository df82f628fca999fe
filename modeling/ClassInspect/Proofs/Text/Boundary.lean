import ClassInspect.Text.CodePoint

/-!
# Texts put together

Where a text that was put together can be taken apart again. A front whose code points all satisfy
a condition ends where the first one stands that does not (`append_inj_of_boundary`), so texts that
agree have the same front and the same rest. Pieces with a separator between them can be taken
apart if none of them holds the mark with which the separator starts (`Text.join_inj`).
-/

namespace ClassInspect

section Boundary

variable {α : Type} {p : α → Bool} {run run' tail tail' : List α}

/-- Elements that satisfy a condition are taken up to one that does not. -/
theorem takeWhile_run (hrun : ∀ c ∈ run, p c = true) (htail : ∀ c ∈ tail.head?, p c = false) :
    (run ++ tail).takeWhile p = run := by
  rw [List.takeWhile_append_of_pos hrun]
  cases tail with
  | nil => exact List.append_nil run
  | cons c tail =>
    rw [List.takeWhile_cons_of_neg (Bool.not_eq_true _ ▸ htail c rfl), List.append_nil]

/-- The condition marks the boundary between front and rest. -/
theorem append_inj_of_boundary (p : α → Bool) (hrun : ∀ c ∈ run, p c = true)
    (hrun' : ∀ c ∈ run', p c = true) (htail : ∀ c ∈ tail.head?, p c = false)
    (htail' : ∀ c ∈ tail'.head?, p c = false) (h : run ++ tail = run' ++ tail') :
    run = run' ∧ tail = tail' := by
  have hfront : (run ++ tail).takeWhile p = (run' ++ tail').takeWhile p := by rw [h]
  rw [takeWhile_run hrun htail, takeWhile_run hrun' htail'] at hfront
  subst hfront
  exact ⟨rfl, List.append_cancel_left h⟩

/-- A mark that neither front holds marks the boundary. -/
theorem append_inj_of_mark [DecidableEq α] {mark : α} (hrun : mark ∉ run) (hrun' : mark ∉ run')
    (htail : ∀ c ∈ tail.head?, c = mark) (htail' : ∀ c ∈ tail'.head?, c = mark)
    (h : run ++ tail = run' ++ tail') : run = run' ∧ tail = tail' := by
  have hne : ∀ {run : List α}, mark ∉ run → ∀ c ∈ run, decide (c ≠ mark) = true :=
    fun hrun c hc ↦ decide_eq_true fun hmark ↦ hrun (hmark ▸ hc)
  have heq : ∀ {tail : List α}, (∀ c ∈ tail.head?, c = mark) →
      ∀ c ∈ tail.head?, decide (c ≠ mark) = false :=
    fun htail c hc ↦ decide_eq_false fun hmark ↦ hmark (htail c hc)
  exact append_inj_of_boundary _ (hne hrun) (hne hrun') (heq htail) (heq htail') h

theorem append_cons_inj_of_mark [DecidableEq α] {mark : α} (hrun : mark ∉ run)
    (hrun' : mark ∉ run') (h : run ++ mark :: tail = run' ++ mark :: tail') :
    run = run' ∧ tail = tail' := by
  obtain ⟨hfront, hrest⟩ := append_inj_of_mark hrun hrun'
    (fun _ hc ↦ (Option.mem_some_iff.1 hc).symm) (fun _ hc ↦ (Option.mem_some_iff.1 hc).symm) h
  exact ⟨hfront, List.tail_eq_of_cons_eq hrest⟩

end Boundary

namespace Text

variable {mark : CodePoint} {separator : Text} {pieces others : List Text}

/-- Different strings are different as texts. -/
theorem lit_inj {string other : String} (h : lit string = lit other) : string = other :=
  String.toList_inj.1 ((List.map_inj_right fun _ _ hchar ↦ CodePoint.char.inj hchar).1 h)

/-- The first piece, and each further one behind a separator. -/
theorem join_cons (separator piece : Text) (pieces : List Text) :
    join separator (piece :: pieces) = piece ++ pieces.flatMap (separator ++ ·) := by
  induction pieces generalizing piece with
  | nil => exact (List.append_nil piece).symm
  | cons next pieces ih =>
    show piece ++ separator ++ join separator (next :: pieces) = _
    rw [ih, List.flatMap_cons, List.append_assoc, List.append_assoc]

/-- Behind a piece stands nothing or the mark. -/
theorem head?_flatMap_eq {c : CodePoint}
    (hc : c ∈ (pieces.flatMap (mark :: separator ++ ·)).head?) : c = mark := by
  cases pieces with
  | nil => cases hc
  | cons piece pieces => exact (Option.mem_some_iff.1 hc).symm

/-- The pieces behind the first one are determined by their text. -/
theorem flatMap_inj (hpieces : ∀ piece ∈ pieces, mark ∉ piece)
    (hothers : ∀ other ∈ others, mark ∉ other)
    (h : pieces.flatMap (mark :: separator ++ ·) = others.flatMap (mark :: separator ++ ·)) :
    pieces = others := by
  induction pieces generalizing others with
  | nil =>
    cases others with
    | nil => rfl
    | cons other others => cases h
  | cons piece pieces ih =>
    cases others with
    | nil => cases h
    | cons other others =>
      rw [List.forall_mem_cons] at hpieces hothers
      rw [List.flatMap_cons, List.flatMap_cons, List.append_assoc, List.append_assoc] at h
      obtain ⟨rfl, hrest⟩ := append_inj_of_mark hpieces.1 hothers.1
        (fun _ ↦ head?_flatMap_eq) (fun _ ↦ head?_flatMap_eq) (List.append_cancel_left h)
      rw [ih hpieces.2 hothers.2 hrest]

/-- Pieces are determined by their text, if they are not empty and none holds the mark. An empty
piece alone would look like no piece at all. -/
theorem join_inj (hpieces : ∀ piece ∈ pieces, piece ≠ [] ∧ mark ∉ piece)
    (hothers : ∀ other ∈ others, other ≠ [] ∧ mark ∉ other)
    (h : join (mark :: separator) pieces = join (mark :: separator) others) : pieces = others := by
  cases pieces with
  | nil =>
    cases others with
    | nil => rfl
    | cons other others =>
      rw [join_cons] at h
      exact absurd (List.append_eq_nil_iff.1 h.symm).1 (hothers other (.head _)).1
  | cons piece pieces =>
    cases others with
    | nil =>
      rw [join_cons] at h
      exact absurd (List.append_eq_nil_iff.1 h).1 (hpieces piece (.head _)).1
    | cons other others =>
      rw [List.forall_mem_cons] at hpieces hothers
      rw [join_cons, join_cons] at h
      obtain ⟨rfl, hrest⟩ := append_inj_of_mark hpieces.1.2 hothers.1.2
        (fun _ ↦ head?_flatMap_eq) (fun _ ↦ head?_flatMap_eq) h
      rw [flatMap_inj (fun piece hpiece ↦ (hpieces.2 piece hpiece).2)
        (fun other hother ↦ (hothers.2 other hother).2) hrest]

end Text

end ClassInspect
