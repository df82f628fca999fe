import ClassInspect.Text.Newline

/-!
# Lines written and read

Lines may be written with any of the three line ends, also with several in one text, and the last
line may lack its end (`Newline.Writes`). Lines that are not empty and hold no line end themselves
are found again as they were written, but for an empty line behind the end of the last one
(`Newline.linesIn_of_writes`). An empty line would not do: its line feed could complete the carriage
return before it.
-/

namespace ClassInspect.Newline

/-- Characters without a line end. -/
def Plain (chars : List Char) : Prop :=
  '\n' ∉ chars ∧ '\r' ∉ chars

instance (chars : List Char) : Decidable (Plain chars) :=
  inferInstanceAs (Decidable (_ ∧ _))

/-- The three line ends. -/
def lineEnds : List (List Char) :=
  [['\n'], ['\r'], ['\r', '\n']]

/-- The text consists of the lines, each with its line end, which the last one may lack. -/
inductive Writes : List (List Char) → List Char → Prop
  | nil : Writes [] []
  | last (line : List Char) : Writes [line] line
  | cons (line : List Char) {lineEnd text : List Char} {lines : List (List Char)}
      (hend : lineEnd ∈ lineEnds) (hlines : Writes lines text) :
      Writes (line :: lines) (line ++ lineEnd ++ text)

/-- The lines of a text. What stands behind the last line end counts as a line, even if it is
empty. -/
def linesIn (text : List Char) : List (List Char) :=
  (split (normalize text)).1 ++ [(split (normalize text)).2]

variable {line text : List Char} {lines : List (List Char)}

/-- A part of characters without a line end. -/
theorem Plain.of_subset {part : List Char} (h : Plain line) (hpart : part ⊆ line) : Plain part :=
  ⟨fun hc ↦ h.1 (hpart hc), fun hc ↦ h.2 (hpart hc)⟩

/-- Characters of a kind to which the line ends do not belong. -/
theorem Plain.of_forall {condition : Char → Bool} (h : ∀ c ∈ line, condition c = true)
    (hfeed : condition '\n' = false) (hreturn : condition '\r' = false) : Plain line :=
  ⟨fun hc ↦ Bool.false_ne_true (hfeed.symm.trans (h _ hc)),
    fun hc ↦ Bool.false_ne_true (hreturn.symm.trans (h _ hc))⟩

theorem Plain.append {line' : List Char} (h : Plain line) (h' : Plain line') :
    Plain (line ++ line') :=
  ⟨fun hc ↦ (List.mem_append.1 hc).elim h.1 h'.1, fun hc ↦ (List.mem_append.1 hc).elim h.2 h'.2⟩

theorem Plain.tail {c : Char} (h : Plain (c :: line)) : Plain line :=
  h.of_subset (List.subset_cons_self c line)

/-! ### Line ends as line feeds -/

section Alphabet

open Alphabet (ofChar)

variable {α : Type} [DecidableEq α] [Alphabet α]

/-- What is done stands in front of all that follows. -/
theorem normalizeOnto_append (done before text : List α) :
    normalizeOnto (done ++ before) text = before.reverse ++ normalizeOnto done text := by
  fun_induction normalizeOnto done text with
  | case1 done => rw [normalizeOnto, List.reverse_append]
  | case2 done c =>
    rw [normalizeOnto, ← List.cons_append, List.reverse_append]
  | case3 done c next rest hends ih =>
    rw [normalizeOnto, if_pos hends]
    exact ih
  | case4 done c next rest hends ih =>
    rw [normalizeOnto, if_neg hends]
    exact ih

theorem normalize_cons {c : α} (h : c ≠ ofChar '\r') (rest : List α) :
    normalize (c :: rest) = c :: normalize rest := by
  cases rest with
  | nil =>
    rw [normalize, normalizeOnto, if_neg h]
    rfl
  | cons next rest =>
    rw [normalize, normalizeOnto, if_neg fun hends ↦ h hends.1, if_neg h]
    exact normalizeOnto_append [] [c] (next :: rest)

theorem normalize_return_feed (rest : List α) :
    normalize (ofChar '\r' :: ofChar '\n' :: rest) = ofChar '\n' :: normalize rest := by
  rw [normalize, normalizeOnto, if_pos ⟨rfl, rfl⟩]
  exact normalizeOnto_append [] [ofChar '\n'] rest

/-- A carriage return is a line end of its own where no line feed follows. -/
theorem normalize_return {rest : List α} (hrest : rest.head? ≠ some (ofChar '\n')) :
    normalize (ofChar '\r' :: rest) = ofChar '\n' :: normalize rest := by
  cases rest with
  | nil =>
    rw [normalize, normalizeOnto, if_pos rfl]
    rfl
  | cons next rest =>
    rw [normalize, normalizeOnto, if_neg fun hends ↦ hrest (congrArg some hends.2), if_pos rfl]
    exact normalizeOnto_append [] [ofChar '\n'] (next :: rest)

/-- Text without carriage returns has no line ends to be rewritten. -/
theorem normalize_eq_self {text : List α} (h : ofChar '\r' ∉ text) : normalize text = text := by
  induction text with
  | nil => rfl
  | cons c text ih =>
    have hc : c ≠ ofChar '\r' := fun heq ↦ h (heq ▸ .head _)
    rw [normalize_cons hc, ih fun hmem ↦ h (.tail _ hmem)]

theorem mem_normalizeOnto {done text : List α} {c : α} (h : c ∈ normalizeOnto done text) :
    c = ofChar '\n' ∨ c ∈ done ∨ c ∈ text := by
  fun_induction normalizeOnto done text with
  | case1 done => exact .inr (.inl (List.mem_reverse.1 h))
  | case2 done c => grind
  | case3 done c next rest hends ih => grind
  | case4 done c next rest hends ih => grind

/-- Line feeds are the only symbols that may be new. -/
theorem mem_normalize {text : List α} {c : α} (h : c ∈ normalize text) :
    c = ofChar '\n' ∨ c ∈ text := by
  rcases mem_normalizeOnto h with hfeed | hdone | hmem
  · exact .inl hfeed
  · cases hdone
  · exact .inr hmem

end Alphabet

theorem normalize_append_of_plain (h : Plain line) (rest : List Char) :
    normalize (line ++ rest) = line ++ normalize rest := by
  induction line with
  | nil => rfl
  | cons c line ih =>
    have hc : c ≠ '\r' := fun heq ↦ h.2 (heq ▸ .head _)
    rw [List.cons_append, normalize_cons hc, ih h.tail]
    rfl

/-- A line end is written as a line feed, where no line feed can be taken for a part of it. -/
theorem normalize_lineEnd {lineEnd rest : List Char} (h : lineEnd ∈ lineEnds)
    (hrest : rest.head? ≠ some '\n') : normalize (lineEnd ++ rest) = '\n' :: normalize rest := by
  simp only [lineEnds, List.mem_cons, List.not_mem_nil, or_false] at h
  rcases h with rfl | rfl | rfl
  · exact normalize_cons (by decide) rest
  · exact normalize_return hrest
  · exact normalize_return_feed rest

/-! ### Lines between line feeds -/

/-- Lines that were found stand in front of all that follow. -/
theorem splitOnto_eq (found : List (List Char)) (current chars : List Char) :
    splitOnto found current chars =
      (found.reverse ++ (splitOnto [] current chars).1, (splitOnto [] current chars).2) := by
  induction chars generalizing found current with
  | nil => rw [splitOnto, splitOnto, List.reverse_nil, List.append_nil]
  | cons c rest ih =>
    rw [splitOnto, splitOnto]
    split
    · rw [ih, ih [current.reverse]]
      simp only [List.reverse_cons, List.reverse_nil, List.nil_append, List.append_assoc]
    · exact ih found (c :: current)

theorem splitOnto_append_of_plain (h : Plain line) (found : List (List Char))
    (current rest : List Char) :
    splitOnto found current (line ++ rest) = splitOnto found (line.reverse ++ current) rest := by
  induction line generalizing current with
  | nil => rfl
  | cons c line ih =>
    have hc : c ≠ '\n' := fun heq ↦ h.1 (heq ▸ .head _)
    rw [List.cons_append, splitOnto, if_neg hc, ih h.tail, List.reverse_cons, List.append_assoc]
    rfl

theorem split_of_plain (h : Plain line) : split line = ([], line) := by
  have hsplit := splitOnto_append_of_plain h [] [] []
  rw [List.append_nil, List.append_nil, splitOnto, List.reverse_reverse] at hsplit
  exact hsplit

theorem split_append_of_plain (h : Plain line) (rest : List Char) :
    split (line ++ '\n' :: rest) = (line :: (split rest).1, (split rest).2) := by
  rw [split, splitOnto_append_of_plain h, splitOnto, if_pos rfl, splitOnto_eq, List.append_nil,
    List.reverse_reverse]
  rfl

/-! ### Lines in a text -/

/-- A text of lines that hold something and no line end does not start with a line feed. -/
theorem Writes.head?_ne (h : Writes lines text) (hlines : ∀ line ∈ lines, Plain line ∧ line ≠ []) :
    text.head? ≠ some '\n' := by
  cases h with
  | nil => exact nofun
  | last =>
    intro hhead
    exact (hlines text (.head _)).1.1 (List.mem_of_mem_head? hhead)
  | cons line hend htext =>
    obtain ⟨hplain, hne⟩ := hlines line (.head _)
    obtain ⟨c, tail, rfl⟩ := List.exists_cons_of_ne_nil hne
    intro hhead
    exact hplain.1 (List.mem_of_mem_head? (l := c :: tail) hhead)

/-- Lines are found as they were written, and an empty one behind the last line end. -/
theorem linesIn_of_writes (h : Writes lines text)
    (hlines : ∀ line ∈ lines, Plain line ∧ line ≠ []) :
    linesIn text = lines ∨ linesIn text = lines ++ [[]] := by
  induction h with
  | nil => exact .inr rfl
  | last line =>
    have hplain : Plain line := (hlines line (.head _)).1
    rw [linesIn, normalize_eq_self hplain.2, split_of_plain hplain]
    exact .inl rfl
  | @cons line lineEnd text lines hend htext ih =>
    have hplain : Plain line := (hlines line (.head _)).1
    have hrest : ∀ other ∈ lines, Plain other ∧ other ≠ [] :=
      fun other hother ↦ hlines other (.tail _ hother)
    rw [List.append_assoc, linesIn, normalize_append_of_plain hplain,
      normalize_lineEnd hend (htext.head?_ne hrest), split_append_of_plain hplain]
    exact (ih hrest).imp (congrArg (line :: ·)) (congrArg (line :: ·))

end ClassInspect.Newline
