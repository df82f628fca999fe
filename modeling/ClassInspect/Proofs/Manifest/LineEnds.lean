import ClassInspect.Proofs.Manifest

/-!
# Line ends of a manifest

The line ends of a text can be written anew, each as any of the three (`Newline.restyle`). This may
change the number of lines: a carriage return that comes to stand in front of the line feed of an
empty line makes one line end of two. But only empty lines get lost or added, so the lines that hold
something stay what they were (`Newline.heldLines_restyle`).

The reader does not look at empty lines, whatever it has read before
(`Manifest.readLines_filter`). So it does not notice how lines end (`Manifest.outcome_restyle`).
-/

namespace ClassInspect

namespace Newline

variable {line text : List Char} {lines : List (List Char)}

/-- One of the three line ends. -/
abbrev LineEnd := {chars : List Char // chars ∈ lineEnds}

/-- The text with its line ends written anew, the first as `ends 0`. A carriage return and a line
feed behind it are one line end. -/
def restyle (ends : Nat → LineEnd) : List Char → List Char
  | '\r' :: '\n' :: rest => (ends 0).1 ++ restyle (fun n ↦ ends (n + 1)) rest
  | '\r' :: rest => (ends 0).1 ++ restyle (fun n ↦ ends (n + 1)) rest
  | '\n' :: rest => (ends 0).1 ++ restyle (fun n ↦ ends (n + 1)) rest
  | c :: rest => c :: restyle ends rest
  | [] => []

/-- The lines of a text that are not empty. -/
def heldLines (text : List Char) : List (List Char) :=
  (linesIn text).filter (!·.isEmpty)

/-! ### Lines that hold something -/

theorem heldLines_of_plain (h : Plain line) : heldLines line = [line].filter (!·.isEmpty) := by
  rw [heldLines, linesIn, normalize_eq_self h.2, split_of_plain h]
  rfl

/-- The line in front of the first line feed. -/
theorem heldLines_of_feed (h : Plain line) {chars rest : List Char}
    (hfeed : normalize chars = '\n' :: normalize rest) :
    heldLines (line ++ chars) = [line].filter (!·.isEmpty) ++ heldLines rest := by
  have hlines : linesIn (line ++ chars) = [line] ++ linesIn rest := by
    rw [linesIn, normalize_append_of_plain h, hfeed, split_append_of_plain h]
    rfl
  rw [heldLines, hlines, List.filter_append]
  rfl

/-- A line feed at the front ends an empty line. -/
theorem heldLines_cons_feed (rest : List Char) : heldLines ('\n' :: rest) = heldLines rest := by
  have hempty : Plain [] := by decide
  exact heldLines_of_feed hempty (normalize_cons (by decide) rest)

/-- Behind its line end, a text goes on with its other lines. A line feed that is taken for a part
of the line end would only have ended an empty line. -/
theorem heldLines_append (h : Plain line) {lineEnd : List Char} (hend : lineEnd ∈ lineEnds)
    (rest : List Char) :
    heldLines (line ++ lineEnd ++ rest) = [line].filter (!·.isEmpty) ++ heldLines rest := by
  rw [List.append_assoc]
  by_cases hrest : rest.head? = some '\n'
  · obtain ⟨behind, rfl⟩ := List.head?_eq_some_iff.1 hrest
    simp only [lineEnds, List.mem_cons, List.not_mem_nil, or_false] at hend
    rcases hend with rfl | rfl | rfl
    · exact heldLines_of_feed h (normalize_cons (by decide) _)
    · rw [heldLines_cons_feed]
      exact heldLines_of_feed h (normalize_return_feed behind)
    · exact heldLines_of_feed h (normalize_return_feed _)
  · exact heldLines_of_feed h (normalize_lineEnd hend hrest)

theorem heldLines_of_writes (h : Writes lines text) (hlines : ∀ line ∈ lines, Plain line) :
    heldLines text = lines.filter (!·.isEmpty) := by
  induction h with
  | nil => rfl
  | last line => exact heldLines_of_plain (hlines line (.head _))
  | @cons line lineEnd text lines hend _ ih =>
    obtain ⟨hline, hrest⟩ := List.forall_mem_cons.1 hlines
    rw [heldLines_append hline hend, ih hrest, ← List.filter_append]
    rfl

/-! ### Line ends written anew -/

/-- A character in front of a text belongs to its first line. -/
theorem Writes.modifyHead (h : Writes lines text) (hne : lines ≠ []) (c : Char) :
    Writes (lines.modifyHead (c :: ·)) (c :: text) := by
  cases h with
  | nil => exact absurd rfl hne
  | last => exact .last _
  | cons line hend hlines => exact .cons (c :: line) hend hlines

/-- Both texts have the same lines, none of which holds a line end. -/
theorem exists_writes_restyle (ends : Nat → LineEnd) (text : List Char) :
    ∃ lines, lines ≠ [] ∧ (∀ line ∈ lines, Plain line) ∧ Writes lines text ∧
      Writes lines (restyle ends text) := by
  have hend {ends : Nat → LineEnd} {lineEnd rest : List Char} (hend : lineEnd ∈ lineEnds)
      (h : ∃ lines, lines ≠ [] ∧ (∀ line ∈ lines, Plain line) ∧ Writes lines rest ∧
        Writes lines (restyle (fun n ↦ ends (n + 1)) rest)) :
      ∃ lines, lines ≠ [] ∧ (∀ line ∈ lines, Plain line) ∧ Writes lines (lineEnd ++ rest) ∧
        Writes lines ((ends 0).1 ++ restyle (fun n ↦ ends (n + 1)) rest) := by
    obtain ⟨lines, -, hplain, htext, hanew⟩ := h
    exact ⟨[] :: lines, List.cons_ne_nil _ _, List.forall_mem_cons.2 ⟨by decide, hplain⟩,
      .cons [] hend htext, .cons [] (ends 0).2 hanew⟩
  fun_induction restyle ends text with
  | case1 ends rest ih => exact hend (.tail _ (.tail _ (.head _))) ih
  | case2 ends rest _ ih => exact hend (.tail _ (.head _)) ih
  | case3 ends rest ih => exact hend (.head _) ih
  | case4 ends c rest _ hreturn hfeed ih =>
    obtain ⟨lines, hne, hplain, htext, hanew⟩ := ih
    refine ⟨lines.modifyHead (c :: ·), ?_, ?_, htext.modifyHead hne c, hanew.modifyHead hne c⟩
    · rwa [Ne, List.modifyHead_eq_nil_iff]
    · obtain ⟨line, lines, rfl⟩ := List.exists_cons_of_ne_nil hne
      obtain ⟨hline, hrest⟩ := List.forall_mem_cons.1 hplain
      have hc : Plain [c] :=
        ⟨fun hmem ↦ hfeed (List.mem_singleton.1 hmem).symm,
          fun hmem ↦ hreturn (List.mem_singleton.1 hmem).symm⟩
      exact List.forall_mem_cons.2 ⟨hc.append hline, hrest⟩
  | case5 ends => exact ⟨[[]], List.cons_ne_nil _ _, by decide, .last [], .last []⟩

theorem heldLines_restyle (ends : Nat → LineEnd) (text : List Char) :
    heldLines (restyle ends text) = heldLines text := by
  obtain ⟨lines, -, hplain, htext, hanew⟩ := exists_writes_restyle ends text
  rw [heldLines_of_writes hanew hplain, heldLines_of_writes htext hplain]

-- the line end behind `a` and that of the empty line become one
example : restyle (fun n ↦ if n = 0 then ⟨['\r'], by decide⟩ else ⟨['\n'], by decide⟩)
    "a\r\n\nb".toList = "a\r\nb".toList := by
  decide

end Newline

namespace Manifest

/-! ### Lines that the reader looks at -/

/-- Empty lines change nothing, wherever they stand. -/
theorem readLines_filter (state : State) (lines : List (List Char)) :
    readLines state (lines.filter (!·.isEmpty)) = readLines state lines := by
  induction lines generalizing state with
  | nil => rfl
  | cons line lines ih =>
    cases line with
    | nil =>
      rw [List.filter_cons_of_neg (by decide), ih, readLines, readLine_nil, pure_bind]
    | cons c line =>
      rw [List.filter_cons_of_pos rfl, readLines, readLines]
      exact congrArg _ (funext ih)

theorem ofChars_eq_heldLines (text : List Char) :
    ofChars text = do
      let state ← readLines ⟨[], []⟩ (Newline.heldLines text)
      return state.properties := by
  rw [ofChars_eq, Newline.heldLines, readLines_filter]

/-- A manifest is read alike however its lines end: the headers, the log and the fault stay the
same if each line end is written as any of the three. -/
theorem outcome_restyle (ends : Nat → Newline.LineEnd) (text : List Char) :
    (ofBytes (Utf8.encode (Newline.restyle ends text))).outcome =
      (ofBytes (Utf8.encode text)).outcome := by
  have hchars : ofChars (Newline.restyle ends text) = ofChars text := by
    rw [ofChars_eq_heldLines, ofChars_eq_heldLines, Newline.heldLines_restyle]
  rw [ofBytes_encode, ofBytes_encode, hchars]

end Manifest

end ClassInspect
