import ClassInspect.Manifest
import ClassInspect.Proofs.Outcome
import ClassInspect.Proofs.Text.Newline
import ClassInspect.Proofs.Text.Utf8
import Mathlib.Data.List.TakeWhile

/-!
# Folded headers

A header may be folded: its value is cut into pieces, of which the first follows the colon and each
other one makes up a line of its own behind a space (`Manifest.folded`). The pieces behind the first
are taken as they stand, wherever they were cut. The first loses the white space at its end, as the
value of a header that stands in one line does, so folding keeps a value exactly if it is not cut
behind white space for the first time (`Manifest.outcome_folded`).

A value that is cut there is not what was written (`Manifest.folding_loses_blank`).

Both headers are read from bytes. They are decoded to their text (`Manifest.ofBytes_encode`), and
the text is read as its lines are, in whichever way these end (`Manifest.ofChars_of_writes`). From
there on only lines matter: the first one is a header, since nothing was read before it, and each of
the others adds to it what stands behind its space, by induction on the pieces
(`Manifest.readLines_continuations`).
-/

namespace ClassInspect

/-! ### White space at the ends -/

namespace CharClass

variable {chars : List Char}

/-- Characters with no white space at either end. -/
def Trimmed (chars : List Char) : Prop :=
  (∀ c ∈ chars.head?, isBlank c = false) ∧ ∀ c ∈ chars.getLast?, isBlank c = false

theorem trimmed_iff :
    chars.head?.any isBlank = false ∧ chars.getLast?.any isBlank = false ↔ Trimmed chars := by
  rw [Option.any_eq_false, Option.any_eq_false]
  exact Iff.rfl

instance (chars : List Char) : Decidable (Trimmed chars) :=
  decidable_of_iff _ trimmed_iff

theorem trimLeft_eq_self_iff :
    trimLeft chars = chars ↔ ∀ c ∈ chars.head?, isBlank c = false := by
  cases chars with
  | nil => exact iff_of_true rfl nofun
  | cons c rest =>
    rw [trimLeft]
    cases hc : isBlank c with
    | false =>
      rw [List.dropWhile_cons_of_neg (Bool.not_eq_true _ ▸ hc)]
      refine iff_of_true rfl fun c' hc' ↦ ?_
      cases hc'
      exact hc
    | true =>
      rw [List.dropWhile_cons_of_pos hc]
      refine iff_of_false (fun hsame ↦ ?_) fun hhead ↦ ?_
      · have hlength := (List.dropWhile_sublist isBlank (l := rest)).length_le
        rw [hsame] at hlength
        exact Nat.not_succ_le_self _ hlength
      · exact Bool.false_ne_true ((hhead c rfl).symm.trans hc)

theorem trimRight_eq_self_iff :
    trimRight chars = chars ↔ ∀ c ∈ chars.getLast?, isBlank c = false := by
  rw [trimRight, List.reverse_eq_iff, trimLeft_eq_self_iff, List.head?_reverse]

theorem trim_eq_trimRight (h : ∀ c ∈ chars.head?, isBlank c = false) :
    trim chars = trimRight chars := by
  rw [trim, trimLeft_eq_self_iff.2 h]

theorem Trimmed.trim_eq (h : Trimmed chars) : trim chars = chars := by
  rw [trim_eq_trimRight h.1, trimRight_eq_self_iff.2 h.2]

theorem trim_cons_of_blank {c : Char} (h : isBlank c = true) (chars : List Char) :
    trim (c :: chars) = trim chars := by
  rw [trim, trimLeft, List.dropWhile_cons_of_pos h]
  rfl

theorem trim_ne_nil {c : Char} {rest : List Char} (h : isBlank c = false) :
    trim (c :: rest) ≠ [] := by
  have hhead (c' : Char) (hc' : c' ∈ (c :: rest).head?) : isBlank c' = false := by
    cases hc'
    exact h
  rw [trim_eq_trimRight hhead, trimRight, trimLeft]
  intro hnil
  have hall := List.dropWhile_eq_nil_iff.1 (List.reverse_eq_nil_iff.1 hnil)
  exact Bool.false_ne_true (h.symm.trans (hall c (List.mem_reverse.2 (.head _))))

end CharClass

open CharClass (Trimmed trim trimRight isBlank)

/-! ### Handling lines -/

namespace Manifest

variable {state : State} {key first value line : List Char} {rest : List (List Char)}
  {properties : Manifest}

theorem extend_nil (key : List Char) (properties : Manifest) :
    properties.extend key [] = properties := by
  rw [extend]
  exact (List.map_congr_left fun property _ ↦ by simp).trans (List.map_id _)

theorem extend_append (key more more' : List Char) (properties : Manifest) :
    properties.extend key (more ++ more') = (properties.extend key more).extend key more' := by
  rw [extend, extend, extend, List.map_map]
  refine List.map_congr_left fun property _ ↦ ?_
  by_cases hkey : property.key = key
  · simp only [Function.comp, if_pos hkey, List.append_assoc]
  · simp only [Function.comp, if_neg hkey]

/-- A line behind a space adds to the value of the last header. -/
theorem readLine_continuation (hkey : key ≠ []) (properties : Manifest) (piece : List Char) :
    readLine ⟨properties, key⟩ (' ' :: piece) = pure ⟨properties.extend key piece, key⟩ := by
  have hcontinues : State.isContinuation ⟨properties, key⟩ (' ' :: piece) = true := by
    simp [State.isContinuation, hkey]
  rw [readLine, if_pos hcontinues]
  rfl

/-- Lines behind spaces add what they hold to the value of the last header. -/
theorem readLines_continuations (hkey : key ≠ []) (properties : Manifest)
    (rest : List (List Char)) :
    readLines ⟨properties, key⟩ (rest.map (' ' :: ·)) =
      pure ⟨properties.extend key rest.flatten, key⟩ := by
  induction rest generalizing properties with
  | nil => rw [List.flatten_nil, extend_nil, List.map_nil, readLines]
  | cons piece rest ih =>
    rw [List.map_cons, readLines, readLine_continuation hkey, pure_bind, ih, List.flatten_cons,
      extend_append]

/-- An empty line changes nothing. -/
theorem readLine_nil (state : State) : readLine state [] = pure state := rfl

theorem readLines_append (state : State) (lines lines' : List (List Char)) :
    readLines state (lines ++ lines') =
      readLines state lines >>= fun state' ↦ readLines state' lines' := by
  induction lines generalizing state with
  | nil => rw [List.nil_append, readLines, pure_bind]
  | cons line lines ih =>
    rw [List.cons_append, readLines, readLines, bind_assoc]
    exact congrArg _ (funext ih)

/-- An empty line at the end changes nothing. -/
theorem readLines_append_nil (state : State) (lines : List (List Char)) :
    readLines state (lines ++ [[]]) = readLines state lines := by
  have hnil : (fun state' ↦ readLines state' [[]]) = pure := by
    funext state'
    rw [readLines, readLine_nil, pure_bind, readLines]
  rw [readLines_append, hnil, bind_pure]

/-- A header is cut at its first colon. -/
theorem header?_eq (hcolon : ':' ∉ key) (value : List Char) :
    header? (key ++ ':' :: value) = some ⟨trim key, trim value⟩ := by
  have hkey (c : Char) (hc : c ∈ key) : decide (c ≠ ':') = true :=
    decide_eq_true fun heq ↦ hcolon (heq ▸ hc)
  have hdrop : (key ++ ':' :: value).dropWhile (fun c ↦ decide (c ≠ ':')) = ':' :: value := by
    rw [List.dropWhile_append_of_pos hkey]
    rfl
  have htake : (key ++ ':' :: value).takeWhile (fun c ↦ decide (c ≠ ':')) = key := by
    rw [List.takeWhile_append_of_pos hkey]
    exact List.append_nil key
  rw [header?, hdrop, htake]

/-- The first header of a manifest. -/
theorem readLine_header (hblank : trim line ≠ []) {property : Property}
    (hheader : header? line = some property) :
    readLine ⟨[], []⟩ line = pure ⟨[property], property.key⟩ := by
  have hfirst : State.isContinuation ⟨[], []⟩ line = false := Bool.and_false _
  have hblank' : (trim line).isEmpty = false := List.isEmpty_eq_false_iff.2 hblank
  rw [readLine, hfirst, if_neg Bool.false_ne_true, hblank', if_neg Bool.false_ne_true, hheader]
  rfl

/-! ### Texts -/

theorem ofChars_eq (chars : List Char) :
    ofChars chars = do
      let state ← readLines ⟨[], []⟩ (Newline.linesIn chars)
      return state.properties := rfl

/-- A text is handled line by line, however its lines end. -/
theorem ofChars_of_writes {lines : List (List Char)} {text : List Char}
    (h : Newline.Writes lines text)
    (hlines : ∀ line ∈ lines, Newline.Plain line ∧ line ≠ []) :
    ofChars text = do
      let state ← readLines ⟨[], []⟩ lines
      return state.properties := by
  rw [ofChars_eq]
  rcases Newline.linesIn_of_writes h hlines with hexact | hempty
  · rw [hexact]
  · rw [hempty, readLines_append_nil]

theorem chars_map_char (chars : List Char) : Manifest.chars (chars.map .char) = chars := by
  rw [Manifest.chars, List.filterMap_map]
  exact List.filterMap_some

/-- A file in UTF-8 is read as its text is. -/
theorem ofBytes_encode (chars : List Char) :
    ofBytes (Utf8.encode chars) = do
      note .debug "Reading manifest"
      let manifest ← ofChars chars
      note .debug s!"Read manifest: {manifest.label}"
      return manifest := by
  rw [ofBytes, Utf8.decodeFrom_encode]
  dsimp only
  rw [chars_map_char]

/-- What a file in UTF-8 gives is what its text gives. -/
theorem yields_ofBytes_encode {chars : List Char} {outcome : Except Fault Manifest}
    (h : Logged.Yields (ofChars chars) outcome) :
    Logged.Yields (ofBytes (Utf8.encode chars)) outcome := by
  have hsame : (do
      let _ ← Except.ok ()
      let manifest ← outcome
      let _ ← Except.ok ()
      return manifest) = outcome := by
    cases outcome with
    | error fault => rfl
    | ok manifest => rfl
  rw [ofBytes_encode, ← hsame]
  refine (Logged.yields_note _ _ _).bind fun _ ↦ ?_
  exact h.bind fun manifest ↦ (Logged.yields_note _ _ _).bind fun _ ↦ Logged.yields_pure manifest

end Manifest

/-- A header that can be written in a line: the key is not empty and without a colon, and key and
value hold no line end, and no white space at their ends. -/
structure Property.Plain (property : Property) : Prop where
  key_ne_nil : property.key ≠ []
  key_colon : ':' ∉ property.key
  key_plain : Newline.Plain property.key
  key_trimmed : Trimmed property.key
  value_plain : Newline.Plain property.value
  value_trimmed : Trimmed property.value

namespace Manifest

/-- The lines of a header whose value was cut into pieces. -/
def folded (key first : List Char) (rest : List (List Char)) : List (List Char) :=
  (key ++ ':' :: ' ' :: first) :: rest.map (' ' :: ·)

variable {property : Property} {first : List Char} {rest : List (List Char)}

theorem plain_of_mem_folded (h : property.Plain) (hcut : property.value = first ++ rest.flatten) :
    ∀ line ∈ folded property.key first rest, Newline.Plain line ∧ line ≠ [] := by
  have hvalue : Newline.Plain (first ++ rest.flatten) := hcut ▸ h.value_plain
  intro line hline
  rcases List.mem_cons.1 hline with rfl | hrest
  · have hfirst : Newline.Plain first := hvalue.of_subset (List.subset_append_left _ _)
    have hmiddle : Newline.Plain [':', ' '] := by decide
    exact ⟨h.key_plain.append (hmiddle.append hfirst), by simp⟩
  · obtain ⟨piece, hpiece, rfl⟩ := List.mem_map.1 hrest
    have hplain : Newline.Plain piece := hvalue.of_subset fun c hc ↦
      List.mem_append_right _ (List.mem_flatten_of_mem hpiece hc)
    have hspace : Newline.Plain [' '] := by decide
    exact ⟨hspace.append hplain, nofun⟩

/-- The first piece starts with the value, so it has no white space in front. -/
theorem head?_of_cut (h : property.Plain) (hcut : property.value = first ++ rest.flatten) :
    ∀ c ∈ first.head?, isBlank c = false := by
  intro c hc
  refine h.value_trimmed.1 c ?_
  rw [hcut, List.head?_append, Option.mem_def.1 hc]
  rfl

theorem readLines_folded (h : property.Plain) (hcut : property.value = first ++ rest.flatten) :
    readLines ⟨[], []⟩ (folded property.key first rest) =
      pure ⟨[⟨property.key, trimRight first ++ rest.flatten⟩], property.key⟩ := by
  have hheader : header? (property.key ++ ':' :: ' ' :: first) =
      some ⟨property.key, trimRight first⟩ := by
    rw [header?_eq h.key_colon, h.key_trimmed.trim_eq, CharClass.trim_cons_of_blank (by decide),
      CharClass.trim_eq_trimRight (head?_of_cut h hcut)]
  have hblank : trim (property.key ++ ':' :: ' ' :: first) ≠ [] := by
    obtain ⟨c, tail, hkey⟩ := List.exists_cons_of_ne_nil h.key_ne_nil
    rw [hkey]
    exact CharClass.trim_ne_nil (h.key_trimmed.1 c (by rw [hkey]; rfl))
  rw [folded, readLines, readLine_header hblank hheader, pure_bind,
    readLines_continuations h.key_ne_nil]
  simp only [extend, List.map_cons, List.map_nil, if_pos]

/-- The value of a folded header is put together from its pieces, of which the first loses the white
space at its end. -/
theorem outcome_ofBytes_of_writes (h : property.Plain)
    (hcut : property.value = first ++ rest.flatten) {text : List Char}
    (htext : Newline.Writes (folded property.key first rest) text) :
    (ofBytes (Utf8.encode text)).outcome.1 =
      .ok [⟨property.key, trimRight first ++ rest.flatten⟩] := by
  have hchars : ofChars text = pure [⟨property.key, trimRight first ++ rest.flatten⟩] := by
    rw [ofChars_of_writes htext (plain_of_mem_folded h hcut), readLines_folded h hcut, pure_bind]
  exact (yields_ofBytes_encode (hchars ▸ Logged.yields_pure _)).outcome_eq

/-- A header in one line is read as it is, and the same header folded loses the white space at the
end of the first piece. So folding keeps the value if and only if there is none. -/
theorem outcome_folded {unfoldedText foldedText : List Char} (h : property.Plain)
    (hcut : property.value = first ++ rest.flatten)
    (hunfolded : Newline.Writes (folded property.key property.value []) unfoldedText)
    (hfolded : Newline.Writes (folded property.key first rest) foldedText) :
    (ofBytes (Utf8.encode unfoldedText)).outcome.1 = .ok [property] ∧
      (ofBytes (Utf8.encode foldedText)).outcome.1 =
        .ok [⟨property.key, trimRight first ++ rest.flatten⟩] ∧
      ((ofBytes (Utf8.encode foldedText)).outcome.1 =
        (ofBytes (Utf8.encode unfoldedText)).outcome.1 ↔
          ∀ c ∈ first.getLast?, isBlank c = false) := by
  have hwhole : (ofBytes (Utf8.encode unfoldedText)).outcome.1 = .ok [property] := by
    rw [outcome_ofBytes_of_writes h (List.append_nil _).symm hunfolded,
      CharClass.trimRight_eq_self_iff.2 h.value_trimmed.2, List.flatten_nil, List.append_nil]
  have hpieces := outcome_ofBytes_of_writes h hcut hfolded
  refine ⟨hwhole, hpieces, ?_⟩
  rw [hwhole, hpieces, ← CharClass.trimRight_eq_self_iff]
  constructor
  · intro hsame
    have hvalue : trimRight first ++ rest.flatten = property.value :=
      congrArg Property.value (List.cons.inj (Except.ok.inj hsame)).1
    exact List.append_cancel_right (hvalue.trans hcut)
  · intro hsame
    rw [hsame, ← hcut]

/-- A value cut in front of white space first and behind it then, with a line end of each kind. -/
theorem outcome_folded_sample :
    Property.Plain ⟨['A'], ['a', ' ', 'b', ' ', 'c']⟩ ∧
      (ofBytes (Utf8.encode "A: a\r\n  b \r c\n".toList)).outcome.1 =
        .ok [⟨['A'], ['a', ' ', 'b', ' ', 'c']⟩] ∧
      (ofBytes (Utf8.encode "A: a\r\n  b \r c\n".toList)).outcome.1 =
        (ofBytes (Utf8.encode "A: a b c".toList)).outcome.1 := by
  have hplain : Property.Plain ⟨['A'], ['a', ' ', 'b', ' ', 'c']⟩ :=
    ⟨by decide, by decide, by decide, by decide, by decide, by decide⟩
  have hwritten : Newline.Writes (folded ['A'] ['a'] [[' ', 'b', ' '], ['c']])
      "A: a\r\n  b \r c\n".toList :=
    .cons _ (.tail _ (.tail _ (.head _))) (.cons _ (.tail _ (.head _)) (.cons _ (.head _) .nil))
  have htrimmed : Trimmed ['a'] := by decide
  have hfolded := outcome_folded hplain rfl (.last "A: a b c".toList) hwritten
  exact ⟨hplain, hfolded.2.1, hfolded.2.2.2 htrimmed.2⟩

/-- A value that is cut behind white space for the first time is not what was written. -/
theorem folding_loses_blank :
    ¬ ∀ (property : Property) (first : List Char) (rest : List (List Char))
        (unfoldedText foldedText : List Char), property.Plain →
        property.value = first ++ rest.flatten →
        Newline.Writes (folded property.key property.value []) unfoldedText →
        Newline.Writes (folded property.key first rest) foldedText →
        (ofBytes (Utf8.encode foldedText)).outcome.1 =
          (ofBytes (Utf8.encode unfoldedText)).outcome.1 := by
  intro h
  have hsame := h ⟨['A'], ['a', ' ', 'b']⟩ ['a', ' '] [['b']] "A: a b".toList "A: a \n b".toList
    ⟨by decide, by decide, by decide, by decide, by decide, by decide⟩ rfl (.last _)
    (.cons _ (.head _) (.last _))
  revert hsame
  decide +kernel

end Manifest

end ClassInspect
