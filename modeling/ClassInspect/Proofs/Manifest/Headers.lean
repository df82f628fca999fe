import ClassInspect.Proofs.Keyed
import ClassInspect.Proofs.Manifest

/-!
# The headers of a manifest

What a line is depends on the lines in front of it (`Manifest.markBehind`): behind a header with a
key, a line that starts with a space continues that header; of all other lines those of nothing but
white space are blank, and the rest are headers.

A key keeps the place at which it occurred first, and its value is that of the last header that has
it, with what continues this header up to the next one. `Manifest.Tabulates` says both of the lines
read so far. A line more is one step, in which the header that is continued has to be found among
all that were read: its key is that of the last header, so no later header can have the key
(`Tabulates.extend`). Going through all lines keeps it (`Reads.readLines`), with a warning for each
header whose key was there already, unless a header lacks its colon (`Reads.readLines_of_missing`).
-/

namespace ClassInspect

open CharClass (trim)

/-- What a line is to a manifest. -/
inductive LineRole where
  | header
  | continuation
  | blank
  deriving DecidableEq, Repr

/-- A line and what it is. -/
structure MarkedLine where
  role : LineRole
  line : List Char
  deriving DecidableEq, Repr

namespace Manifest

/-- The text in front of the first colon, without the white space around it. -/
def keyOf (line : List Char) : List Char :=
  trim (line.takeWhile (· ≠ ':'))

/-- The text behind the first colon, without the white space around it. -/
def valueOf (line : List Char) : List Char :=
  trim (line.dropWhile (· ≠ ':')).tail

/-- What a line is behind the most recent header, if there is one. -/
def roleBehind (header? : Option (List Char)) (line : List Char) : LineRole :=
  if line.head? = some ' ' ∧ header?.any (keyOf · ≠ []) then .continuation
  else if trim line = [] then .blank
  else .header

/-- What each of the lines is behind the most recent header, if there is one. -/
def markBehind (header? : Option (List Char)) : List (List Char) → List MarkedLine
  | [] => []
  | line :: lines =>
    ⟨roleBehind header? line, line⟩ ::
      markBehind (if roleBehind header? line = .header then some line else header?) lines

/-- What each line of a text is. -/
def marked (text : List Char) : List MarkedLine :=
  markBehind none (Newline.linesIn text)

/-- The headers among lines. -/
def headers (lines : List MarkedLine) : List (List Char) :=
  (lines.filter (·.role = .header)).map MarkedLine.line

/-- What continues a header in front of the lines: the continuations up to the next header, each
without its first space. -/
def continued (lines : List MarkedLine) : List Char :=
  ((lines.takeWhile (·.role ≠ .header)).filter (·.role = .continuation)).flatMap (·.line.tail)

/-- The property is given by the last header with its key. -/
def IsLast (lines : List MarkedLine) (property : Property) : Prop :=
  ∃ before header after, lines = before ++ ⟨.header, header⟩ :: after ∧
    (∀ later ∈ headers after, keyOf later ≠ keyOf header) ∧
    property = ⟨keyOf header, valueOf header ++ continued after⟩

/-- The manifest of lines: its keys are those of the headers in the order of first occurrence, and
each has the value of the last header with this key. -/
structure Tabulates (lines : List MarkedLine) (manifest : Manifest) : Prop where
  keys_eq : manifest.map Property.key = ((headers lines).map keyOf).eraseDups
  nodup : (manifest.map Property.key).Nodup
  isLast : ∀ property ∈ manifest, IsLast lines property

/-- Those of the keys that occur at an earlier place, or among the earlier ones. -/
def repeats (earlier : List (List Char)) : List (List Char) → List (List Char)
  | [] => []
  | key :: keys =>
    if key ∈ earlier then key :: repeats (earlier ++ [key]) keys
    else repeats (earlier ++ [key]) keys

/-- The record about a key that is there already. -/
def warning (key : List Char) : LogRecord :=
  ⟨.warning, .reader, .lit s!"Duplicate key in manifest file: {String.ofList key}"⟩

variable {lines before after : List MarkedLine} {manifest : Manifest} {property : Property}
  {header line : List Char} {role : LineRole} {state : State}

/-! ### Headers and what continues them -/

theorem headers_append (lines lines' : List MarkedLine) :
    headers (lines ++ lines') = headers lines ++ headers lines' := by
  rw [headers, List.filter_append, List.map_append]
  rfl

theorem headers_cons_header (header : List Char) (lines : List MarkedLine) :
    headers (⟨.header, header⟩ :: lines) = header :: headers lines := rfl

theorem headers_singleton (role : LineRole) (line : List Char) :
    headers [⟨role, line⟩] = if role = .header then [line] else [] := by
  cases role <;> rfl

/-- The most recent header behind one line more. -/
theorem getLast?_headers_concat (lines : List MarkedLine) (role : LineRole) (line : List Char) :
    (headers (lines ++ [⟨role, line⟩])).getLast? =
      if role = .header then some line else (headers lines).getLast? := by
  rw [headers_append, headers_singleton, List.getLast?_append]
  split <;> rfl

/-- Lines behind others continue the same header, unless there is one among those. -/
theorem continued_append (lines more : List MarkedLine) :
    continued (lines ++ more) =
      continued lines ++ if headers lines = [] then continued more else [] := by
  induction lines with
  | nil => rfl
  | cons first lines ih =>
    obtain ⟨role, line⟩ := first
    cases role with
    | header => rfl
    | continuation =>
      show line.tail ++ continued (lines ++ more) = line.tail ++ continued lines ++ _
      rw [ih, List.append_assoc]
      rfl
    | blank => exact ih

/-- A header at a place among lines is the last one if no other follows. -/
theorem getLast?_headers_of_place (h : lines = before ++ ⟨.header, header⟩ :: after) :
    (headers lines).getLast? = some ((headers after).getLast?.getD header) := by
  rw [h, headers_append, headers_cons_header, List.getLast?_append, List.getLast?_cons]
  rfl

/-! ### One line more -/

theorem map_key_extend (key more : List Char) (manifest : Manifest) :
    (manifest.extend key more).map Property.key = manifest.map Property.key := by
  rw [extend, List.map_map]
  refine List.map_congr_left fun property _ ↦ ?_
  rw [Function.comp]
  split <;> rfl

/-- Lines that bring no new header leave the keys as they are. -/
theorem headers_concat (h : role ≠ .header) (lines : List MarkedLine) (line : List Char) :
    headers (lines ++ [⟨role, line⟩]) = headers lines := by
  rw [headers_append, headers_singleton, if_neg h, List.append_nil]

/-- A line that is blank, or a header with another key, leaves a property as it is. -/
theorem IsLast.concat (h : IsLast lines property) (hrole : role ≠ .continuation)
    (hkey : role = .header → keyOf line ≠ property.key) :
    IsLast (lines ++ [⟨role, line⟩]) property := by
  obtain ⟨before, header, after, rfl, hlater, rfl⟩ := h
  have hcontinued : continued [⟨role, line⟩] = [] := by
    cases role with
    | continuation => exact absurd rfl hrole
    | header => rfl
    | blank => rfl
  refine ⟨before, header, after ++ [⟨role, line⟩], by simp, fun later hmem ↦ ?_, ?_⟩
  · rw [headers_append, headers_singleton, List.mem_append] at hmem
    rcases hmem with hmem | hmem
    · exact hlater later hmem
    · split at hmem
      · rw [List.mem_singleton.1 hmem]
        exact hkey ‹_›
      · cases hmem
  · rw [continued_append, hcontinued, ite_self, List.append_nil]

theorem Tabulates.blank (h : Tabulates lines manifest) (line : List Char) :
    Tabulates (lines ++ [⟨.blank, line⟩]) manifest := by
  refine ⟨?_, h.nodup, fun property hmem ↦ ?_⟩
  · rw [headers_concat (by decide), h.keys_eq]
  · exact (h.isLast property hmem).concat (by decide) nofun

theorem Tabulates.put (h : Tabulates lines manifest) (header : List Char) :
    Tabulates (lines ++ [⟨.header, header⟩]) (put ⟨keyOf header, valueOf header⟩ manifest) := by
  rw [Manifest.put]
  refine ⟨?_, Keyed.nodup_put h.nodup _, fun property hmem ↦ ?_⟩
  · rw [headers_append, List.map_append]
    exact Keyed.map_put_of_eraseDups h.keys_eq _
  · rcases Keyed.mem_put h.nodup hmem with rfl | ⟨hold, hne⟩
    · exact ⟨lines, header, [], rfl, List.forall_mem_nil _, by simp [continued]⟩
    · exact (h.isLast property hold).concat (by decide) fun _ ↦ hne.symm

/-- A continuation adds to the value of the most recent header. A property with this key is given by
that header, since a later one with the key would be more recent. -/
theorem IsLast.extend (h : IsLast lines property) (hlast : (headers lines).getLast? = some header)
    (line : List Char) :
    IsLast (lines ++ [⟨.continuation, line⟩])
      (if property.key = keyOf header then { property with value := property.value ++ line.tail }
        else property) := by
  obtain ⟨before, found, after, hplace, hlater, rfl⟩ := h
  rw [getLast?_headers_of_place hplace, Option.some.injEq] at hlast
  have hsame : headers after = [] ↔ keyOf found = keyOf header := by
    rw [← List.getLast?_eq_none_iff]
    cases hmore : (headers after).getLast? with
    | none =>
      rw [hmore] at hlast
      exact iff_of_true rfl (congrArg keyOf hlast)
    | some later =>
      rw [hmore] at hlast
      refine iff_of_false nofun fun hkey ↦ ?_
      exact hlater later (List.mem_of_getLast? hmore) ((congrArg keyOf hlast).trans hkey.symm)
  refine ⟨before, found, after ++ [⟨.continuation, line⟩], by simp [hplace], ?_, ?_⟩
  · rw [headers_concat (by decide)]
    exact hlater
  · have hcontinued : continued [⟨.continuation, line⟩] = line.tail := List.append_nil _
    rw [continued_append, hcontinued]
    simp only [hsame]
    split
    · rw [List.append_assoc]
    · rw [List.append_nil]

theorem Tabulates.extend (h : Tabulates lines manifest)
    (hlast : (headers lines).getLast? = some header) (line : List Char) :
    Tabulates (lines ++ [⟨.continuation, line⟩])
      (manifest.extend (keyOf header) line.tail) := by
  refine ⟨?_, ?_, fun property hmem ↦ ?_⟩
  · rw [map_key_extend, headers_concat (by decide), h.keys_eq]
  · rw [map_key_extend]
    exact h.nodup
  · obtain ⟨old, hold, rfl⟩ := List.mem_map.1 hmem
    exact (h.isLast old hold).extend hlast line

/-! ### The reader -/

/-- The state of the reader behind lines. -/
structure Reads (lines : List MarkedLine) (state : State) : Prop where
  tabulates : Tabulates lines state.properties
  key_eq : state.key = ((headers lines).getLast?.map keyOf).getD []

theorem reads_nil : Reads [] ⟨[], []⟩ :=
  ⟨⟨rfl, List.nodup_nil, List.forall_mem_nil _⟩, rfl⟩

/-- The keys of the headers among lines. -/
def keys (lines : List MarkedLine) : List (List Char) :=
  (headers lines).map keyOf

theorem keys_append (lines lines' : List MarkedLine) :
    keys (lines ++ lines') = keys lines ++ keys lines' := by
  rw [keys, headers_append, List.map_append]
  rfl

theorem repeats_append (earlier keys keys' : List (List Char)) :
    repeats earlier (keys ++ keys') =
      repeats earlier keys ++ repeats (earlier ++ keys) keys' := by
  induction keys generalizing earlier with
  | nil => rw [List.append_nil, List.nil_append, repeats, List.nil_append]
  | cons key keys ih =>
    rw [List.cons_append, repeats, repeats, ih, List.append_assoc]
    split <;> rfl

theorem header?_of_mem (h : ':' ∈ line) : header? line = some ⟨keyOf line, valueOf line⟩ := by
  unfold header?
  split
  · rename_i hdrop
    exact absurd rfl (of_decide_eq_true (List.dropWhile_eq_nil_iff.1 hdrop ':' h))
  · rename_i value hdrop
    rw [valueOf, hdrop]
    rfl

theorem header?_of_not_mem (h : ':' ∉ line) : header? line = none := by
  have hdrop : line.dropWhile (fun c ↦ decide (c ≠ ':')) = [] :=
    List.dropWhile_eq_nil_iff.2 fun c hc ↦ decide_eq_true fun heq ↦ h (heq ▸ hc)
  rw [header?, hdrop]

theorem roleBehind_eq_continuation_iff {header? : Option (List Char)} :
    roleBehind header? line = .continuation ↔
      line.head? = some ' ' ∧ header?.any (keyOf · ≠ []) = true := by
  rw [roleBehind]
  split
  · exact iff_of_true rfl ‹_›
  · refine iff_of_false ?_ ‹_›
    split <;> decide

/-- Of the lines that continue no header, those of white space are blank. -/
theorem isEmpty_trim_iff {header? : Option (List Char)}
    (h : roleBehind header? line ≠ .continuation) :
    (trim line).isEmpty = true ↔ roleBehind header? line = .blank := by
  rw [roleBehind, if_neg fun hcontinues ↦ h (roleBehind_eq_continuation_iff.2 hcontinues),
    List.isEmpty_iff]
  split
  · exact iff_of_true ‹_› rfl
  · exact iff_of_false ‹_› (by decide)

namespace Reads

/-- The key that the reader keeps is that of the most recent header. -/
theorem isContinuation_iff (h : Reads lines state) (line : List Char) :
    state.isContinuation line = true ↔
      roleBehind (headers lines).getLast? line = .continuation := by
  rw [State.isContinuation, h.key_eq, roleBehind_eq_continuation_iff]
  cases (headers lines).getLast? with
  | none => simp
  | some header => simp

theorem has_iff (h : Reads lines state) (key : List Char) :
    state.properties.has key = true ↔ key ∈ keys lines := by
  rw [keys, ← List.mem_eraseDups, ← h.tabulates.keys_eq]
  simp [has]

theorem readLine_continuation (h : Reads lines state)
    (hrole : roleBehind (headers lines).getLast? line = .continuation) :
    ∃ state', readLine state line = pure state' ∧
      Reads (lines ++ [⟨.continuation, line⟩]) state' := by
  obtain ⟨header, hheader, -⟩ :=
    (Option.any_eq_true _ _).1 (roleBehind_eq_continuation_iff.1 hrole).2
  have hkey : state.key = keyOf header := by
    rw [h.key_eq, hheader]
    rfl
  refine ⟨{ state with properties := state.properties.extend state.key line.tail }, ?_, ?_, ?_⟩
  · rw [readLine, if_pos ((h.isContinuation_iff line).2 hrole)]
  · rw [hkey]
    exact h.tabulates.extend hheader line
  · rw [headers_concat (by decide)]
    exact h.key_eq

theorem readLine_blank (h : Reads lines state)
    (hrole : roleBehind (headers lines).getLast? line = .blank) :
    readLine state line = pure state ∧ Reads (lines ++ [⟨.blank, line⟩]) state := by
  have hcontinues : roleBehind (headers lines).getLast? line ≠ .continuation := by
    rw [hrole]
    decide
  refine ⟨?_, h.tabulates.blank line, ?_⟩
  · rw [readLine, if_neg (mt (h.isContinuation_iff line).1 hcontinues),
      if_pos ((isEmpty_trim_iff hcontinues).2 hrole)]
  · rw [headers_concat (by decide)]
    exact h.key_eq

/-- A header starts a property, or gives a new value to one. -/
theorem readLine_header (h : Reads lines state)
    (hrole : roleBehind (headers lines).getLast? line = .header) (hcolon : ':' ∈ line) (log : Log) :
    ∃ state', readLine state line log =
        .ok state' (log ++ ((repeats (keys lines) [keyOf line]).map warning).toArray) ∧
      Reads (lines ++ [⟨.header, line⟩]) state' := by
  have hcontinues : roleBehind (headers lines).getLast? line ≠ .continuation := by
    rw [hrole]
    decide
  have hblank : ¬ (trim line).isEmpty = true := by
    rw [isEmpty_trim_iff hcontinues, hrole]
    decide
  refine ⟨⟨Manifest.put ⟨keyOf line, valueOf line⟩ state.properties, keyOf line⟩, ?_,
    h.tabulates.put line, ?_⟩
  · rw [readLine, if_neg (mt (h.isContinuation_iff line).1 hcontinues), if_neg hblank,
      header?_of_mem hcolon, repeats]
    dsimp only
    by_cases hhas : state.properties.has (keyOf line) = true
    · rw [if_pos hhas, if_pos ((h.has_iff _).1 hhas)]
      show EStateM.Result.ok _ (log.push (warning (keyOf line))) = _
      simp [repeats]
    · rw [if_neg hhas, if_neg (mt (h.has_iff _).2 hhas)]
      show EStateM.Result.ok _ log = _
      simp [repeats]
  · rw [getLast?_headers_concat]
    rfl

/-- A header without a colon cannot be read. -/
theorem readLine_missing (h : Reads lines state)
    (hrole : roleBehind (headers lines).getLast? line = .header) (hcolon : ':' ∉ line) :
    readLine state line = throw .headerWithoutColon := by
  have hcontinues : roleBehind (headers lines).getLast? line ≠ .continuation := by
    rw [hrole]
    decide
  have hblank : ¬ (trim line).isEmpty = true := by
    rw [isEmpty_trim_iff hcontinues, hrole]
    decide
  rw [readLine, if_neg (mt (h.isContinuation_iff line).1 hcontinues), if_neg hblank,
    header?_of_not_mem hcolon]

/-- One line more. -/
theorem readLine (h : Reads lines state) {role : LineRole}
    (hrole : roleBehind (headers lines).getLast? line = role)
    (hcolon : role = .header → ':' ∈ line) (log : Log) :
    ∃ state', Manifest.readLine state line log =
        .ok state' (log ++ ((repeats (keys lines) (keys [⟨role, line⟩])).map warning).toArray) ∧
      Reads (lines ++ [⟨role, line⟩]) state' := by
  cases role with
  | header => exact h.readLine_header hrole (hcolon rfl) log
  | continuation =>
    obtain ⟨state', hline, hreads⟩ := h.readLine_continuation hrole
    refine ⟨state', ?_, hreads⟩
    rw [hline]
    exact congrArg _ Array.append_empty.symm
  | blank =>
    obtain ⟨hline, hreads⟩ := h.readLine_blank hrole
    refine ⟨state, ?_, hreads⟩
    rw [hline]
    exact congrArg _ Array.append_empty.symm

/-! ### All lines -/

theorem markBehind_cons {earlier : List MarkedLine} {role : LineRole}
    (hrole : roleBehind (headers earlier).getLast? line = role) (lines : List (List Char)) :
    markBehind (headers earlier).getLast? (line :: lines) =
      [⟨role, line⟩] ++ markBehind (headers (earlier ++ [⟨role, line⟩])).getLast? lines := by
  rw [markBehind, getLast?_headers_concat, hrole]
  rfl

/-- Lines behind those that were read, if no header among them lacks its colon. -/
theorem readLines {earlier : List MarkedLine} (h : Reads earlier state) (lines : List (List Char))
    (hcolon : ∀ header ∈ headers (markBehind (headers earlier).getLast? lines), ':' ∈ header)
    (log : Log) :
    ∃ state', Manifest.readLines state lines log =
        .ok state' (log ++ ((repeats (keys earlier)
          (keys (markBehind (headers earlier).getLast? lines))).map warning).toArray) ∧
      Reads (earlier ++ markBehind (headers earlier).getLast? lines) state' := by
  induction lines generalizing earlier state log with
  | nil =>
    refine ⟨state, ?_, by rwa [markBehind, List.append_nil]⟩
    exact congrArg _ Array.append_empty.symm
  | cons line lines ih =>
    obtain ⟨role, hrole⟩ : ∃ role, roleBehind (headers earlier).getLast? line = role := ⟨_, rfl⟩
    rw [markBehind_cons hrole, headers_append, List.forall_mem_append, headers_singleton] at hcolon
    rw [markBehind_cons hrole, ← List.append_assoc, keys_append, repeats_append, ← keys_append]
    obtain ⟨next, hline, hnext⟩ :=
      h.readLine hrole (fun hheader ↦ hcolon.1 line (by rw [if_pos hheader]; exact .head _)) log
    obtain ⟨state', hlines, hreads⟩ := ih hnext hcolon.2 _
    refine ⟨state', ?_, hreads⟩
    rw [Manifest.readLines, Logged.bind_of_ok hline, hlines, List.map_append,
      ← List.append_toArray, Array.append_assoc]

/-- Lines behind those that were read, if a header among them lacks its colon. -/
theorem readLines_of_missing {earlier : List MarkedLine} (h : Reads earlier state)
    {lines : List (List Char)}
    (hmissing : ∃ header ∈ headers (markBehind (headers earlier).getLast? lines), ':' ∉ header)
    (log : Log) :
    ∃ log', Manifest.readLines state lines log = .error .headerWithoutColon log' := by
  induction lines generalizing earlier state log with
  | nil =>
    obtain ⟨header, hmem, -⟩ := hmissing
    cases hmem
  | cons line lines ih =>
    obtain ⟨role, hrole⟩ : ∃ role, roleBehind (headers earlier).getLast? line = role := ⟨_, rfl⟩
    rw [markBehind_cons hrole, headers_append, headers_singleton] at hmissing
    by_cases hcolon : role = .header ∧ ':' ∉ line
    · -- the first header without a colon ends the reading
      have hline : Manifest.readLine state line log = .error .headerWithoutColon log := by
        rw [h.readLine_missing (hrole.trans hcolon.1) hcolon.2]
        rfl
      exact ⟨log, Logged.bind_of_error hline _⟩
    · obtain ⟨next, hline, hnext⟩ :=
        h.readLine hrole (fun hheader ↦ not_not.1 fun hnot ↦ hcolon ⟨hheader, hnot⟩) log
      obtain ⟨log', hlines⟩ := ih hnext (by
        obtain ⟨header, hmem, hheader⟩ := hmissing
        refine ⟨header, (List.mem_append.1 hmem).resolve_left fun hfirst ↦ ?_, hheader⟩
        split at hfirst
        · rw [List.mem_singleton.1 hfirst] at hheader
          exact hcolon ⟨‹_›, hheader⟩
        · cases hfirst) _
      exact ⟨log', (Logged.bind_of_ok hline _).trans hlines⟩

end Reads

/-! ### The whole text -/

/-- What the reader says in front of and behind the warnings. -/
def remark (message : String) : LogRecord :=
  ⟨.debug, .reader, .lit message⟩

theorem exists_outcome_of_colons {text : List Char}
    (h : ∀ header ∈ headers (marked text), ':' ∈ header) :
    ∃ manifest : Manifest, Tabulates (marked text) manifest ∧
      (ofBytes (Utf8.encode text)).outcome = (.ok manifest,
        (remark "Reading manifest" :: (repeats [] (keys (marked text))).map warning ++
          [remark s!"Read manifest: {manifest.label}"]).toArray) := by
  obtain ⟨state, hlines, hreads⟩ :=
    reads_nil.readLines (Newline.linesIn text) h #[remark "Reading manifest"]
  refine ⟨state.properties, hreads.tabulates, ?_⟩
  have hchars : ofChars text #[remark "Reading manifest"] = .ok state.properties
      (#[remark "Reading manifest"] ++ ((repeats [] (keys (marked text))).map warning).toArray) :=
    Logged.bind_of_ok hlines _
  have hbytes : ofBytes (Utf8.encode text) #[] = .ok state.properties
      ((#[remark "Reading manifest"] ++
        ((repeats [] (keys (marked text))).map warning).toArray).push
        (remark s!"Read manifest: {state.properties.label}")) := by
    rw [ofBytes_encode]
    exact Logged.bind_of_ok hchars _
  rw [Logged.outcome, hbytes, List.append_toArray, List.push_toArray]
  rfl

theorem outcome_of_missing {text : List Char}
    (h : ∃ header ∈ headers (marked text), ':' ∉ header) :
    (ofBytes (Utf8.encode text)).outcome.1 = .error .headerWithoutColon := by
  obtain ⟨log, hlines⟩ := reads_nil.readLines_of_missing h #[remark "Reading manifest"]
  have hchars : ofChars text #[remark "Reading manifest"] = .error .headerWithoutColon log :=
    Logged.bind_of_error hlines _
  have hbytes : ofBytes (Utf8.encode text) #[] = .error .headerWithoutColon log := by
    rw [ofBytes_encode]
    exact Logged.bind_of_error hchars _
  rw [Logged.outcome, hbytes]

/-- What is read from a text. It fails if and only if a header lacks its colon. Otherwise the keys
are those of the headers in the order of first occurrence, each with the value of the last header
with this key and all that continues this header, and there is one warning for each header whose key
an earlier one has. -/
theorem outcome_of_headers (text : List Char) :
    ((ofBytes (Utf8.encode text)).outcome.1 = .error .headerWithoutColon ↔
      ∃ header ∈ headers (marked text), ':' ∉ header) ∧
    ((∀ header ∈ headers (marked text), ':' ∈ header) →
      ∃ manifest : Manifest, (ofBytes (Utf8.encode text)).outcome = (.ok manifest,
          (remark "Reading manifest" :: (repeats [] (keys (marked text))).map warning ++
            [remark s!"Read manifest: {manifest.label}"]).toArray) ∧
        manifest.map Property.key = (keys (marked text)).eraseDups ∧
        ∀ property ∈ manifest, IsLast (marked text) property) := by
  refine ⟨⟨fun herror ↦ ?_, outcome_of_missing⟩, fun hcolons ↦ ?_⟩
  · by_contra hnone
    have hcolons (header : List Char) (hmem : header ∈ headers (marked text)) : ':' ∈ header :=
      not_not.1 fun hcolon ↦ hnone ⟨header, hmem, hcolon⟩
    obtain ⟨manifest, -, houtcome⟩ := exists_outcome_of_colons hcolons
    rw [houtcome] at herror
    cases herror
  · obtain ⟨manifest, htabulates, houtcome⟩ := exists_outcome_of_colons hcolons
    exact ⟨manifest, houtcome, htabulates.keys_eq, htabulates.isLast⟩

/-- A manifest with an empty key, behind which a space continues nothing, and with a repeated key
that is continued behind a blank line. -/
def sampleText : List Char :=
  "A: 1\r\n x\n: e\n y: z\rA : 2 \n\n  w\n".toList

/-- All headers of the sample have a colon, and those of a line more do not. -/
theorem outcome_of_headers_sample :
    (∀ header ∈ headers (marked sampleText), ':' ∈ header) ∧
    (∃ manifest : Manifest, (ofBytes (Utf8.encode sampleText)).outcome = (.ok manifest,
        #[remark "Reading manifest", warning ['A'], remark s!"Read manifest: {manifest.label}"]) ∧
      manifest.map Property.key = [['A'], [], ['y']] ∧
      ∀ property ∈ manifest, IsLast (marked sampleText) property) ∧
    (ofBytes (Utf8.encode (sampleText ++ ['B']))).outcome.1 = .error .headerWithoutColon := by
  have hcolons : ∀ header ∈ headers (marked sampleText), ':' ∈ header := by decide +kernel
  have hkeys : keys (marked sampleText) = [['A'], [], ['y'], ['A']] := by decide +kernel
  refine ⟨hcolons, ?_, (outcome_of_headers _).1.2 ⟨['B'], by decide +kernel, by decide⟩⟩
  obtain ⟨manifest, houtcome, hmanifest, hlast⟩ := (outcome_of_headers sampleText).2 hcolons
  rw [hkeys] at houtcome hmanifest
  exact ⟨manifest, houtcome, hmanifest, hlast⟩

end Manifest

end ClassInspect
