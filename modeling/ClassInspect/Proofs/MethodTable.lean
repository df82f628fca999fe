import ClassInspect.Analysis
import ClassInspect.Proofs.Keyed
import ClassInspect.Proofs.Outcome

/-!
# The table of methods

The methods of a class by signature. A signature keeps the place at which it occurred first, and it
stands for the last method that has it, so the two ends of the list of methods pull in different
directions. The invariant of the partially built table says both of the methods added so far
(`MethodTable.Tabulates`): one method more is one step (`Tabulates.insert`), and going through the
methods keeps it (`Tabulates.addAll`), with a warning for each method whose signature was there
already.

The summary of a class does not look at the table and lists every method.
-/

namespace ClassInspect

/-- The entry is that of the last one among methods that has its signature. -/
structure MethodEntry.IsLast (methods : List Method) (entry : MethodEntry) : Prop where
  signature_eq : entry.method.signature = entry.signature
  declared : methods[entry.index]? = some entry.method
  last : ∀ index method, methods[index]? = some method → method.signature = entry.signature →
    index ≤ entry.index

namespace MethodTable

/-- The signatures of a table, in order. -/
def keys (table : MethodTable) : List Text :=
  table.map MethodEntry.signature

/-- The table of a list of methods: its keys are their signatures in the order of first occurrence,
and each stands for the last method that has it. -/
structure Tabulates (methods : List Method) (table : MethodTable) : Prop where
  keys_eq : table.keys = (methods.map Method.signature).eraseDups
  nodup : table.keys.Nodup
  isLast : ∀ entry ∈ table, entry.IsLast methods

/-- A method at a place among others has the signature of an earlier one. -/
def repeats (methods : List Method) (placed : Method × Nat) : Bool :=
  (methods.take placed.2).any (·.signature = placed.1.signature)

/-- The record about a method whose signature is in the table already. -/
def warning (method : Method) : LogRecord :=
  ⟨.warning, .analysis, duplicateWarning method.signature⟩

/-- The warnings about some of the given methods, which stand at places among others. -/
def warnings (methods : List Method) (placed : List (Method × Nat)) : List LogRecord :=
  (placed.filter (repeats methods)).map fun entry ↦ warning entry.1

variable {methods : List Method} {table : MethodTable} {entry other : MethodEntry}

/-! ### One method more -/

theorem has_iff {signature : Text} : table.has signature = true ↔ signature ∈ table.keys := by
  simp [has, keys]

theorem Tabulates.has_eq (h : Tabulates methods table) (signature : Text) :
    table.has signature = methods.any (·.signature = signature) := by
  rw [Bool.eq_iff_iff, has_iff, h.keys_eq, List.mem_eraseDups]
  simp

/-- The last method with its signature stays the last if the next method has another one. -/
theorem isLast_append (h : entry.IsLast methods) {method : Method}
    (hne : entry.signature ≠ method.signature) : entry.IsLast (methods ++ [method]) := by
  refine ⟨h.signature_eq, ?_, fun index found hfound hsame ↦ ?_⟩
  · rw [List.getElem?_append_left (List.getElem?_eq_some_iff.1 h.declared).1]
    exact h.declared
  · rcases Nat.lt_or_ge index methods.length with hlt | hge
    · rw [List.getElem?_append_left hlt] at hfound
      exact h.last index found hfound hsame
    · rw [List.getElem?_append_right hge, List.getElem?_singleton] at hfound
      split at hfound
      · cases hfound
        exact absurd hsame.symm hne
      · cases hfound

/-- The next method is the last one with its signature. -/
theorem isLast_next (methods : List Method) (method : Method) :
    (MethodEntry.mk method.signature methods.length method).IsLast (methods ++ [method]) := by
  refine ⟨rfl, by simp, fun index found hfound _ ↦ ?_⟩
  have hlt := (List.getElem?_eq_some_iff.1 hfound).1
  rw [List.length_append, List.length_singleton] at hlt
  exact Nat.lt_succ_iff.1 hlt

/-- One method more. -/
theorem Tabulates.insert (h : Tabulates methods table) (method : Method) :
    Tabulates (methods ++ [method])
      (insert ⟨method.signature, methods.length, method⟩ table) := by
  rw [MethodTable.insert]
  refine ⟨?_, Keyed.nodup_put h.nodup _, fun other hother ↦ ?_⟩
  · rw [List.map_append]
    exact Keyed.map_put_of_eraseDups h.keys_eq _
  · rcases Keyed.mem_put h.nodup hother with rfl | ⟨hold, hne⟩
    · exact isLast_next methods method
    · exact isLast_append (h.isLast other hold) hne

/-- An entry more, or one in place of another. -/
theorem length_insert (entry : MethodEntry) (table : MethodTable) :
    (insert entry table).length + (if table.has entry.signature then 1 else 0) =
      table.length + 1 := by
  have hlength (table : MethodTable) : (table.map MethodEntry.signature).length = table.length :=
    List.length_map _
  rw [← hlength, ← hlength, MethodTable.insert, Keyed.map_put]
  by_cases hhas : table.has entry.signature = true
  · have hold : entry.signature ∈ table.map MethodEntry.signature := has_iff.1 hhas
    rw [if_pos hhas, if_pos hold]
  · have hnew : entry.signature ∉ table.map MethodEntry.signature :=
      fun hmem ↦ hhas (has_iff.2 hmem)
    rw [if_neg hhas, if_neg hnew, List.length_append]
    rfl

/-! ### All methods -/

theorem addAll_cons_apply (table : MethodTable) (method : Method) (index : Nat)
    (rest : List (Method × Nat)) (log : Log) :
    addAll table ((method, index) :: rest) log =
      addAll (insert ⟨method.signature, index, method⟩ table) rest
        (if table.has method.signature then log.push (warning method) else log) := by
  rw [addAll_cons]
  cases table.has method.signature <;> rfl

theorem warnings_cons (methods : List Method) (method : Method) (index : Nat)
    (rest : List (Method × Nat)) :
    warnings methods ((method, index) :: rest) =
      (if repeats methods (method, index) then [warning method] else []) ++
        warnings methods rest := by
  rw [warnings, List.filter_cons]
  split <;> rfl

/-- Methods behind those that a table has. Each of them that repeats a signature is warned of, and
each other one makes the table longer. -/
theorem Tabulates.addAll {earlier : List Method} (h : Tabulates earlier table)
    (methods : List Method) (log : Log) :
    ∃ table', MethodTable.addAll table (methods.zipIdx earlier.length) log =
        .ok table' (log ++ (warnings (earlier ++ methods)
          (methods.zipIdx earlier.length)).toArray) ∧
      Tabulates (earlier ++ methods) table' ∧
      table'.length + (warnings (earlier ++ methods) (methods.zipIdx earlier.length)).length =
        table.length + methods.length := by
  induction methods generalizing earlier table log with
  | nil =>
    rw [List.append_nil]
    refine ⟨table, ?_, h, rfl⟩
    show _ = EStateM.Result.ok table (log ++ #[])
    rw [Array.append_empty]
    rfl
  | cons method methods ih =>
    have hplace : earlier.length + 1 = (earlier ++ [method]).length := by simp
    have hall : earlier ++ method :: methods = earlier ++ [method] ++ methods := by simp
    have hrepeats : repeats (earlier ++ [method] ++ methods) (method, earlier.length) =
        table.has method.signature := by
      rw [← hall, repeats, List.take_left, h.has_eq]
    obtain ⟨table', hrun, htable', hlength⟩ := ih (h.insert method)
      (if table.has method.signature then log.push (warning method) else log)
    have hinsert := length_insert ⟨method.signature, earlier.length, method⟩ table
    rw [List.zipIdx_cons, addAll_cons_apply, hplace, hrun, hall, warnings_cons, hrepeats]
    refine ⟨table', ?_, htable', ?_⟩
    · by_cases hhas : table.has method.signature = true
      · simp [hhas]
      · simp [hhas]
    · dsimp only at hinsert
      rw [List.length_append, List.length_cons]
      by_cases hhas : table.has method.signature = true
      · rw [if_pos hhas] at hinsert ⊢
        rw [List.length_singleton]
        omega
      · rw [if_neg hhas] at hinsert ⊢
        rw [List.length_nil]
        omega

/-- The table of a list of methods, with the warnings about all methods whose signature an earlier
one has. Every method makes an entry or a warning. -/
theorem exists_tabulates (methods : List Method) :
    ∃ table, (ofMethods methods).outcome =
        (.ok table, (warnings methods methods.zipIdx).toArray) ∧
      Tabulates methods table ∧
      table.length + (warnings methods methods.zipIdx).length = methods.length := by
  have hempty : Tabulates [] [] :=
    ⟨rfl, List.nodup_nil, fun entry hentry ↦ absurd hentry List.not_mem_nil⟩
  obtain ⟨table, hrun, htable, hlength⟩ := hempty.addAll methods #[]
  refine ⟨table, ?_, htable, by simpa using hlength⟩
  have houtcome : (ofMethods methods) #[] = _ := hrun
  rw [Logged.outcome, houtcome, Array.empty_append]
  rfl

end MethodTable

/-! ### The summary -/

namespace ClassFile

end ClassFile

end ClassInspect
