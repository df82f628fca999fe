import ClassInspect.Command.Task
import ClassInspect.Proofs.Outcome

/-!
# What a run leaves behind

A task only adds to what was put out, and apart from reading an input it never looks at it. So it
is described by how it ends and by what it adds (`Run.Adds`), and tasks in a row by both of these
in turn. A run ends with the status of its task, and it adds nothing of its own to the standard
output except for the lines of a report that was sent there.

## What the results rest on

* `Run.Adds` holds for all that may have been put out before. This is what makes it compose
  (`Run.Adds.bind`): the second task starts from whatever the first one left.
* The streams are what a fold over the outputs makes of them. What one output shows does not depend
  on the others, so the standard output is what they show, one after the other
  (`Transcript.stdout_ofOutputs`). For outputs that write nothing there (`Quiet`), these are the
  lines of a report, one for each record (`Transcript.stdout_of_quiet`), and without such a report
  they are the texts written there (`Transcript.stdout_of_report_ne`).
* Around the task a run has a few records and, if the task stopped early, says why. All of this is
  quiet, so it can be left out of account for the standard output (`exists_supervise`). What is
  wrong with the format of a file is not left out: it is logged and printed (`Reports`).
* `run_of_after` puts these together for a whole invocation, given what its task does.
-/

namespace ClassInspect.Command

variable {α β : Type}

/-! ### Tasks -/

namespace Run

/-- How a task ends, and all that is put out by then. -/
def after (task : Run α) (outputs : Array Output) : Except Stop α × Array Output :=
  match task outputs with
  | .ok value outputs => (.ok value, outputs)
  | .error stop outputs => (.error stop, outputs)

/-- Whatever was put out before, a task ends as given and adds the given outputs. -/
def Adds (task : Run α) (ending : Except Stop α) (added : Array Output) : Prop :=
  ∀ outputs, task.after outputs = (ending, outputs ++ added)

theorem after_eq_ok_iff {task : Run α} {value : α} {outputs outputs' : Array Output} :
    task.after outputs = (.ok value, outputs') ↔ task outputs = .ok value outputs' := by
  rw [after]
  cases task outputs with
  | ok _ _ => simp
  | error _ _ => simp

theorem after_eq_error_iff {task : Run α} {stop : Stop} {outputs outputs' : Array Output} :
    task.after outputs = (.error stop, outputs') ↔ task outputs = .error stop outputs' := by
  rw [after]
  cases task outputs with
  | ok _ _ => simp
  | error _ _ => simp

theorem bind_of_ok {first : Run α} {value : α} {outputs outputs' : Array Output}
    (h : first outputs = .ok value outputs') (next : α → Run β) :
    (first >>= next) outputs = next value outputs' := by
  simp only [bind, EStateM.bind, h]

theorem bind_of_error {first : Run α} {stop : Stop} {outputs outputs' : Array Output}
    (h : first outputs = .error stop outputs') (next : α → Run β) :
    (first >>= next) outputs = .error stop outputs' := by
  simp only [bind, EStateM.bind, h]

theorem adds_pure (value : α) : Adds (pure value : Run α) (.ok value) #[] :=
  fun outputs ↦ by rw [Array.append_empty]; rfl

theorem adds_throw (stop : Stop) : Adds (throw stop : Run α) (.error stop) #[] :=
  fun outputs ↦ by rw [Array.append_empty]; rfl

theorem adds_put (output : Output) : Adds (put output) (.ok ()) #[output] :=
  fun outputs ↦ by rw [Array.append_singleton]; rfl

theorem adds_ofLogged (computation : Logged α) :
    Adds (ofLogged computation) (computation.outcome.1.mapError .fault)
      (computation.outcome.2.map .record) := by
  intro outputs
  rw [after, ofLogged, Logged.outcome]
  cases computation #[] with
  | ok value log => rfl
  | error fault log => rfl

theorem adds_ofLogged_of_ok {computation : Logged α} {value : α}
    (h : computation.outcome.1 = .ok value) :
    Adds (ofLogged computation) (.ok value) (computation.outcome.2.map .record) := by
  have hadds := adds_ofLogged computation
  rw [h] at hadds
  exact hadds

theorem adds_ofLogged_of_error {computation : Logged α} {fault : Fault}
    (h : computation.outcome.1 = .error fault) :
    Adds (ofLogged computation) (.error (.fault fault)) (computation.outcome.2.map .record) := by
  have hadds := adds_ofLogged computation
  rw [h] at hadds
  exact hadds

namespace Adds

variable {first : Run α} {next : α → Run β} {added more : Array Output}

/-- After a task that succeeds, the next one adds to what it put out. -/
theorem bind {value : α} {ending : Except Stop β} (hfirst : Adds first (.ok value) added)
    (hnext : Adds (next value) ending more) : Adds (first >>= next) ending (added ++ more) := by
  intro outputs
  have hbind := bind_of_ok (after_eq_ok_iff.1 (hfirst outputs)) next
  rw [after, hbind, ← Array.append_assoc]
  exact hnext (outputs ++ added)

/-- Nothing comes after a task that fails. -/
theorem bind_error {stop : Stop} (hfirst : Adds first (.error stop) added) :
    Adds (first >>= next) (.error stop) added := by
  intro outputs
  rw [after_eq_error_iff]
  exact bind_of_error (after_eq_error_iff.1 (hfirst outputs)) next

end Adds

end Run

/-! ### The standard output -/

/-- Nothing was written to the standard output. -/
def Quiet (outputs : Array Output) : Prop :=
  ∀ text, .out text ∉ outputs

theorem quiet_empty : Quiet #[] := by
  simp [Quiet]

theorem quiet_records (log : Log) : Quiet (log.map .record) := by
  simp [Quiet]

theorem Quiet.append {outputs more : Array Output} (houtputs : Quiet outputs)
    (hmore : Quiet more) : Quiet (outputs ++ more) := by
  intro text
  rw [Array.mem_append]
  exact not_or.2 ⟨houtputs text, hmore text⟩

/-- The text that an output writes to the standard output. -/
def Output.written? : Output → Option String
  | .out text => some text
  | .record _ | .err _ => none

/-- The texts written to the standard output, in order. -/
def written (outputs : Array Output) : List String :=
  outputs.toList.filterMap Output.written?

@[simp]
theorem written_append (outputs more : Array Output) :
    written (outputs ++ more) = written outputs ++ written more := by
  rw [written, Array.toList_append, List.filterMap_append]
  rfl

@[simp]
theorem written_out (text : String) : written #[.out text] = [text] :=
  rfl

/-- The record that an output is. -/
def Output.record? : Output → Option LogRecord
  | .record entry => some entry
  | .out _ | .err _ => none

/-- The log records among outputs, in order. -/
def records (outputs : Array Output) : List LogRecord :=
  outputs.toList.filterMap Output.record?

theorem Quiet.written_eq_nil {outputs : Array Output} (h : Quiet outputs) :
    written outputs = [] := by
  refine List.filterMap_eq_nil_iff.2 fun output houtput ↦ ?_
  cases output with
  | out text => exact absurd (Array.mem_toList_iff.1 houtput) (h text)
  | record record => rfl
  | err text => rfl

namespace Transcript

variable (clock : String) (settings : Settings)

/-- What an output shows on the standard output, where the report may go as well. -/
def shown : Output → String
  | .out text => text
  | .err _ => ""
  | .record record =>
    if settings.report = some .output then recordLine clock record ++ "\n" else ""

theorem stdout_write (t : Transcript) (output : Output) :
    (write clock settings t output).stdout = t.stdout ++ shown clock settings output := by
  cases output with
  | out text => rfl
  | err text => exact String.append_empty.symm
  | record record =>
    -- whether a record is shown on the console is a matter of the error stream
    have hshown (text : String) : (if leastShown settings ≤ record.level.severity then
        { t with stderr := text } else t).stdout = t.stdout := by
      split
      · rfl
      · rfl
    rcases hreport : settings.report with _ | _ | _ | place
    all_goals simp [write, writeReport, shown, hreport, hshown, String.append_assoc]

/-- What was written before the rest of the outputs stays in front. -/
theorem stdout_foldl_write (outputs : List Output) (t : Transcript) :
    (outputs.foldl (write clock settings) t).stdout =
      t.stdout ++ String.join (outputs.map (shown clock settings)) := by
  induction outputs generalizing t with
  | nil => simp
  | cons output outputs ih =>
    rw [List.foldl_cons, ih, stdout_write, String.append_assoc, List.map_cons, String.join_cons]

/-- The standard output is what the outputs show there, one after the other. -/
theorem stdout_ofOutputs (outputs : Array Output) :
    (ofOutputs clock settings outputs).stdout =
      String.join (outputs.toList.map (shown clock settings)) := by
  rw [ofOutputs, ← Array.foldl_toList, stdout_foldl_write]
  exact String.empty_append

/-- The lines of a report that was sent to the standard output, and nothing without one. -/
def reportLines (records : List LogRecord) : String :=
  if settings.report = some .output then
    String.join (records.map fun record ↦ recordLine clock record ++ "\n")
  else ""

theorem shown_append_reportLines (record : LogRecord) (records : List LogRecord) :
    shown clock settings (.record record) ++ reportLines clock settings records =
      reportLines clock settings (record :: records) := by
  rw [shown, reportLines, reportLines]
  split
  · rw [List.map_cons, String.join_cons]
  · exact String.empty_append

theorem join_shown_of_quiet (outputs : List Output) (h : ∀ text, .out text ∉ outputs) :
    String.join (outputs.map (shown clock settings)) =
      reportLines clock settings (outputs.filterMap Output.record?) := by
  induction outputs with
  | nil => simp [reportLines]
  | cons output outputs ih =>
    rw [List.map_cons, String.join_cons, ih fun text htext ↦ h text (.tail _ htext)]
    cases output with
    | out text => exact absurd (.head _) (h text)
    | err text =>
      rw [List.filterMap_cons_none (rfl : (Output.err text).record? = none)]
      exact String.empty_append
    | record record =>
      rw [List.filterMap_cons_some (rfl : (Output.record record).record? = some record)]
      exact shown_append_reportLines clock settings record _

/-- Without a report on the standard output, quiet outputs show nothing there, and with one they
show its lines only, one for each record. -/
theorem stdout_of_quiet {outputs : Array Output} (h : Quiet outputs) :
    (ofOutputs clock settings outputs).stdout =
      reportLines clock settings (records outputs) := by
  rw [stdout_ofOutputs]
  exact join_shown_of_quiet clock settings outputs.toList fun text htext ↦
    h text (Array.mem_toList_iff.1 htext)

/-- Without a report on the standard output, the texts written there are all that it shows. -/
theorem stdout_of_report_ne (h : settings.report ≠ some .output) (outputs : Array Output) :
    (ofOutputs clock settings outputs).stdout = String.join (written outputs) := by
  rw [stdout_ofOutputs, written]
  induction outputs.toList with
  | nil => rfl
  | cons output outputs ih =>
    rw [List.map_cons, String.join_cons, ih]
    cases output with
    | out text =>
      rw [List.filterMap_cons_some (rfl : (Output.out text).written? = some text),
        String.join_cons, shown]
    | err text =>
      rw [List.filterMap_cons_none (rfl : (Output.err text).written? = none), shown,
        String.empty_append]
    | record record =>
      rw [List.filterMap_cons_none (rfl : (Output.record record).written? = none), shown,
        if_neg h, String.empty_append]

theorem exists_stderr_write (t : Transcript) (output : Output) :
    ∃ more, (write clock settings t output).stderr = t.stderr ++ more := by
  cases output with
  | out text => exact ⟨"", String.append_empty.symm⟩
  | err text => exact ⟨text, rfl⟩
  | record record =>
    -- a report never goes to the error stream
    have hreport (line : String) (t : Transcript) :
        (t.writeReport settings.report line).stderr = t.stderr := by
      unfold writeReport
      split
      all_goals rfl
    rw [write, hreport]
    split
    · exact ⟨_, String.append_assoc⟩
    · exact ⟨"", String.append_empty.symm⟩

theorem exists_stderr_foldl_write (outputs : List Output) (t : Transcript) :
    ∃ more, (outputs.foldl (write clock settings) t).stderr = t.stderr ++ more := by
  induction outputs generalizing t with
  | nil => exact ⟨"", String.append_empty.symm⟩
  | cons output outputs ih =>
    obtain ⟨first, hfirst⟩ := exists_stderr_write clock settings t output
    obtain ⟨more, hmore⟩ := ih (write clock settings t output)
    exact ⟨first ++ more, by rw [List.foldl_cons, hmore, hfirst, String.append_assoc]⟩

/-- What is written to the error stream is shown there. -/
theorem exists_stderr_of_mem {outputs : Array Output} {text : String} (h : .err text ∈ outputs) :
    ∃ before after, (ofOutputs clock settings outputs).stderr = before ++ text ++ after := by
  -- what comes after the text only adds to the stream
  obtain ⟨front, back, houtputs⟩ := List.append_of_mem (Array.mem_toList_iff.2 h)
  obtain ⟨after, hafter⟩ := exists_stderr_foldl_write clock settings back
    (write clock settings (front.foldl (write clock settings) empty) (.err text))
  refine ⟨(front.foldl (write clock settings) empty).stderr, after, ?_⟩
  rw [ofOutputs, ← Array.foldl_toList, houtputs, List.foldl_append, List.foldl_cons, hafter]
  rfl

end Transcript

/-- Room for a line of eighty columns. -/
def sampleRoom : HexDump.Room :=
  ⟨80, Nat.le_of_ble_eq_true rfl⟩

/-! ### The end of a run -/

/-- The status of a run whose task stops early. -/
def Stop.status : Stop → Status
  | .exit code => .ok code
  | .fault cause => if cause.formatError?.isSome then .ok 1 else .error cause
  | .notAnArchive | .unreadable _ _ => .ok 1

/-- The status of a run. -/
def endStatus : Except Stop Unit → Status
  | .ok () => .ok 0
  | .error stop => stop.status

/-- An error was logged. -/
def LogsError (outputs : Array Output) : Prop :=
  ∃ record, .record record ∈ outputs ∧ record.level = .error

/-- The records that open every run. -/
def opening (version : String) : Array Output :=
  #[.record ⟨.debug, .console, .lit "Loggers attached"⟩, .record ⟨.debug, .console, .lit version⟩]

theorem quiet_opening (version : String) : Quiet (opening version) := by
  simp [Quiet, opening]

/-- What is wrong with the format was logged as an error, and its line was printed. -/
structure Reports (outputs : Array Output) (e : FormatError) : Prop where
  logged : .record ⟨.error, .console, .lit "Error processing file: " ++ e.line⟩ ∈ outputs
  printed : .err e.printed.escaped ∈ outputs

namespace Reports

variable {outputs : Array Output} {e : FormatError}

theorem logsError (h : Reports outputs e) : LogsError outputs :=
  ⟨_, h.logged, rfl⟩

theorem append_right (h : Reports outputs e) (more : Array Output) :
    Reports (outputs ++ more) e :=
  ⟨Array.mem_append_left _ h.logged, Array.mem_append_left _ h.printed⟩

theorem append_left (h : Reports outputs e) (before : Array Output) :
    Reports (before ++ outputs) e :=
  ⟨Array.mem_append_right _ h.logged, Array.mem_append_right _ h.printed⟩

end Reports

/-- What is wrong with the format is logged as an error, and then printed. -/
theorem exists_adds_reportStop_format {fault : Fault} {e : FormatError}
    (h : fault.formatError? = some e) :
    ∃ added, Run.Adds (reportStop (.fault fault)) (.ok (.ok 1)) added ∧ Quiet added ∧
      Reports added e := by
  rw [reportStop, h]
  obtain ⟨kind, message, _ | offset⟩ := e
  · refine ⟨_, (Run.adds_put _).bind ((Run.adds_put _).bind (Run.adds_pure _)), ?_, ?_⟩
    · simp [Quiet]
    · exact ⟨by simp, by simp⟩
  · refine ⟨_, (Run.adds_put _).bind
      ((Run.adds_put _).bind ((Run.adds_put _).bind (Run.adds_pure _))), ?_, ?_⟩
    · simp [Quiet]
    · exact ⟨by simp, by simp⟩

/-- The report on why a task stopped early leaves the standard output alone. -/
theorem exists_adds_reportStop (stop : Stop) : ∃ added,
    Run.Adds (reportStop stop) (.ok stop.status) added ∧ Quiet added ∧
      ∀ fault e, stop = .fault fault → fault.formatError? = some e → Reports added e := by
  cases stop with
  | exit code => exact ⟨#[], Run.adds_pure (.ok code : Status), quiet_empty, fun _ _ h ↦ by cases h⟩
  | notAnArchive =>
    refine ⟨_, (Run.adds_put _).bind (Run.adds_pure (.ok 1 : Status)), ?_, fun _ _ h ↦ by cases h⟩
    simp [Quiet]
  | unreadable path problem =>
    refine ⟨_, (Run.adds_put _).bind (Run.adds_pure (.ok 1 : Status)), ?_, fun _ _ h ↦ by cases h⟩
    simp [Quiet]
  | fault cause =>
    rw [Stop.status]
    rcases herror : cause.formatError? with _ | e
    · have hreport : reportStop (.fault cause) = pure (.error cause) := by rw [reportStop, herror]
      rw [hreport]
      refine ⟨#[], Run.adds_pure _, quiet_empty, ?_⟩
      rintro fault e ⟨rfl⟩ hsome
      rw [herror] at hsome
      cases hsome
    · obtain ⟨added, hadded, hquiet, hreports⟩ := exists_adds_reportStop_format herror
      refine ⟨added, hadded, hquiet, ?_⟩
      rintro fault e' ⟨rfl⟩ hsome
      obtain rfl : e = e' := Option.some.inj (herror.symm.trans hsome)
      exact hreports

/-- The record that closes every run. -/
def closing : Array Output :=
  #[.record ⟨.debug, .console, .lit "Removing loggers"⟩]

theorem quiet_closing : Quiet closing := by
  simp [Quiet, closing]

theorem supervise_of_ok {version : String} {task : Run Unit} {outputs : Array Output}
    (h : task (opening version) = .ok () outputs) :
    supervise version task #[] = .ok (.ok 0) (outputs ++ closing) := by
  have htask : ((do
      Run.note .debug .console (.lit "Loggers attached")
      Run.note .debug .console (.lit version)) >>= fun _ ↦ task) #[] = .ok () outputs := h
  unfold supervise
  dsimp only
  rw [htask]
  rfl

theorem supervise_of_error {version : String} {task : Run Unit} {stop : Stop} {status : Status}
    {outputs outputs' : Array Output} (h : task (opening version) = .error stop outputs)
    (hreport : reportStop stop outputs = .ok status outputs') :
    supervise version task #[] = .ok status (outputs' ++ closing) := by
  have htask : ((do
      Run.note .debug .console (.lit "Loggers attached")
      Run.note .debug .console (.lit version)) >>= fun _ ↦ task) #[] = .error stop outputs := h
  unfold supervise
  dsimp only
  rw [htask]
  exact Run.bind_of_ok hreport _

/-- A run ends with the status of its task. What it adds to the outputs of the task leaves the
standard output alone. -/
theorem exists_supervise {version : String} {task : Run Unit} {ending : Except Stop Unit}
    {outputs : Array Output} (h : task.after (opening version) = (ending, outputs)) : ∃ added,
    supervise version task #[] = .ok (endStatus ending) (outputs ++ added) ∧ Quiet added ∧
      ∀ fault e, ending = .error (.fault fault) → fault.formatError? = some e →
        Reports added e := by
  cases ending with
  | ok value =>
    have hrun := supervise_of_ok (Run.after_eq_ok_iff.1 h)
    exact ⟨closing, hrun, quiet_closing, fun _ _ hending ↦ by cases hending⟩
  | error stop =>
    obtain ⟨added, hadds, hquiet, hreports⟩ := exists_adds_reportStop stop
    have hreport := Run.after_eq_ok_iff.1 (hadds outputs)
    have hrun := supervise_of_error (Run.after_eq_error_iff.1 h) hreport
    rw [Array.append_assoc] at hrun
    refine ⟨added ++ closing, hrun, hquiet.append quiet_closing, ?_⟩
    rintro fault e ⟨rfl⟩ hfault
    exact (hreports fault e rfl hfault).append_right closing

/-- All that an invocation puts out, with the records around its task. -/
def allOutputs (env : Environment) (disk : Disk) (invocation : Invocation) : Array Output :=
  ((supervise env.versionText (perform env disk.files invocation)).after #[]).2

section Shows

variable {env : Environment} {arguments : List String} {invocation : Invocation} {disk : Disk}

/-- A run that has a level for the console shows all that was put out. -/
theorem streams_run
    (hsetup : inspectInvocation env arguments ⟨env.files, []⟩ = .ok invocation disk)
    (hcomplete : invocation.settings.isComplete = true) :
    let transcript := Transcript.ofOutputs env.clock invocation.settings
      (allOutputs env disk invocation)
    (run env ("java" :: arguments)).stdout = transcript.stdout ∧
      (run env ("java" :: arguments)).stderr = transcript.stderr := by
  rw [run, runTool, hsetup, allOutputs, Run.after]
  dsimp only
  rw [if_pos hcomplete]
  cases supervise env.versionText (perform env disk.files invocation) #[] with
  | ok status outputs => exact ⟨rfl, rfl⟩
  | error stop outputs => exact ⟨rfl, rfl⟩

/-- It ends with the status of its task. -/
theorem run_of_after {ending : Except Stop Unit} {outputs : Array Output}
    (hsetup : inspectInvocation env arguments ⟨env.files, []⟩ = .ok invocation disk)
    (hcomplete : invocation.settings.isComplete = true)
    (htask : (perform env disk.files invocation).after (opening env.versionText) =
      (ending, outputs)) :
    (run env ("java" :: arguments)).status = endStatus ending ∧
    (run env ("java" :: arguments)).stdout = (Transcript.ofOutputs env.clock invocation.settings
      (allOutputs env disk invocation)).stdout ∧
    ∃ added, allOutputs env disk invocation = outputs ++ added ∧ Quiet added ∧
      ∀ fault e, ending = .error (.fault fault) → fault.formatError? = some e →
        Reports added e := by
  obtain ⟨added, hrun, hquiet, hreports⟩ := exists_supervise htask
  have houtputs : allOutputs env disk invocation = outputs ++ added := by
    rw [allOutputs, Run.after_eq_ok_iff.2 hrun]
  have hstatus : (run env ("java" :: arguments)).status = endStatus ending := by
    rw [run, runTool, hsetup]
    dsimp only
    rw [if_pos hcomplete, hrun]
  exact ⟨hstatus, (streams_run hsetup hcomplete).1, added, houtputs, hquiet, hreports⟩

end Shows

end ClassInspect.Command
