import ClassInspect.Proofs.Analysis
import ClassInspect.Proofs.Command.Run
import ClassInspect.Proofs.Report.Listing

/-!
# Reports on a class

The commands that report on a class write all of their report or nothing of it: whatever can go
wrong goes wrong before the first piece is written (`AllOrNothing`). What goes wrong is a report
about the format or a signature that the class does not have, and the run ends with status 1 for
either.
-/

namespace ClassInspect.Command

/-! ### Inputs -/

/-- The bytes that a command reads. By then the file of the report holds the records that open
every run. -/
def inputBytes (env : Environment) (settings : Settings) (files : FileSystem) : Input → Bytes
  | .stdin => env.stdin
  | .file place =>
    if settings.report = some (.file place) then
      (Transcript.ofOutputs env.clock settings (opening env.versionText)).report.toUTF8.toList
    else files.contents place

theorem readInput_opening (env : Environment) (settings : Settings) (files : FileSystem)
    (input : Input) :
    readInput env settings files input (opening env.versionText) =
      .ok (inputBytes env settings files input) (opening env.versionText) := by
  cases input with
  | stdin => rfl
  | file place =>
    by_cases hreport : settings.report = some (.file place)
    · simp only [readInput, inputBytes, hreport, if_true]
      rfl
    · simp only [readInput, inputBytes, hreport, if_false]
      rfl

/-! ### All or nothing -/

/-- A task succeeds unless the condition holds. If it does, the task fails before it writes to the
standard output, and the run ends with status 1. -/
def AllOrNothing (task : Run Unit) (fails : Prop) : Prop :=
  (¬ fails ∧ ∃ added, task.Adds (.ok ()) added) ∨
    (fails ∧ ∃ stop added, task.Adds (.error stop) added ∧ stop.status = .ok 1 ∧ Quiet added)

namespace AllOrNothing

variable {α : Type} {next : α → Run Unit}

theorem congr {task : Run Unit} {fails fails' : Prop} (h : AllOrNothing task fails)
    (hiff : fails ↔ fails') : AllOrNothing task fails' := by
  rwa [← propext hiff]

theorem of_adds {task : Run Unit} {added : Array Output} (h : task.Adds (.ok ()) added) :
    AllOrNothing task False :=
  .inl ⟨not_false, added, h⟩

/-- What is put out first must be quiet, since the rest may fail. -/
theorem bind {first : Run α} {value : α} {added : Array Output} {fails : Prop}
    (hfirst : first.Adds (.ok value) added) (hquiet : Quiet added)
    (hnext : AllOrNothing (next value) fails) : AllOrNothing (first >>= next) fails := by
  rcases hnext with ⟨hfails, more, hmore⟩ | ⟨hfails, stop, more, hmore, hstatus, hquiet'⟩
  · exact .inl ⟨hfails, _, hfirst.bind hmore⟩
  · exact .inr ⟨hfails, stop, _, hfirst.bind hmore, hstatus, hquiet.append hquiet'⟩

/-- A computation that only logs may come first, if its faults are reports about the format. -/
theorem bind_ofLogged {computation : Logged α} {fails : α → Prop}
    (hformat : ∀ fault, computation.outcome.1 = .error fault → fault.formatError?.isSome)
    (hnext : ∀ value, computation.outcome.1 = .ok value →
      AllOrNothing (next value) (fails value)) :
    AllOrNothing (Run.ofLogged computation >>= next)
      ((∃ fault, computation.outcome.1 = .error fault) ∨
        ∃ value, computation.outcome.1 = .ok value ∧ fails value) := by
  rcases houtcome : computation.outcome.1 with fault | value
  · have hstatus : (Stop.fault fault).status = .ok 1 := if_pos (hformat fault houtcome)
    exact .inr ⟨.inl ⟨fault, rfl⟩, .fault fault, _,
      (Run.adds_ofLogged_of_error houtcome).bind_error, hstatus, quiet_records _⟩
  · refine (bind (Run.adds_ofLogged_of_ok houtcome) (quiet_records _)
      (hnext value houtcome)).congr ⟨fun hfails ↦ .inr ⟨value, rfl, hfails⟩, ?_⟩
    rintro (⟨fault, hfault⟩ | ⟨found, hfound, hfails⟩)
    · cases hfault
    · cases hfound
      exact hfails

end AllOrNothing

/-! ### The commands -/

/-- The listings of all methods are made before the first of them is written. -/
theorem allOrNothing_listings {pool : Pool} (hsound : pool.Sound) (colour : Bool)
    (methods : List Method) :
    AllOrNothing
      (do
        let listings ← Run.ofLogged (methods.mapM (·.listing pool))
        emit colour (.lines listings))
      (∃ method ∈ methods, ∃ fault, (method.listing pool).outcome.1 = .error fault) := by
  let makeAll : Logged (List Text) := methods.mapM (·.listing pool)
  have houtcome : makeAll.outcome.1 = methods.mapM (fun method ↦ (method.listing pool).outcome.1) :=
    (Logged.Yields.mapM (fun method ↦ method.yields_outcome_listing pool) methods).outcome_eq
  have hformat (fault : Fault) (h : makeAll.outcome.1 = .error fault) :
      fault.formatError?.isSome := by
    rw [houtcome] at h
    obtain ⟨method, -, hmethod⟩ := exists_mem_of_mapM_eq_error h
    exact Method.isSome_formatError?_of_listing hsound hmethod
  refine (AllOrNothing.bind_ofLogged hformat fun listings _ ↦
    .of_adds (Run.adds_put _)).congr ?_
  rw [houtcome, exists_mapM_eq_error_iff]
  simp

/-- A signature is found if it is in the table. -/
theorem has_eq_isSome_find? (table : MethodTable) (signature : Text) :
    table.has signature = (table.find? signature).isSome :=
  List.isSome_find?.symm

/-- The table has no method of the signature that was asked for, or one of the methods to list
has no listing. A method that was not named cannot be listed at all. -/
def MethodChoice.Fails (choice : MethodChoice) (analysis : Analysis) : Prop :=
  let unlisted (entry : MethodEntry) : Prop :=
    ∃ fault, (entry.method.listing analysis.file.pool).outcome.1 = .error fault
  match choice with
  | .all => ∃ entry ∈ analysis.methods, unlisted entry
  | .one signature =>
    analysis.methods.has (.lit signature) = false ∨
      ∃ entry, analysis.methods.find? (.lit signature) = some entry ∧ unlisted entry
  | .unnamed => True

/-- Methods are chosen before they are listed. -/
theorem allOrNothing_javap {analysis : Analysis} (hsound : analysis.file.pool.Sound)
    (colour : Bool) {choice : MethodChoice} (hchoice : choice ≠ .unnamed) :
    AllOrNothing
      (do
        let methods ← selectMethods analysis.methods choice
        let listings ← Run.ofLogged (methods.mapM (·.listing analysis.file.pool))
        emit colour (.lines listings))
      (choice.Fails analysis) := by
  cases choice with
  | unnamed => exact absurd rfl hchoice
  | all =>
    refine (AllOrNothing.bind (Run.adds_pure _) quiet_empty
      (allOrNothing_listings hsound colour _)).congr ?_
    simp [MethodChoice.Fails]
  | one signature =>
    have hhas := has_eq_isSome_find? analysis.methods (.lit signature)
    rcases hfind : analysis.methods.find? (.lit signature) with _ | entry
    · have hselect : selectMethods analysis.methods (.one signature) =
          (do
            Run.note .error .command (.lit s!"No method with signature {signature}")
            throw (.exit 1)) := by
        rw [selectMethods, hfind]
      rw [hfind] at hhas
      rw [hselect]
      -- the error is only logged, and the run is told how to end
      exact .inr ⟨.inl hhas, .exit 1, _,
        ((Run.adds_put _).bind (Run.adds_throw _)).bind_error, rfl, by simp [Quiet]⟩
    · have hselect : selectMethods analysis.methods (.one signature) = pure [entry.method] := by
        rw [selectMethods, hfind]
      rw [hfind] at hhas
      rw [hselect]
      refine (AllOrNothing.bind (Run.adds_pure _) quiet_empty
        (allOrNothing_listings hsound colour _)).congr ?_
      simp [MethodChoice.Fails, hfind, hhas]

/-- What keeps a command from reporting on a class that was analysed. -/
def Inspection.Fails (analysis : Analysis) : Inspection → Prop
  | .javap _ choice _ _ => choice.Fails analysis
  | _ => False

/-- The class file of a command that reports on a class, unless constants are dumped first or
the method to list was not named. -/
def Inspection.classInput? : Inspection → Option Input
  | .summary _ input | .methods input => some input
  | .javap _ choice constants input =>
    if choice = .unnamed ∨ constants = true then none else some input
  | _ => none

/-- Every command first analyses its bytes. -/
theorem allOrNothing_analysis {data : Bytes} {verbose : Bool} {report : Analysis → Run Unit}
    {fails : Analysis → Prop}
    (h : ∀ analysis, analysis.file.pool.Sound → AllOrNothing (report analysis) (fails analysis)) :
    AllOrNothing (Run.ofLogged (Analysis.ofBytes data verbose) >>= report)
      ((∃ fault, (Analysis.ofBytes data verbose).outcome.1 = .error fault) ∨
        ∃ analysis, (Analysis.ofBytes data verbose).outcome.1 = .ok analysis ∧ fails analysis) :=
  .bind_ofLogged (fun _ ↦ Analysis.isSome_formatError?_of_outcome) fun analysis hanalysis ↦
    h analysis (ClassFile.sound_of_parse (Analysis.parse_of_outcome hanalysis))

/-- Signatures can always be written. -/
theorem exists_adds_signatures (methods : MethodTable) : ∃ added,
    Run.Adds (do for entry in methods do emit false entry.signature) (.ok ()) added := by
  have hloop : ∃ added, Run.Adds (forIn methods PUnit.unit fun entry _ ↦ do
      emit false entry.signature
      return .yield PUnit.unit) (.ok PUnit.unit) added := by
    induction methods with
    | nil => exact ⟨#[], Run.adds_pure _⟩
    | cons entry methods ih =>
      obtain ⟨added, hadded⟩ := ih
      rw [List.forIn_cons]
      have hentry : Run.Adds (do emit false entry.signature; return ForInStep.yield PUnit.unit)
          (.ok (.yield PUnit.unit)) _ := (Run.adds_put _).bind (Run.adds_pure _)
      exact ⟨_, hentry.bind hadded⟩
  obtain ⟨added, hadded⟩ := hloop
  exact ⟨_, hadded.bind (Run.adds_pure ())⟩

/-- Once the input is read, a command on a class fails as given or writes its report. -/
theorem exists_allOrNothing_inspect {inspection : Inspection} {input : Input}
    (hinput : inspection.classInput? = some input) {read : Input → Run Bytes}
    {outputs : Array Output} {data : Bytes} (hread : read input outputs = .ok data outputs)
    (files : FileSystem) (verbose : Bool) :
    ∃ task, inspect files read verbose inspection outputs = task outputs ∧
      AllOrNothing task
        ((∃ fault, (Analysis.ofBytes data verbose).outcome.1 = .error fault) ∨
          ∃ analysis, (Analysis.ofBytes data verbose).outcome.1 = .ok analysis ∧
            inspection.Fails analysis) := by
  cases inspection with
  | nothing => cases hinput
  | jar path => cases hinput
  | summary colour input =>
    cases hinput
    exact ⟨_, Run.bind_of_ok hread _, allOrNothing_analysis fun _ _ ↦ .of_adds (Run.adds_put _)⟩
  | methods input =>
    cases hinput
    refine ⟨_, Run.bind_of_ok hread _, allOrNothing_analysis fun analysis _ ↦ ?_⟩
    obtain ⟨added, hadded⟩ := exists_adds_signatures analysis.methods
    exact .of_adds hadded
  | javap colour choice constants input =>
    have hcommand : ¬ (choice = .unnamed ∨ constants = true) := fun h ↦ by
      rw [Inspection.classInput?, if_pos h] at hinput
      cases hinput
    rw [Inspection.classInput?, if_neg hcommand] at hinput
    cases hinput
    obtain ⟨hchoice, hconstants⟩ := not_or.1 hcommand
    obtain rfl : constants = false := Bool.not_eq_true _ ▸ hconstants
    exact ⟨_, Run.bind_of_ok hread _, allOrNothing_analysis fun analysis hsound ↦
      allOrNothing_javap hsound colour hchoice⟩

/-- A command that reports on a class ends normally, or it ends with status 1 and has then put out
nothing for the standard output, which shows the lines of the report if that was sent there: one for
each record of the run. It ends with status 1 exactly if the bytes cannot be analysed, or if methods
are to be listed and the one asked for is not in the table or one of them cannot be listed. -/
theorem run_writes_all_or_nothing {env : Environment} {arguments : List String}
    {settings : Settings} {inspection : Inspection} {disk : Disk} {input : Input}
    (hsetup : inspectInvocation env arguments ⟨env.files, []⟩ =
      .ok ⟨settings, .inspect inspection⟩ disk)
    (hinput : inspection.classInput? = some input) (hcomplete : settings.isComplete = true) :
    let outcome := run env ("java" :: arguments)
    let outputs := allOutputs env disk ⟨settings, .inspect inspection⟩
    let analysed :=
      (Analysis.ofBytes (inputBytes env settings disk.files input)
        (1 < settings.verbosity)).outcome.1
    (outcome.status = .ok 0 ∨
      outcome.status = .ok 1 ∧ Quiet outputs ∧
        outcome.stdout = Transcript.reportLines env.clock settings (records outputs)) ∧
    (outcome.status = .ok 1 ↔
      (∃ fault, analysed = .error fault) ∨
        ∃ analysis, analysed = .ok analysis ∧ inspection.Fails analysis) := by
  intro outcome outputs analysed
  obtain ⟨task, hsame, htask⟩ := exists_allOrNothing_inspect hinput
    (readInput_opening env settings disk.files input) disk.files (1 < settings.verbosity)
  have hperform (ending : Except Stop Unit) (added : Array Output) (h : task.Adds ending added) :
      (perform env disk.files ⟨settings, .inspect inspection⟩).after (opening env.versionText) =
        (ending, opening env.versionText ++ added) := by
    rw [← h, Run.after, Run.after, ← hsame]
    rfl
  rcases htask with ⟨hfails, added, hadds⟩ | ⟨hfails, stop, added, hadds, hstop, hquiet⟩
  · obtain ⟨hstatus, -⟩ := run_of_after hsetup hcomplete (hperform _ _ hadds)
    refine ⟨.inl hstatus, fun hone ↦ ?_, fun h ↦ absurd h hfails⟩
    rw [hstatus] at hone
    cases hone
  · obtain ⟨hstatus, hstdout, more, houtputs, hmore, -⟩ :=
      run_of_after hsetup hcomplete (hperform _ _ hadds)
    have hone : outcome.status = .ok 1 := hstatus.trans hstop
    have hall : Quiet outputs := by
      show Quiet (allOutputs env disk ⟨settings, .inspect inspection⟩)
      rw [houtputs]
      exact ((quiet_opening env.versionText).append hquiet).append hmore
    exact ⟨.inr ⟨hone, hall, hstdout.trans (Transcript.stdout_of_quiet env.clock settings hall)⟩,
      fun _ ↦ hfails, fun _ ↦ hone⟩

/-- No files, and the given bytes on the standard input. -/
def Environment.ofInput (stdin : Bytes) : Environment :=
  ⟨[], stdin, "TIME", "PLATFORM", sampleRoom⟩

/-- A class of two methods. The code of the second one has no listing. -/
def sampleLate : Bytes :=
  [0xCA, 0xFE, 0xBA, 0xBE, 0, 0, 0, 52, 0, 7, 1, 0, 1, 0x41, 7, 0, 1,
    1, 0, 4, 0x43, 0x6F, 0x64, 0x65, 1, 0, 1, 0x6D, 1, 0, 3, 0x28, 0x29, 0x56, 1, 0, 1, 0x6E,
    0, 0x21, 0, 2, 0, 0, 0, 0, 0, 0, 0, 2,
    0, 1, 0, 4, 0, 5, 0, 1, 0, 3, 0, 0, 0, 13, 0, 1, 0, 1, 0, 0, 0, 1, 0xB1, 0, 0, 0, 0,
    0, 1, 0, 6, 0, 5, 0, 1, 0, 3, 0, 0, 0, 13, 0, 1, 0, 1, 0, 0, 0, 1, 0xCB, 0, 0, 0, 0,
    0, 0]

/-- The first method was decoded, and yet the standard output shows nothing but the report. -/
theorem run_writes_all_or_nothing_sampleLate :
    let outcome := run (.ofInput sampleLate) ["java", "--report", "-", "javap", "-"]
    let settings : Settings := { Settings.initial with report := some .output }
    let outputs := allOutputs (.ofInput sampleLate) ⟨[], []⟩
      ⟨settings, .inspect (.javap false .all false .stdin)⟩
    outcome.status = .ok 1 ∧
      ⟨.debug, .decoder, .lit "Decoded 1 instructions from 1 bytes"⟩ ∈ records outputs ∧
      Quiet outputs ∧
      outcome.stdout = Transcript.reportLines "TIME" settings (records outputs) := by
  have hsetup : inspectInvocation (.ofInput sampleLate) ["--report", "-", "javap", "-"] ⟨[], []⟩ =
      .ok ⟨{ Settings.initial with report := some .output },
        .inspect (.javap false .all false .stdin)⟩ ⟨[], []⟩ := by
    with_unfolding_all rfl
  obtain ⟨hends, -⟩ := run_writes_all_or_nothing hsetup rfl rfl
  have hone : (run (.ofInput sampleLate) ["java", "--report", "-", "javap", "-"]).status =
      .ok 1 := by
    decide +kernel
  refine ⟨hone, by decide +kernel, ?_⟩
  rcases hends with hzero | ⟨-, hquiet, hstdout⟩
  · rw [hone] at hzero
    cases hzero
  · exact ⟨hquiet, hstdout⟩

/-- A report may be sent to the standard output, so that a command that fails has written to it.
And a method or a level that is asked for without a value is not noticed in time. -/
theorem run_not_all_or_nothing :
    ((run (.ofInput []) ["java", "--report", "-", "summary", "-"]).status = .ok 1 ∧
      (run (.ofInput []) ["java", "--report", "-", "summary", "-"]).stdout ≠ "") ∧
    (run (.ofInput ClassFile.sample) ["java", "javap", "--method=--", "-"]).status =
      .error .signatureWithoutValue ∧
    (run (.ofInput ClassFile.sample) ["java", "--log=--", "summary", "-"]).status =
      .error .levelWithoutValue := by
  decide +kernel

end ClassInspect.Command
