import ClassInspect.Proofs.Analysis
import ClassInspect.Proofs.Command.Run
import Mathlib.Control.Monad.Basic

/-!
# Walks through a jar

What is wrong with a class of a jar is a report about the format, which is logged, and the run
ends with status 1. What is wrong with its manifest is not: a header without a colon and bytes
that are no text are faults that nothing handles, so a walk gets past the manifest only if it can
be read (`run_jar`).

The first rests on what the reader of class files can fail with, and on an induction on the names of
the classes (`exists_adds_visitClasses`). The second rests on what the reader of manifests can fail
with, which is found by going through it (`Manifest.failsWith_ofBytes`): there are two faults, and
neither is a report about the format. `OpensJar.run_of_adds` gets from a walk to the run around it,
and is used for both.
-/

namespace ClassInspect

variable {α β : Type}

/-! ### Faults of a manifest -/

namespace Logged

/-- Whatever is in the log, a computation fails with allowed faults only. -/
def FailsWith (computation : Logged α) (allowed : Fault → Prop) : Prop :=
  ∀ log fault log', computation log = .error fault log' → allowed fault

variable {allowed : Fault → Prop}

theorem failsWith_pure (value : α) : FailsWith (pure value) allowed :=
  fun _ _ _ h ↦ by cases h

theorem failsWith_note (level : Log.Level) (source : Log.Source) (message : Text) :
    FailsWith (note level source message) allowed :=
  fun _ _ _ h ↦ by cases h

theorem failsWith_throw {fault : Fault} (h : allowed fault) :
    FailsWith (throw fault : Logged α) allowed := by
  intro log fault' log' hthrow
  cases hthrow
  exact h

theorem FailsWith.bind {first : Logged α} {next : α → Logged β} (hfirst : FailsWith first allowed)
    (hnext : ∀ value, FailsWith (next value) allowed) : FailsWith (first >>= next) allowed := by
  intro log fault log' h
  rcases hrun : first log with ⟨value, log''⟩ | ⟨fault', log''⟩
  · rw [bind_of_ok hrun] at h
    exact hnext value log'' fault log' h
  · rw [bind_of_error hrun] at h
    cases h
    exact hfirst log fault log' hrun

theorem FailsWith.outcome {computation : Logged α} {fault : Fault}
    (h : FailsWith computation allowed) (hfault : computation.outcome.1 = .error fault) :
    allowed fault := by
  rw [Logged.outcome] at hfault
  rcases hrun : computation #[] with ⟨value, log⟩ | ⟨fault', log⟩
  · rw [hrun] at hfault
    cases hfault
  · rw [hrun] at hfault
    cases hfault
    exact h #[] fault log hrun

end Logged

namespace Manifest

open Logged (FailsWith)

/-- A manifest is refused for a header without a colon, or for bytes that are no text. -/
def Refusal (fault : Fault) : Prop :=
  fault = .headerWithoutColon ∨ ∃ error, fault = .undecodable error

theorem failsWith_readLine (state : State) (line : List Char) :
    FailsWith (readLine state line) Refusal := by
  unfold readLine
  split
  · exact Logged.failsWith_pure _
  · split
    · exact Logged.failsWith_pure _
    · split
      · exact Logged.failsWith_throw (.inl rfl)
      · dsimp only
        split
        · exact (Logged.failsWith_note _ _ _).bind fun _ ↦ Logged.failsWith_pure _
        · exact Logged.failsWith_pure _

theorem failsWith_readLines (state : State) (lines : List (List Char)) :
    FailsWith (readLines state lines) Refusal := by
  induction lines generalizing state with
  | nil => exact Logged.failsWith_pure state
  | cons line lines ih => exact (failsWith_readLine state line).bind ih

theorem failsWith_ofChars (chars : List Char) : FailsWith (ofChars chars) Refusal :=
  (failsWith_readLines _ _).bind fun state ↦ Logged.failsWith_pure state.properties

theorem failsWith_ofBytes (data : Bytes) : FailsWith (ofBytes data) Refusal := by
  have hfinish (manifest : Manifest) : FailsWith (do
      note .debug s!"Read manifest: {manifest.label}"
      return manifest) Refusal :=
    (Logged.failsWith_note _ _ _).bind fun _ ↦ Logged.failsWith_pure manifest
  unfold ofBytes
  refine (Logged.failsWith_note _ _ _).bind fun _ ↦ ?_
  dsimp only
  split
  · exact (failsWith_ofChars _).bind hfinish
  · split
    · exact (failsWith_readLines _ _).bind fun _ ↦
        (Logged.failsWith_throw (.inr ⟨_, rfl⟩)).bind hfinish
    · exact (Logged.failsWith_throw (.inr ⟨_, rfl⟩)).bind hfinish

end Manifest

/-! ### Walks -/

namespace Jar

variable {jar : Jar}

/-- The manifest can be read, if there is one. -/
def HasReadableManifest (jar : Jar) : Prop :=
  ∀ data, jar.find? manifestName = some data →
    ∃ manifest, (Manifest.ofBytes data).outcome.1 = .ok manifest

/-- All that matters about the manifest of a jar is whether it can be read. -/
theorem outcome_enter_of_some {data : Bytes} (h : jar.find? manifestName = some data) :
    jar.enter.outcome.1 = (Manifest.ofBytes data).outcome.1.map fun _ ↦ () := by
  have henter : jar.enter = (do let _ ← Manifest.ofBytes data) := by
    rw [enter, h]
  rw [henter, Logged.outcome, Logged.outcome]
  rcases hrun : Manifest.ofBytes data #[] with ⟨manifest, log⟩ | ⟨fault, log⟩
  · rw [Logged.bind_of_ok hrun]
    rfl
  · rw [Logged.bind_of_error hrun]
    rfl

theorem outcome_enter_of_readable (h : jar.HasReadableManifest) :
    jar.enter.outcome.1 = .ok () := by
  rcases hdata : jar.find? manifestName with _ | data
  · rw [Logged.outcome, enter, hdata]
    rfl
  · obtain ⟨manifest, hmanifest⟩ := h data hdata
    rw [outcome_enter_of_some hdata, hmanifest]
    rfl

/-- A class of a jar is read as its bytes are. -/
theorem outcome_load (jar : Jar) (verbose : Bool) (name : String) :
    (jar.load verbose name).outcome.1 =
      (ClassFile.parse ((jar.find? name).getD []) verbose).outcome.1 := by
  have hyields : Logged.Yields (jar.load verbose name)
      (ClassFile.parse ((jar.find? name).getD []) verbose).outcome.1 :=
    (Logged.yields_note _ _ _).bind fun _ ↦ ClassFile.yields_parse _ verbose
  exact hyields.outcome_eq

/-- Whatever keeps a class of a jar from being read is a report about the format. -/
theorem isSome_formatError?_of_load {verbose : Bool} {name : String} {fault : Fault}
    (h : (jar.load verbose name).outcome.1 = .error fault) : fault.formatError?.isSome := by
  rw [outcome_load] at h
  exact ClassFile.isSome_formatError?_of_parse h

end Jar

namespace Command

open Run (Adds)

/-- The classes of a jar are visited to the end, or to the first that is not a class. -/
theorem exists_adds_visitClasses (jar : Jar) (verbose : Bool) (names : List String) :
    ∃ ending added, Adds (visitClasses jar verbose names) ending added ∧
      (ending = .ok () ∨
        ∃ fault, ending = .error (.fault fault) ∧ fault.formatError?.isSome) := by
  induction names with
  | nil => exact ⟨_, _, Run.adds_pure (), .inl rfl⟩
  | cons name names ih =>
    obtain ⟨ending, added, hadds, hending⟩ := ih
    rcases hload : (jar.load verbose name).outcome.1 with fault | file
    · exact ⟨_, _, (Run.adds_ofLogged_of_error hload).bind_error,
        .inr ⟨fault, rfl, Jar.isSome_formatError?_of_load hload⟩⟩
    · exact ⟨ending, _, (Run.adds_ofLogged_of_ok hload).bind ((Run.adds_put _).bind hadds), hending⟩

/-- A jar was asked for, and an archive stands there. -/
structure OpensJar (env : Environment) (arguments : List String) (settings : Settings)
    (disk : Disk) (jar : Jar) : Prop where
  setup : inspectInvocation env arguments ⟨env.files, []⟩ =
    .ok ⟨settings, .inspect (.jar jar.name)⟩ disk
  nul_not_mem : jar.name.contains nul = false
  archive : ∃ place, disk.files.openFile jar.name = .ok place ∧
    disk.files.node? place = some (.archive jar.entries)

/-- Once the archive is open, a walk reads the manifest and then visits the classes. -/
theorem walkJar_eq {files : FileSystem} {jar : Jar} (hnul : jar.name.contains nul = false)
    (harchive : ∃ place, files.openFile jar.name = .ok place ∧
      files.node? place = some (.archive jar.entries)) (verbose : Bool) :
    walkJar files jar.name verbose = (do
      Run.ofLogged (Jar.announce jar.name)
      Run.ofLogged jar.enter
      visitClasses jar verbose jar.classNames) := by
  obtain ⟨place, hopen, hnode⟩ := harchive
  rw [walkJar]
  simp only [hnul, hopen, hnode]
  rfl

section Run

variable {env : Environment} {arguments : List String} {settings : Settings} {disk : Disk}
  {jar : Jar}

/-- The records around a walk leave its status and the standard output alone. -/
theorem OpensJar.run_of_adds (h : OpensJar env arguments settings disk jar)
    (hcomplete : settings.isComplete = true) {ending : Except Stop Unit} {added : Array Output}
    (hwalk : Adds (do
      Run.ofLogged jar.enter
      visitClasses jar (1 < settings.verbosity) jar.classNames) ending added) :
    let outputs := allOutputs env disk ⟨settings, .inspect (.jar jar.name)⟩
    (run env ("java" :: arguments)).status = endStatus ending ∧
      written outputs = written added ∧
      ∀ fault e, ending = .error (.fault fault) → fault.formatError? = some e →
        Reports outputs e := by
  have hannounce := Run.adds_ofLogged_of_ok (rfl : (Jar.announce jar.name).outcome.1 = .ok ())
  have hsame := walkJar_eq h.nul_not_mem h.archive (1 < settings.verbosity)
  have htask : Adds (walkJar disk.files jar.name (1 < settings.verbosity)) ending
      ((Jar.announce jar.name).outcome.2.map .record ++ added) :=
    hsame ▸ hannounce.bind hwalk
  obtain ⟨hstatus, -, more, houtputs, hmore, hreports⟩ :=
    run_of_after h.setup hcomplete (htask (opening env.versionText))
  refine ⟨hstatus, ?_, fun fault e hending hformat ↦ ?_⟩
  · rw [houtputs, written_append, written_append, written_append,
      (quiet_opening env.versionText).written_eq_nil, (quiet_records _).written_eq_nil,
      hmore.written_eq_nil, List.nil_append, List.nil_append, List.append_nil]
  · rw [houtputs]
    exact (hreports fault e hending hformat).append_left _

/-- What is wrong with a class is logged. -/
theorem OpensJar.status_of_readable (h : OpensJar env arguments settings disk jar)
    (hcomplete : settings.isComplete = true) (hmanifest : jar.HasReadableManifest) :
    (run env ("java" :: arguments)).status = .ok 0 ∨
      (run env ("java" :: arguments)).status = .ok 1 ∧
        LogsError (allOutputs env disk ⟨settings, .inspect (.jar jar.name)⟩) := by
  obtain ⟨ending, added, hvisit, hending⟩ :=
    exists_adds_visitClasses jar (1 < settings.verbosity) jar.classNames
  have henter := Run.adds_ofLogged_of_ok (Jar.outcome_enter_of_readable hmanifest)
  obtain ⟨hstatus, -, hreports⟩ := h.run_of_adds hcomplete (henter.bind hvisit)
  rcases hending with rfl | ⟨fault, rfl, hformat⟩
  · exact .inl hstatus
  · obtain ⟨e, he⟩ := Option.isSome_iff_exists.1 hformat
    exact .inr ⟨hstatus.trans (if_pos hformat), (hreports fault e rfl he).logsError⟩

/-- What is wrong with the manifest gets out of the run. -/
theorem OpensJar.status_of_refusal (h : OpensJar env arguments settings disk jar)
    (hcomplete : settings.isComplete = true) {data : Bytes} {fault : Fault}
    (hdata : jar.find? Jar.manifestName = some data)
    (hfault : (Manifest.ofBytes data).outcome.1 = .error fault) :
    (run env ("java" :: arguments)).status = .error fault ∧ Manifest.Refusal fault := by
  have houtcome : jar.enter.outcome.1 = .error fault := by
    rw [Jar.outcome_enter_of_some hdata, hfault]
    rfl
  have hrefusal := (Manifest.failsWith_ofBytes data).outcome hfault
  obtain ⟨hstatus, -⟩ := h.run_of_adds hcomplete (Run.adds_ofLogged_of_error houtcome).bind_error
  refine ⟨hstatus.trans ?_, hrefusal⟩
  -- neither of the two faults is a report about the format
  rcases hrefusal with rfl | ⟨error, rfl⟩
  · rfl
  · rfl

/-- A jar whose manifest can be read, or that has none, is walked through to its end, or the run
ends with status 1 and has logged an error. The fault of any other manifest gets out of the run: it
is a header without a colon, or bytes that are no text. -/
theorem run_jar (h : OpensJar env arguments settings disk jar)
    (hcomplete : settings.isComplete = true) :
    let outcome := run env ("java" :: arguments)
    (jar.HasReadableManifest →
      outcome.status = .ok 0 ∨
        outcome.status = .ok 1 ∧
          LogsError (allOutputs env disk ⟨settings, .inspect (.jar jar.name)⟩)) ∧
    ∀ data fault, jar.find? Jar.manifestName = some data →
      (Manifest.ofBytes data).outcome.1 = .error fault →
        outcome.status = .error fault ∧ Manifest.Refusal fault :=
  ⟨h.status_of_readable hcomplete, fun _ _ ↦ h.status_of_refusal hcomplete⟩

end Run

/-- A single jar in the working directory. -/
def Environment.ofJar (entries : List JarEntry) : Environment :=
  ⟨[(["a"], .archive entries)], [], "TIME", "PLATFORM", sampleRoom⟩

theorem opensJar_ofJar (entries : List JarEntry) :
    OpensJar (.ofJar entries) ["jar", "a"] .initial ⟨(Environment.ofJar entries).files, []⟩
      ⟨"a", entries⟩ where
  setup := by with_unfolding_all rfl
  nul_not_mem := by
    show "a".contains nul = false
    rw [String.contains_char_eq]
    decide
  archive := by
    have hparts : "a".splitOn "/" = ["a"] := by
      -- the only letter is passed over, and then the end is reached
      rw [String.splitOn, if_neg (by decide), String.splitOnAux, if_neg (by decide),
        if_neg (by decide), String.splitOnAux, if_pos (by decide)]
      decide
    refine ⟨["a"], ?_, rfl⟩
    show FileSystem.openFile [(["a"], .archive entries)] "a" = .ok ["a"]
    rw [FileSystem.openFile, FileSystem.locate, hparts]
    with_unfolding_all rfl

/-- A manifest with one header, and an empty entry that should be a class. -/
def sampleEntries : List JarEntry :=
  [⟨"META-INF/MANIFEST.MF", [0x61, 0x3A]⟩, ⟨"A.class", []⟩]

/-- The manifest of the sample can be read, and what is wrong with its class is logged. A byte that
is no text gets out of the run. -/
theorem run_jar_sampleEntries :
    ((run (.ofJar sampleEntries) ["java", "jar", "a"]).status = .ok 0 ∨
      (run (.ofJar sampleEntries) ["java", "jar", "a"]).status = .ok 1 ∧
        LogsError (allOutputs (.ofJar sampleEntries)
          ⟨(Environment.ofJar sampleEntries).files, []⟩ ⟨.initial, .inspect (.jar "a")⟩)) ∧
    (run (.ofJar [⟨"META-INF/MANIFEST.MF", [0xFF]⟩]) ["java", "jar", "a"]).status =
      .error (.undecodable ⟨0, 0xFF, 1, .invalidStart⟩) := by
  have hmanifest : Jar.HasReadableManifest ⟨"a", sampleEntries⟩ := by
    intro data hdata
    cases hdata
    exact exists_eq_ok (by decide +kernel)
  obtain ⟨hreadable, -⟩ := run_jar (opensJar_ofJar sampleEntries) rfl
  obtain ⟨-, hrefused⟩ := run_jar (opensJar_ofJar [⟨"META-INF/MANIFEST.MF", [0xFF]⟩]) rfl
  exact ⟨hreadable hmanifest, (hrefused [0xFF] _ rfl (by decide +kernel)).1⟩

/-- A manifest of one letter, which is a header without a colon, ends the run with a fault that
nothing handles. -/
theorem run_jar_escapes :
    (run (.ofJar [⟨"META-INF/MANIFEST.MF", [0x61]⟩]) ["java", "jar", "a"]).status =
      .error .headerWithoutColon :=
  ((opensJar_ofJar _).status_of_refusal rfl rfl (by decide +kernel)).1

end Command

end ClassInspect
