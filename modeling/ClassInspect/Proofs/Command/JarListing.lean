import ClassInspect.Proofs.Command.Jars
import Mathlib.Data.List.Nodup

/-!
# The listing of a jar

Classes are read one by one, and the line of each is written before the next is read. So the lines
on the standard output are those of the longest initial run of classes that can be read
(`Jar.Progress`), and the first class that cannot be read ends the run with a report about it.
Where names are distinct, each name finds the bytes of its own entry, and nothing else about the
other entries matters.

## What the theorem rests on

* `Jar.Progress` cuts the classes of a jar in two, and carries what is known of both parts: the
  entries in front hold classes, and the next one does not. The visit of the classes is shown to
  follow it, by induction on the part in front (`exists_adds_visitClasses_of_progress`). Neither
  side mentions the other, as a visit looks entries up by their names, and progress is made of
  entries.
* How the visit ends decides the status of the run, and what it writes is all that is written
  (`OpensJar.run_of_adds`). Whatever keeps a class from being read is a report about the format, so
  the run ends with status 1 and with this report (`OpensJar.listing`).
* That two jars with the same classes give the same listing needs no further argument:
  `OpensJar.listing` is about the classes, and the jar is any that has them.
-/

namespace ClassInspect

/-! ### Lines -/

namespace Text

theorem escapedChars_lit (string : String) : (lit string).escapedChars = string.toList := by
  rw [escapedChars, lit, ofChars, List.flatMap_map]
  exact List.flatMap_singleton' _

/-- Ordinary characters are shown as they are. -/
theorem escaped_lit_append (string : String) (text : Text) :
    (lit string ++ text).escaped = string ++ text.escaped := by
  have hchars : (lit string ++ text).escapedChars = string.toList ++ text.escapedChars := by
    rw [escapedChars, List.flatMap_append]
    exact congrArg (· ++ text.escapedChars) (escapedChars_lit string)
  rw [escaped, hchars, String.ofList_append, String.ofList_toList, escaped]

end Text

namespace Command

/-- A text with a line feed at its end, which is added unless it is there. -/
def ended (text : String) : String :=
  if text.toList.getLast? = some '\n' then text else text ++ "\n"

/-- A text of one line gets its line feed. -/
theorem ended_of_not_mem {text : String} (h : '\n' ∉ text.toList) : ended text = text ++ "\n" :=
  if_neg fun hlast ↦ h (List.mem_of_getLast? hlast)

theorem reportText_plain (text : Text) : reportText false text = ended text.escaped := by
  rw [reportText, ended, Text.escaped, String.toList_ofList]
  simp only [Bool.false_eq_true, if_false]
  split
  · rfl
  · exact String.ofList_append

end Command

/-! ### Entries -/

namespace Jar

/-- Where names are distinct, a name finds its own entry. -/
theorem find?_of_nodup {jar : Jar} (hnames : (jar.entries.map JarEntry.name).Nodup)
    {entry : JarEntry} (hentry : entry ∈ jar.entries) :
    jar.find? entry.name = some entry.data := by
  have hmem : entry ∈ jar.entries.reverse := List.mem_reverse.2 hentry
  obtain ⟨found, hfound⟩ : ∃ found, jar.entries.reverse.find? (·.name = entry.name) = some found :=
    Option.isSome_iff_exists.1 (List.find?_isSome.2 ⟨entry, hmem, decide_eq_true rfl⟩)
  have hname : found.name = entry.name := by simpa using List.find?_some hfound
  have hfrom : found ∈ jar.entries := List.mem_reverse.1 (List.mem_of_find?_eq_some hfound)
  obtain rfl := List.inj_on_of_nodup_map hnames hfrom hentry hname
  rw [find?, hfound]
  rfl

/-- How far the classes of a jar can be read: the longest initial run of entries that hold classes,
with what they hold, and the rest, which starts with an entry that does not hold one. -/
structure Progress (verbose : Bool) (classes : List JarEntry) where
  read : List (JarEntry × ClassFile)
  rest : List JarEntry
  classes_eq : classes = read.map Prod.fst ++ rest
  holds : ∀ item ∈ read, (ClassFile.parse item.1.data verbose).outcome.1 = .ok item.2
  stops : ∀ entry ∈ rest.head?,
    ∃ fault, (ClassFile.parse entry.data verbose).outcome.1 = .error fault

/-- Reads classes until one cannot be read. -/
def progress (verbose : Bool) : (classes : List JarEntry) → Progress verbose classes
  | [] => ⟨[], [], rfl, by simp, by simp⟩
  | entry :: entries =>
    match h : (ClassFile.parse entry.data verbose).outcome.1 with
    | .ok file =>
      let later := progress verbose entries
      ⟨(entry, file) :: later.read, later.rest, congrArg (entry :: ·) later.classes_eq,
        List.forall_mem_cons.2 ⟨h, later.holds⟩, later.stops⟩
    | .error fault =>
      ⟨[], entry :: entries, rfl, by simp, by rintro _ ⟨rfl⟩; exact ⟨fault, h⟩⟩

namespace Progress

variable {verbose : Bool} {classes : List JarEntry}

/-- The lines of the classes that were read: the name of each entry, and of the class it holds. -/
def lines (progress : Progress verbose classes) : List String :=
  progress.read.map fun item ↦ item.1.name ++ ": " ++ item.2.thisClass.escaped

/-- Nothing is left if every entry holds a class. -/
theorem rest_eq_nil_iff (progress : Progress verbose classes) :
    progress.rest = [] ↔
      ∀ entry ∈ classes, ∃ file, (ClassFile.parse entry.data verbose).outcome.1 = .ok file := by
  obtain ⟨read, rest, rfl, holds, stops⟩ := progress
  constructor
  · rintro rfl entry hentry
    rw [List.append_nil] at hentry
    obtain ⟨item, hitem, rfl⟩ := List.mem_map.1 hentry
    exact ⟨item.2, holds item hitem⟩
  · intro hall
    cases rest with
    | nil => rfl
    | cons entry rest =>
      obtain ⟨fault, hfault⟩ := stops entry rfl
      obtain ⟨file, hfile⟩ := hall entry (List.mem_append_right _ (.head _))
      rw [hfault] at hfile
      cases hfile

end Progress

end Jar

namespace Command

open Run (Adds)

/-! ### Visits -/

section Visit

variable {jar : Jar} {verbose : Bool} {entry : JarEntry} {names : List String}

/-- A class that can be read is listed before the others are visited. -/
theorem exists_adds_visitClasses_of_ok {file : ClassFile}
    (hdata : jar.find? entry.name = some entry.data)
    (hfile : (ClassFile.parse entry.data verbose).outcome.1 = .ok file)
    {ending : Except Stop Unit} {added : Array Output}
    (hnames : Adds (visitClasses jar verbose names) ending added) :
    ∃ more, Adds (visitClasses jar verbose (entry.name :: names)) ending more ∧
      written more = ended (entry.name ++ ": " ++ file.thisClass.escaped) :: written added := by
  have hload : (jar.load verbose entry.name).outcome.1 = .ok file := by
    rw [Jar.outcome_load, hdata]
    exact hfile
  have hemit : Adds (emit false (.lit s!"{entry.name}: " ++ file.thisClass)) (.ok ())
      #[.out (ended (entry.name ++ ": " ++ file.thisClass.escaped))] := by
    rw [emit, reportText_plain, Text.escaped_lit_append]
    exact Run.adds_put _
  refine ⟨_, (Run.adds_ofLogged_of_ok hload).bind (hemit.bind hnames), ?_⟩
  rw [written_append, written_append, (quiet_records _).written_eq_nil, written_out]
  rfl

/-- A class that cannot be read ends the visit, and nothing is written. -/
theorem exists_adds_visitClasses_of_error {fault : Fault}
    (hdata : jar.find? entry.name = some entry.data)
    (hfault : (ClassFile.parse entry.data verbose).outcome.1 = .error fault) :
    ∃ added, Adds (visitClasses jar verbose (entry.name :: names)) (.error (.fault fault)) added ∧
      written added = [] := by
  have hload : (jar.load verbose entry.name).outcome.1 = .error fault := by
    rw [Jar.outcome_load, hdata]
    exact hfault
  exact ⟨_, (Run.adds_ofLogged_of_error hload).bind_error, (quiet_records _).written_eq_nil⟩

end Visit

/-- Visiting classes writes the lines of those that can be read, and ends with the fault of the
first that cannot. -/
theorem exists_adds_visitClasses_of_progress {jar : Jar} {verbose : Bool}
    {classes : List JarEntry} (progress : Jar.Progress verbose classes)
    (hdata : ∀ entry ∈ classes, jar.find? entry.name = some entry.data) :
    ∃ ending added, Adds (visitClasses jar verbose (classes.map JarEntry.name)) ending added ∧
      written added = progress.lines.map ended ∧ (progress.rest = [] → ending = .ok ()) ∧
      ∀ entry ∈ progress.rest.head?, ∃ fault,
        (ClassFile.parse entry.data verbose).outcome.1 = .error fault ∧
          ending = .error (.fault fault) := by
  obtain ⟨read, rest, rfl, holds, stops⟩ := progress
  induction read with
  | nil =>
    cases rest with
    | nil => exact ⟨_, _, Run.adds_pure (), rfl, fun _ ↦ rfl, fun _ h ↦ by cases h⟩
    | cons entry rest =>
      obtain ⟨fault, hfault⟩ := stops entry rfl
      obtain ⟨added, hadds, hwritten⟩ :=
        exists_adds_visitClasses_of_error (hdata entry (.head _)) hfault
      refine ⟨_, added, hadds, hwritten, fun h ↦ absurd h (List.cons_ne_nil _ _), ?_⟩
      rintro _ ⟨rfl⟩
      exact ⟨fault, hfault, rfl⟩
  | cons item read ih =>
    obtain ⟨hitem, hread⟩ := List.forall_mem_cons.1 holds
    obtain ⟨hown, hothers⟩ := List.forall_mem_cons.1 hdata
    obtain ⟨ending, added, hadds, hwritten, hends⟩ := ih hread hothers
    obtain ⟨more, hmore, hlines⟩ := exists_adds_visitClasses_of_ok hown hitem hadds
    exact ⟨ending, more, hmore, hlines.trans (congrArg (_ :: ·) hwritten), hends⟩

/-! ### Runs -/

section Run

variable {env : Environment} {arguments : List String} {settings : Settings} {disk : Disk}
  {jar : Jar}

/-- Only the classes of a jar decide what is listed, and how the run ends. -/
theorem OpensJar.listing (h : OpensJar env arguments settings disk jar)
    (hcomplete : settings.isComplete = true) (hnames : (jar.entries.map JarEntry.name).Nodup)
    (hmanifest : jar.HasReadableManifest) {classes : List JarEntry}
    (hclasses : jar.entries.filter Jar.isClass = classes)
    (progress : Jar.Progress (1 < settings.verbosity) classes) :
    let outcome := run env ("java" :: arguments)
    let outputs := allOutputs env disk ⟨settings, .inspect (.jar jar.name)⟩
    written outputs = progress.lines.map ended ∧
    outcome.status = .ok (if progress.rest.isEmpty then 0 else 1) ∧
    ∀ entry ∈ progress.rest.head?, ∃ fault e,
      (ClassFile.parse entry.data (1 < settings.verbosity)).outcome.1 = .error fault ∧
        fault.formatError? = some e ∧ Reports outputs e := by
  have hdata : ∀ entry ∈ classes, jar.find? entry.name = some entry.data := by
    intro entry hentry
    rw [← hclasses] at hentry
    exact Jar.find?_of_nodup hnames (List.mem_of_mem_filter hentry)
  obtain ⟨ending, added, hvisit, hwritten, hzero, hone⟩ :=
    exists_adds_visitClasses_of_progress progress hdata
  have henter := Run.adds_ofLogged_of_ok (Jar.outcome_enter_of_readable hmanifest)
  have hwalk : Adds (do
      Run.ofLogged jar.enter
      visitClasses jar (1 < settings.verbosity) jar.classNames) ending
      (jar.enter.outcome.2.map .record ++ added) := by
    rw [Jar.classNames, hclasses]
    exact henter.bind hvisit
  obtain ⟨hstatus, hadded, hreports⟩ := h.run_of_adds hcomplete hwalk
  have hreport (entry : JarEntry) (hentry : entry ∈ progress.rest.head?) : ∃ fault e,
      ending = .error (.fault fault) ∧ fault.formatError? = some e ∧
        (ClassFile.parse entry.data (1 < settings.verbosity)).outcome.1 = .error fault := by
    obtain ⟨fault, hfault, hending⟩ := hone entry hentry
    obtain ⟨e, he⟩ := Option.isSome_iff_exists.1 (ClassFile.isSome_formatError?_of_parse hfault)
    exact ⟨fault, e, hending, he, hfault⟩
  refine ⟨?_, ?_, fun entry hentry ↦ ?_⟩
  · rw [hadded, written_append, (quiet_records _).written_eq_nil, List.nil_append, hwritten]
  · rw [hstatus]
    rcases hrest : progress.rest with _ | ⟨entry, rest⟩
    · rw [hzero hrest]
      rfl
    · obtain ⟨fault, e, rfl, he, -⟩ := hreport entry (by rw [hrest]; rfl)
      exact if_pos (Option.isSome_iff_exists.2 ⟨e, he⟩)
  · obtain ⟨fault, e, hending, he, hfault⟩ := hreport entry hentry
    exact ⟨fault, e, hfault, he, hreports fault e hending he⟩

/-- Without a report there, the standard output shows the lines and nothing else. -/
theorem OpensJar.stdout_listing (h : OpensJar env arguments settings disk jar)
    (hcomplete : settings.isComplete = true) (hnames : (jar.entries.map JarEntry.name).Nodup)
    (hmanifest : jar.HasReadableManifest) (hreport : settings.report ≠ some .output) :
    (run env ("java" :: arguments)).stdout = String.join ((Jar.progress (1 < settings.verbosity)
      (jar.entries.filter Jar.isClass)).lines.map ended) := by
  obtain ⟨hwritten, -⟩ := h.listing hcomplete hnames hmanifest rfl (Jar.progress _ _)
  rw [(streams_run h.setup hcomplete).1, Transcript.stdout_of_report_ne _ _ hreport, hwritten]

/-- A run through a jar with distinct names writes the lines of the longest initial run of classes
that can be read, each with one line feed unless names hold others, and nothing else apart from a
report that is sent to the standard output. It ends normally if all classes can be read, and
otherwise with status 1 and a report about the first that cannot. Another jar with the same classes
gives the same lines and the same status. -/
theorem run_jar_lists_classes (h : OpensJar env arguments settings disk jar)
    (hcomplete : settings.isComplete = true) (hnames : (jar.entries.map JarEntry.name).Nodup)
    (hmanifest : jar.HasReadableManifest) :
    let outcome := run env ("java" :: arguments)
    let outputs := allOutputs env disk ⟨settings, .inspect (.jar jar.name)⟩
    let parse (entry : JarEntry) := (ClassFile.parse entry.data (1 < settings.verbosity)).outcome.1
    let progress := Jar.progress (1 < settings.verbosity) (jar.entries.filter Jar.isClass)
    written outputs = progress.lines.map ended ∧
    ((∀ line ∈ progress.lines, '\n' ∉ line.toList) →
      written outputs = progress.lines.map (· ++ "\n")) ∧
    outcome.stdout = String.join (outputs.toList.map (Transcript.shown env.clock settings)) ∧
    (settings.report ≠ some .output → outcome.stdout = String.join (progress.lines.map ended)) ∧
    (outcome.status = .ok 0 ↔
      ∀ entry ∈ jar.entries, Jar.isClass entry → ∃ file, parse entry = .ok file) ∧
    (∀ entry ∈ progress.rest.head?, ∃ fault e, parse entry = .error fault ∧
      fault.formatError? = some e ∧ outcome.status = .ok 1 ∧ Reports outputs e ∧
        ∃ before after, outcome.stderr = before ++ e.printed.escaped ++ after) ∧
    ∀ env' arguments' disk' jar', OpensJar env' arguments' settings disk' jar' →
      (jar'.entries.map JarEntry.name).Nodup → jar'.HasReadableManifest →
      jar'.entries.filter Jar.isClass = jar.entries.filter Jar.isClass →
        written (allOutputs env' disk' ⟨settings, .inspect (.jar jar'.name)⟩) = written outputs ∧
          (run env' ("java" :: arguments')).status = outcome.status := by
  intro outcome outputs parse progress
  obtain ⟨hwritten, hstatus, hreport⟩ := h.listing hcomplete hnames hmanifest rfl progress
  obtain ⟨hstdout, hstderr⟩ := streams_run h.setup hcomplete
  have hempty : progress.rest.isEmpty = true ↔
      ∀ entry ∈ jar.entries, Jar.isClass entry → ∃ file, parse entry = .ok file := by
    rw [List.isEmpty_iff, progress.rest_eq_nil_iff]
    simp only [List.mem_filter, and_imp]
    rfl
  refine ⟨hwritten, fun hlines ↦ hwritten.trans ?_,
    hstdout.trans (Transcript.stdout_ofOutputs _ _ _),
    h.stdout_listing hcomplete hnames hmanifest, ?_, fun entry hentry ↦ ?_, ?_⟩
  · exact List.map_congr_left fun line hline ↦ ended_of_not_mem (hlines line hline)
  · rw [← hempty, hstatus]
    cases progress.rest.isEmpty with
    | false => simp
    | true => simp
  · obtain ⟨fault, e, hfault, he, hreports⟩ := hreport entry hentry
    obtain ⟨before, after, hshown⟩ :=
      Transcript.exists_stderr_of_mem env.clock settings hreports.printed
    refine ⟨fault, e, hfault, he, ?_, hreports, before, after, hstderr.trans hshown⟩
    rw [hstatus, if_neg]
    intro hrest
    rw [List.isEmpty_iff.1 hrest] at hentry
    cases hentry
  · intro env' arguments' disk' jar' h' hnames' hmanifest' hsame
    obtain ⟨hwritten', hstatus', -⟩ := h'.listing hcomplete hnames' hmanifest' hsame progress
    exact ⟨hwritten'.trans hwritten.symm, hstatus'.trans hstatus.symm⟩

end Run

/-- A class of the given name without anything else. -/
def classNamed (name : Bytes) : Bytes :=
  [0xCA, 0xFE, 0xBA, 0xBE, 0, 0, 0, 52, 0, 3, 1] ++ Bytes.ofNat 2 name.length ++ name ++
    [7, 0, 1, 0, 0x21, 0, 2, 0, 0, 0, 0, 0, 0, 0, 0, 0, 0]

/-- An empty entry between two classes, and something else among them. -/
def sampleMixed : List JarEntry :=
  [⟨"META-INF/MANIFEST.MF", [0x61, 0x3A]⟩, ⟨"B.class", classNamed [0x42]⟩, ⟨"x", [0xFF]⟩,
    ⟨"A.class", []⟩, ⟨"C.class", classNamed [0x43]⟩]

/-- The sample is listed up to the empty entry, which is reported. Its classes alone are a jar with
the same listing. -/
theorem run_jar_lists_classes_sampleMixed :
    (run (.ofJar sampleMixed) ["java", "jar", "a"]).stdout = "B.class: B\n" ∧
    (run (.ofJar sampleMixed) ["java", "jar", "a"]).status = .ok 1 ∧
    Reports (allOutputs (.ofJar sampleMixed) ⟨(Environment.ofJar sampleMixed).files, []⟩
        ⟨.initial, .inspect (.jar "a")⟩)
      ⟨.truncatedData, .lit "Need 4 bytes, only 0 left", some 0⟩ ∧
    (run (.ofJar (sampleMixed.filter Jar.isClass)) ["java", "jar", "a"]).status = .ok 1 := by
  have hmanifest : Jar.HasReadableManifest ⟨"a", sampleMixed⟩ := by
    intro data hdata
    cases hdata
    exact exists_eq_ok (by decide +kernel)
  have hnone : Jar.HasReadableManifest ⟨"a", sampleMixed.filter Jar.isClass⟩ := by
    intro data hdata
    have hfind : Jar.find? ⟨"a", sampleMixed.filter Jar.isClass⟩ Jar.manifestName = none := by
      decide +kernel
    rw [hfind] at hdata
    cases hdata
  obtain ⟨-, -, -, hstdout, -, hreport, hsame⟩ :=
    run_jar_lists_classes (opensJar_ofJar sampleMixed) rfl (by decide) hmanifest
  have hrest : (Jar.progress false (sampleMixed.filter Jar.isClass)).rest.head? =
      some ⟨"A.class", []⟩ := by decide +kernel
  obtain ⟨fault, e, hfault, he, hstatus, hreports, -⟩ := hreport _ hrest
  cases hfault
  cases he
  refine ⟨(hstdout (by decide)).trans (by decide +kernel), hstatus, hreports, ?_⟩
  obtain ⟨-, hstatus'⟩ := hsame _ _ _ _ (opensJar_ofJar (sampleMixed.filter Jar.isClass))
    (by decide +kernel) hnone (by decide +kernel)
  exact hstatus'.trans hstatus

/-- The name of a class may end with a line feed, and then none is added to its line. It may hold
one elsewhere, so that there are two lines. And half of a surrogate pair is written as an escape. -/
theorem run_jar_not_line_by_line :
    (run (.ofJar [⟨"A.class", classNamed [0x41, 0x0A]⟩]) ["java", "jar", "a"]).stdout =
      "A.class: A\n" ∧
    (run (.ofJar [⟨"A.class", classNamed [0x41, 0x0A, 0x42]⟩]) ["java", "jar", "a"]).stdout =
      "A.class: A\nB\n" ∧
    (run (.ofJar [⟨"A.class", classNamed [0xED, 0xA0, 0x80]⟩]) ["java", "jar", "a"]).stdout =
      "A.class: \\ud800\n" := by
  have hstdout (name : Bytes) : (run (.ofJar [⟨"A.class", classNamed name⟩])
      ["java", "jar", "a"]).stdout = String.join ((Jar.progress false
        ([⟨"A.class", classNamed name⟩].filter Jar.isClass)).lines.map ended) := by
    refine (opensJar_ofJar _).stdout_listing rfl (by simp) ?_ (by decide)
    intro data hdata
    cases hdata
  refine ⟨(hstdout _).trans ?_, (hstdout _).trans ?_, (hstdout _).trans ?_⟩
  all_goals decide +kernel

end Command

end ClassInspect
