import ClassInspect.Proofs.ClassFile.Exact
import ClassInspect.Proofs.Flags
import ClassInspect.Proofs.Pool.Lookup
import ClassInspect.Report.Dump

/-!
# What the dump of a class prints

The dump is a list of lines, each of which may fail, and printing stops at the first that does. Of a
class that was read only the lines of flags can fail: its pool is sound, so every constant has a
description, and everything else is text already.

The lines are stated again without failures (`ClassFile.lines`), where a line of flags lists the
bits that have names. Each kind of outcome is shown to be such a line, or for flags a failure; what
is printed then follows from where the first failing line stands (`printLines_map_ok_append`).
-/

namespace ClassInspect

/-! ### Lines -/

/-- The description of the constant at an index. -/
def Pool.description (pool : Pool) (index : Int) : Text :=
  match pool.describe index with
  | .ok text => text
  | .error _ => []

/-- The line of a constant, with its description unless the payload says the same. -/
def Pool.line (pool : Pool) (entry : Nat × Constant) : Text :=
  .lit (Layout.right 6 s!"#{entry.1}" ++ " = " ++ Layout.left 18 entry.2.tag.name ++ " ") ++
    entry.2.shown ++
    if pool.description entry.1 = entry.2.shown then []
    else .lit "  // " ++ pool.description entry.1

/-- The line of flags: the names of all bits that have one. -/
def Flags.line (indent : String) (flags : Flags) (owner : FlagOwner) : Text :=
  .lit (indent ++ "flags: " ++ ", ".intercalate (flags.bits.filterMap owner.name?))

/-- The line of an attribute. -/
def Attribute.line (indent : String) (attr : Attribute) : Text :=
  .lit indent ++ attr.name ++ .lit s!": {attr.data.length} bytes"

/-- The lines of a member before its flags. -/
def memberOpening (declaration descriptor : Text) : List Text :=
  [.lit "  " ++ declaration ++ .lit ";", .lit "    descriptor: " ++ descriptor]

/-- The lines of a member. -/
def memberLines (declaration descriptor : Text) (flags : Flags) (owner : FlagOwner)
    (attributes : List Attribute) : List Text :=
  memberOpening declaration descriptor ++
    flags.line "    " owner :: attributes.map (Attribute.line "    ")

/-- The lines of a field before its flags. -/
def Field.opening (field : Field) : List Text :=
  memberOpening field.declaration field.descriptor

/-- The lines of a field. -/
def Field.lines (field : Field) : List Text :=
  memberLines field.declaration field.descriptor field.flags .field field.attributes

/-- The lines of a method. -/
def Method.lines (method : Method) : List Text :=
  memberLines method.signature method.descriptor method.flags .method method.attributes

namespace ClassFile

/-- The lines before the flags of a class. -/
def heading (file : ClassFile) : List Text :=
  [.lit "class " ++ file.thisClass, .lit s!"  minor version: {file.minorVersion}",
    .lit s!"  major version: {file.majorVersion}"]

/-- The lines before the fields of a class. -/
def untilFields (file : ClassFile) : List Text :=
  file.heading ++ [file.flags.line "  " .type, .lit "Constant pool:"] ++
    file.pool.entries.map file.pool.line ++ [.lit "\x7b"]

/-- The lines behind the fields of a class. -/
def behindFields (file : ClassFile) : List Text :=
  file.methods.flatMap Method.lines ++ [.lit "\x7d"] ++ file.attributes.map (Attribute.line "")

/-- All lines of a class. -/
def lines (file : ClassFile) : List Text :=
  file.untilFields ++ file.fields.flatMap Field.lines ++ file.behindFields

end ClassFile

/-- Lines as they are printed, each with a line feed. -/
def printed (lines : List Text) : Text :=
  lines.flatMap (· ++ Text.lit "\n")

/-! ### Printing -/

/-- Lines that do not fail are printed before anything else happens. -/
theorem printLines_map_ok_append (lines : List Text) (rest : List (Except Fault Text)) :
    printLines (lines.map .ok ++ rest) =
      (printed lines ++ (printLines rest).1, (printLines rest).2) := by
  induction lines with
  | nil => rfl
  | cons line lines ih =>
    rw [List.map_cons, List.cons_append, printLines, ih]
    simp [printed]

theorem printLines_map_ok (lines : List Text) :
    printLines (lines.map .ok) = (printed lines, none) := by
  simpa [printLines] using printLines_map_ok_append lines []

theorem printLines_of_error (lines : List Text) (fault : Fault)
    (rest : List (Except Fault Text)) :
    printLines (lines.map .ok ++ .error fault :: rest) = (printed lines, some fault) := by
  simpa [printLines] using printLines_map_ok_append lines (.error fault :: rest)

/-! ### Outcomes of lines -/

theorem Flags.dumpLine_of_named {flags : Flags} {owner : FlagOwner} (indent : String)
    (h : flags.Named owner) : flags.dumpLine indent owner = .ok (flags.line indent owner) := by
  unfold dumpLine text
  rw [names_of_named h]
  rfl

theorem Flags.dumpLine_of_error {flags : Flags} {owner : FlagOwner} {fault : Fault}
    (indent : String) (h : flags.names owner = .error fault) :
    flags.dumpLine indent owner = .error fault := by
  unfold dumpLine text
  rw [h]
  rfl

/-- Every constant of a sound pool has its line. -/
theorem Pool.Sound.dumpLine_eq {pool : Pool} (hsound : pool.Sound) {index : Nat}
    {constant : Constant} (h : (index, constant) ∈ pool.entries) :
    pool.dumpLine (index, constant) = .ok (pool.line (index, constant)) := by
  obtain ⟨text, htext⟩ := hsound.exists_describe (live_of_mem_entries h)
  have hdescription : pool.description index = text := by
    rw [description, htext]
  refine bind_eq_ok_iff.2 ⟨text, htext, congrArg Except.ok ?_⟩
  rw [line, hdescription]
  split
  · exact (List.append_nil _).symm
  · exact List.append_assoc _ _ _

/-- A member whose flags have names has all its lines. -/
theorem memberDump_of_named {flags : Flags} {owner : FlagOwner} (h : flags.Named owner)
    (declaration descriptor : Text) (attributes : List Attribute) :
    memberDump (.ok declaration) descriptor flags owner attributes =
      (memberLines declaration descriptor flags owner attributes).map .ok := by
  unfold memberDump
  rw [Flags.dumpLine_of_named _ h, memberLines, List.map_append, List.map_cons, List.map_map]
  rfl

/-- A member whose flags cannot be shown has the lines before them. -/
theorem memberDump_of_error {flags : Flags} {owner : FlagOwner} {fault : Fault}
    (h : flags.names owner = .error fault) (declaration descriptor : Text)
    (attributes : List Attribute) :
    memberDump (.ok declaration) descriptor flags owner attributes =
      (memberOpening declaration descriptor).map .ok ++
        .error fault :: attributes.map (Attribute.dumpLine "    ") := by
  unfold memberDump
  rw [Flags.dumpLine_of_error _ h]
  rfl

theorem Field.dumpLines_eq (field : Field) : field.dumpLines =
    memberDump (.ok field.declaration) field.descriptor field.flags .field field.attributes := by
  rw [dumpLines, render_eq]

theorem Method.dumpLines_eq (method : Method) : method.dumpLines =
    memberDump (.ok method.signature) method.descriptor method.flags .method
      method.attributes := by
  rw [dumpLines, renderSignature_eq]

/-- Items that have all their lines have them one after the other. -/
theorem flatMap_eq_map_ok {α : Type} {items : List α} {outcomes : α → List (Except Fault Text)}
    {lines : α → List Text} (h : ∀ item ∈ items, outcomes item = (lines item).map .ok) :
    items.flatMap outcomes = (items.flatMap lines).map .ok := by
  rw [List.map_flatMap]
  exact List.flatMap_congr h

theorem flatMap_fields {fields : List Field} (h : ∀ field ∈ fields, ¬ field.flags.Has 0x20) :
    fields.flatMap Field.dumpLines = (fields.flatMap Field.lines).map .ok := by
  refine flatMap_eq_map_ok fun field hfield ↦ ?_
  rw [field.dumpLines_eq]
  exact memberDump_of_named (Flags.named_field_iff.2 (h field hfield)) _ _ _

theorem flatMap_methods (methods : List Method) :
    methods.flatMap Method.dumpLines = (methods.flatMap Method.lines).map .ok := by
  refine flatMap_eq_map_ok fun method _ ↦ ?_
  rw [method.dumpLines_eq]
  exact memberDump_of_named method.flags.named_method _ _ _

namespace ClassFile

variable {file : ClassFile}

/-- The first line that can fail is that of the flags of the class. -/
theorem dumpLines_of_error {fault : Fault} (h : file.flags.names .type = .error fault) :
    ∃ rest, file.dumpLines = file.heading.map .ok ++ .error fault :: rest := by
  unfold dumpLines
  rw [Flags.dumpLine_of_error _ h]
  exact ⟨_, rfl⟩

/-- If the flags of the class have names, only fields can fail. -/
theorem dumpLines_of_named (hsound : file.pool.Sound) (h : file.flags.Named .type) :
    file.dumpLines = file.untilFields.map .ok ++
      (file.fields.flatMap Field.dumpLines ++ file.behindFields.map .ok) := by
  have hconstants : file.pool.entries.map file.pool.dumpLine =
      (file.pool.entries.map file.pool.line).map .ok := by
    rw [List.map_map]
    exact List.map_congr_left fun entry hentry ↦ hsound.dumpLine_eq hentry
  have hattributes : file.attributes.map (Attribute.dumpLine "") =
      (file.attributes.map (Attribute.line "")).map .ok := by
    rw [List.map_map]
    rfl
  unfold dumpLines
  rw [Flags.dumpLine_of_named _ h, hconstants, flatMap_methods, hattributes]
  simp only [untilFields, behindFields, heading, List.map_append, List.map_cons, List.map_nil,
    List.append_assoc, List.cons_append, List.nil_append]

/-! ### The dump -/

/-- The pool of a class that was read is sound. -/
theorem sound_of_parse {data : Bytes} {verbose : Bool}
    (h : (parse data verbose).outcome.1 = .ok file) : file.pool.Sound := by
  obtain ⟨d, hd, -, hdenotes⟩ := (outcome_eq_ok_iff data verbose file).1 h
  rw [hdenotes.pool]
  exact d.constants.sound_denote hd.constants

theorem dump_of_error {fault : Fault} (h : file.flags.names .type = .error fault) :
    file.dump = (printed file.heading, some fault) := by
  obtain ⟨rest, hlines⟩ := dumpLines_of_error h
  rw [dump, hlines, printLines_of_error]

theorem dump_of_named (hsound : file.pool.Sound) (h : file.flags.Named .type)
    (hfields : ∀ field ∈ file.fields, ¬ field.flags.Has 0x20) :
    file.dump = (printed file.lines, none) := by
  have hlines : file.dumpLines = file.lines.map .ok := by
    rw [dumpLines_of_named hsound h, flatMap_fields hfields, lines, List.map_append,
      List.map_append, List.append_assoc]
  rw [dump, hlines, printLines_map_ok]

theorem dump_of_field (hsound : file.pool.Sound) (h : file.flags.Named .type)
    {before after : List Field} {field : Field} (hfields : file.fields = before ++ field :: after)
    (hbefore : ∀ earlier ∈ before, ¬ earlier.flags.Has 0x20) (hfield : field.flags.Has 0x20) :
    file.dump = (printed (file.untilFields ++ before.flatMap Field.lines ++ field.opening),
      some (.unnamedFlag 0x20)) := by
  have hopening : field.dumpLines = field.opening.map .ok ++ .error (.unnamedFlag 0x20) ::
      field.attributes.map (Attribute.dumpLine "    ") := by
    rw [field.dumpLines_eq]
    exact memberDump_of_error (Flags.names_field_of_has_32 hfield) _ _ _
  have hlines : ∃ rest, file.dumpLines =
      (file.untilFields ++ before.flatMap Field.lines ++ field.opening).map .ok ++
        .error (.unnamedFlag 0x20) :: rest := by
    rw [dumpLines_of_named hsound h, hfields, List.flatMap_append, List.flatMap_cons,
      flatMap_fields hbefore, hopening]
    simp only [List.map_append, List.append_assoc, List.cons_append]
    exact ⟨_, rfl⟩
  obtain ⟨rest, hlines⟩ := hlines
  rw [dump, hlines, printLines_of_error]

/-- The dump fails if a bit without a name is set, on the class or on a field. -/
theorem isSome_dump_iff (hsound : file.pool.Sound) :
    file.dump.2.isSome = true ↔ file.flags.Has 0x40 ∨ file.flags.Has 0x80 ∨
      ∃ field ∈ file.fields, field.flags.Has 0x20 := by
  by_cases h64 : file.flags.Has 0x40
  · rw [dump_of_error (Flags.names_type_of_has_64 h64)]
    exact iff_of_true rfl (.inl h64)
  by_cases h128 : file.flags.Has 0x80
  · rw [dump_of_error (Flags.names_type_of_has_128 h64 h128)]
    exact iff_of_true rfl (.inr (.inl h128))
  have hnamed := Flags.named_type_iff.2 ⟨h64, h128⟩
  -- the flags of the class have names, so the first field without them decides
  rcases hfind : file.fields.find? (fun field ↦ field.flags.Has 0x20) with _ | field
  · have hfields : ∀ field ∈ file.fields, ¬ field.flags.Has 0x20 := by
      simpa using List.find?_eq_none.1 hfind
    rw [dump_of_named hsound hnamed hfields]
    refine iff_of_false Bool.false_ne_true ?_
    rintro (h | h | ⟨field, hmem, h⟩)
    · exact h64 h
    · exact h128 h
    · exact hfields field hmem h
  · obtain ⟨hfield, before, after, hfields, hbefore⟩ := List.find?_eq_some_iff_append.1 hfind
    have hhas : field.flags.Has 0x20 := of_decide_eq_true hfield
    have hnone : ∀ earlier ∈ before, ¬ earlier.flags.Has 0x20 := by simpa using hbefore
    rw [dump_of_field hsound hnamed hfields hnone hhas]
    exact iff_of_true rfl (.inr (.inr ⟨field, List.mem_of_find?_eq_some hfind, hhas⟩))

/-- The dump of a class that was read fails if a bit without a name is set among the flags of the
class or of a field, and for no other reason. The fault names the lowest such bit of the class, and
else the one of fields; what was printed are the lines before the flags of the class, or of the
first such field. -/
theorem dump_of_parse {data : Bytes} {verbose : Bool}
    (h : (parse data verbose).outcome.1 = .ok file) :
    (file.dump.2.isSome = true ↔ file.flags.Has 0x40 ∨ file.flags.Has 0x80 ∨
      ∃ field ∈ file.fields, field.flags.Has 0x20) ∧
    (file.flags.Has 0x40 →
      file.dump = (printed file.heading, some (.unnamedFlag 0x40))) ∧
    (¬ file.flags.Has 0x40 → file.flags.Has 0x80 →
      file.dump = (printed file.heading, some (.unnamedFlag 0x80))) ∧
    (¬ file.flags.Has 0x40 → ¬ file.flags.Has 0x80 →
      (∀ before field after, file.fields = before ++ field :: after →
        (∀ earlier ∈ before, ¬ earlier.flags.Has 0x20) → field.flags.Has 0x20 →
        file.dump = (printed (file.untilFields ++ before.flatMap Field.lines ++ field.opening),
          some (.unnamedFlag 0x20))) ∧
      ((∀ field ∈ file.fields, ¬ field.flags.Has 0x20) →
        file.dump = (printed file.lines, none))) := by
  have hsound := sound_of_parse h
  refine ⟨isSome_dump_iff hsound, fun h64 ↦ dump_of_error (Flags.names_type_of_has_64 h64),
    fun h64 h128 ↦ dump_of_error (Flags.names_type_of_has_128 h64 h128), fun h64 h128 ↦ ?_⟩
  have hnamed := Flags.named_type_iff.2 ⟨h64, h128⟩
  exact ⟨fun _ _ _ hfields hbefore hfield ↦ dump_of_field hsound hnamed hfields hbefore hfield,
    dump_of_named hsound hnamed⟩

/-- A class with two fields, the second of which has a bit without a name between two others. -/
def sampleFields : ClassFile where
  minorVersion := 0
  majorVersion := 52
  pool := ⟨#[some (.utf8 (.lit "A")), some (.classRef 1), some (.utf8 (.lit "I"))]⟩
  flags := ⟨0x21⟩
  thisClass := .lit "A"
  superClass := none
  interfaces := []
  fields :=
    [⟨⟨0x1⟩, .lit "A", .lit "I", ⟨0, .base .int⟩, []⟩,
      ⟨⟨0x61⟩, .lit "A", .lit "I", ⟨0, .base .int⟩, []⟩]
  methods := []
  attributes := []

/-- The bytes of the class with two fields. -/
def sampleFieldsBytes : Bytes :=
  [0xCA, 0xFE, 0xBA, 0xBE, 0, 0, 0, 52, 0, 4, 1, 0, 1, 0x41, 7, 0, 1, 1, 0, 1, 0x49,
    0, 0x21, 0, 2, 0, 0, 0, 0, 0, 2, 0, 1, 0, 1, 0, 3, 0, 0, 0, 0x61, 0, 1, 0, 3, 0, 0,
    0, 0, 0, 0]

/-- The dump of this class stops at the flags of the second field. -/
theorem dump_of_parse_sampleFields :
    (parse sampleFieldsBytes false).outcome.1 = .ok sampleFields ∧
    sampleFields.dump = (printed
      [.lit "class A", .lit "  minor version: 0", .lit "  major version: 52",
        .lit "  flags: ACC_PUBLIC, ACC_SUPER", .lit "Constant pool:",
        .lit "    #1 = Utf8               A", .lit "    #2 = Class              1  // class A",
        .lit "    #3 = Utf8               I", .lit "\x7b", .lit "  int A;",
        .lit "    descriptor: I", .lit "    flags: ACC_PUBLIC", .lit "  int A;",
        .lit "    descriptor: I"], some (.unnamedFlag 0x20)) := by
  have hparse : (parse sampleFieldsBytes false).outcome.1 = .ok sampleFields := by
    decide +kernel
  have hdump := ((dump_of_parse hparse).2.2.2 (by decide) (by decide)).1 [_] _ [] rfl
    (by decide) (by decide)
  refine ⟨hparse, hdump.trans ?_⟩
  decide +kernel

end ClassFile

end ClassInspect
