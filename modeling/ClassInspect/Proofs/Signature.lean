import Mathlib.Tactic.MkIffOfInductiveProp
import ClassInspect.Proofs.Bytes
import ClassInspect.Proofs.Descriptor
import ClassInspect.Proofs.MethodTable
import ClassInspect.Proofs.Text.Boundary

/-!
# Signatures tell methods apart

A signature is the result, the name and the parameter types of a method as source text. Source text
forgets the difference between `/` and `.` and between a primitive type and a class of its name, and
a name may hold the marks that stand between the parts. For methods without such names
(`Method.Ordinary`) the text can be taken apart from the left: the result ends at the first blank,
the name at the first parenthesis, each parameter at a comma, and an element type at the first
bracket. Two such methods with one signature therefore have one name and one descriptor, and the
table of a class keeps all of its methods.
-/

namespace ClassInspect

/-! ### Ordinary names -/

/-- The words that source text has for types that are no class. -/
def typeWords : List Text :=
  .lit "void" :: BaseType.all.map fun base ↦ .lit base.name

/-- The marks that source text has between and behind the words for types, and the dot, which it has
for a slash. -/
def typeMarks : Text := .lit ".[, "

/-- A class name that holds no mark of source text and is no word for another type. -/
@[mk_iff isOrdinary_iff]
structure IsOrdinary (name : Text) : Prop where
  marks : ∀ mark ∈ typeMarks, mark ∉ name
  words : name ∉ typeWords

/-- A type that is no class with an unusual name. -/
def ElementType.Ordinary : ElementType → Prop
  | base _ => True
  | object name => IsOrdinary name

/-- No result, or one that is no class with an unusual name. -/
def ResultType.Ordinary : ResultType → Prop
  | void => True
  | value type => type.element.Ordinary

/-- A method whose descriptor was parsed, without unusual names. -/
@[mk_iff ordinary_iff]
structure Method.Ordinary (method : Method) : Prop where
  parsed : Descriptor.method method.descriptor = .ok method.type
  parameters : ∀ parameter ∈ method.type.parameters, parameter.element.Ordinary
  result : method.type.result.Ordinary
  name : .char '(' ∉ method.name

instance (name : Text) : Decidable (IsOrdinary name) :=
  decidable_of_iff _ (isOrdinary_iff name).symm

instance : DecidablePred ElementType.Ordinary
  | .base _ => isTrue trivial
  | .object name => inferInstanceAs (Decidable (IsOrdinary name))

instance : DecidablePred ResultType.Ordinary
  | .void => isTrue trivial
  | .value type => inferInstanceAs (Decidable type.element.Ordinary)

instance (method : Method) : Decidable method.Ordinary :=
  decidable_of_iff _ (Method.ordinary_iff method).symm

/-! ### Element types -/

/-- A dot is shown for a slash, and every other code point as it is. -/
theorem mem_of_mem_displayName {name : Text} {c : CodePoint} (hc : c ≠ .char '.')
    (h : c ∈ displayName name) : c ∈ name := by
  obtain ⟨shown, hshown, rfl⟩ := List.mem_map.1 h
  by_cases hslash : shown = .char '/'
  · exact absurd (if_pos hslash) hc
  · rwa [if_neg hslash]

/-- Names without dots are shown differently. -/
theorem displayName_inj {name other : Text} (hname : .char '.' ∉ name) (hother : .char '.' ∉ other)
    (h : displayName name = displayName other) : name = other := by
  induction name generalizing other with
  | nil => exact (List.map_eq_nil_iff.1 h.symm).symm
  | cons c name ih =>
    cases other with
    | nil => cases h
    | cons d other =>
      obtain ⟨hfirst, hrest⟩ := List.cons.inj h
      obtain ⟨hc, hname⟩ := not_or.1 (mt List.mem_cons.2 hname)
      obtain ⟨hd, hother⟩ := not_or.1 (mt List.mem_cons.2 hother)
      have heq : c = d := by
        dsimp only at hfirst
        -- A slash is shown as the dot that the other name does not have.
        by_cases hslash : c = .char '/' <;> by_cases hslash' : d = .char '/'
        · rw [hslash, hslash']
        · rw [if_pos hslash, if_neg hslash'] at hfirst
          exact absurd hfirst hd
        · rw [if_neg hslash, if_pos hslash'] at hfirst
          exact absurd hfirst.symm hc
        · rwa [if_neg hslash, if_neg hslash'] at hfirst
      rw [heq, ih hname hother hrest]

/-- The words hold no mark, and they are shown as they are. -/
theorem typeWords_plain {word : Text} (h : word ∈ typeWords) :
    word ≠ [] ∧ (∀ mark ∈ typeMarks, mark ∉ word) ∧ displayName word = word := by
  revert word
  decide

theorem BaseType.lit_name_mem (base : BaseType) : Text.lit base.name ∈ typeWords := by
  cases base <;> decide

/-- A class with an ordinary name is not shown as a word for another type. -/
theorem IsOrdinary.displayName_ne {name word : Text} (h : IsOrdinary name)
    (hword : word ∈ typeWords) : displayName name ≠ word := by
  intro heq
  obtain ⟨-, hmarks, hshown⟩ := typeWords_plain hword
  have hsame := displayName_inj (h.marks _ (by decide)) (hmarks _ (by decide))
    (heq.trans hshown.symm)
  exact h.words (hsame ▸ hword)

namespace ElementType

variable {type other : ElementType}

theorem Ordinary.not_mem (h : type.Ordinary) {mark : CodePoint} (hmark : mark ∈ typeMarks)
    (hdot : mark ≠ .char '.') : mark ∉ type.display := by
  cases type with
  | base base => exact (typeWords_plain base.lit_name_mem).2.1 mark hmark
  | object name =>
    exact fun hmem ↦ IsOrdinary.marks h mark hmark (mem_of_mem_displayName hdot hmem)

theorem WellFormed.display_ne_nil (h : type.WellFormed) : type.display ≠ [] := by
  cases type with
  | base base => exact (typeWords_plain base.lit_name_mem).1
  | object name => exact fun hnil ↦ h.1 (List.map_eq_nil_iff.1 hnil)

/-- Ordinary types are shown differently. -/
theorem Ordinary.display_inj (htype : type.Ordinary) (hother : other.Ordinary)
    (h : type.display = other.display) : type = other := by
  cases type with
  | base base =>
    cases other with
    | base other => rw [BaseType.name_inj (Text.lit_inj h)]
    | object other =>
      exact absurd h.symm (IsOrdinary.displayName_ne hother base.lit_name_mem)
  | object name =>
    cases other with
    | base other => exact absurd h (IsOrdinary.displayName_ne htype other.lit_name_mem)
    | object other =>
      rw [displayName_inj (IsOrdinary.marks htype _ (by decide))
        (IsOrdinary.marks hother _ (by decide)) h]

/-- The word for no result is not shown for a type. -/
theorem Ordinary.display_ne_void (h : type.Ordinary) : type.display ≠ .lit "void" := by
  cases type with
  | base base => cases base <;> decide
  | object name => exact IsOrdinary.displayName_ne h (.head _)

end ElementType

/-! ### Types of fields, results and parameters -/

namespace FieldType

variable {type other : FieldType}

/-- The brackets behind an element type. -/
theorem head?_brackets {dimensions : Nat} {c : CodePoint}
    (hc : c ∈ ((List.replicate dimensions (Text.lit "[]")).flatten).head?) : c = .char '[' := by
  cases dimensions with
  | zero => cases hc
  | succ dimensions => exact (Option.mem_some_iff.1 hc).symm

theorem length_brackets (dimensions : Nat) :
    ((List.replicate dimensions (Text.lit "[]")).flatten).length = dimensions * 2 := by
  induction dimensions with
  | zero => rfl
  | succ dimensions ih =>
    rw [List.replicate_succ, List.flatten_cons, List.length_append, ih, Nat.succ_mul, Nat.add_comm]
    rfl

/-- An element type ends where the brackets start, and their number is that of the dimensions. -/
theorem display_inj (htype : type.element.Ordinary) (hother : other.element.Ordinary)
    (h : type.display = other.display) : type = other := by
  obtain ⟨helement, hbrackets⟩ := append_inj_of_mark (htype.not_mem (by decide) (by decide))
    (hother.not_mem (by decide) (by decide)) (fun _ ↦ head?_brackets) (fun _ ↦ head?_brackets) h
  have hlength := congrArg List.length hbrackets
  rw [length_brackets, length_brackets] at hlength
  show FieldType.mk type.dimensions type.element = _
  rw [htype.display_inj hother helement, Nat.eq_of_mul_eq_mul_right (by decide) hlength]

/-- Neither the element type nor the brackets hold the marks between parameters. -/
theorem not_mem_display (htype : type.element.Ordinary) {mark : CodePoint}
    (hmark : mark ∈ Text.lit ", ") : mark ∉ type.display := by
  have hplain : ∀ mark ∈ Text.lit ", ",
      mark ∈ typeMarks ∧ mark ≠ .char '.' ∧ mark ∉ Text.lit "[]" := by decide
  obtain ⟨hmarks, hdot, hbrackets⟩ := hplain mark hmark
  intro hmem
  rcases List.mem_append.1 hmem with hmem | hmem
  · exact htype.not_mem hmarks hdot hmem
  · obtain ⟨bracket, hbracket, hmem⟩ := List.mem_flatten.1 hmem
    exact hbrackets (List.eq_of_mem_replicate hbracket ▸ hmem)

theorem WellFormed.display_ne_nil (h : type.WellFormed) : type.display ≠ [] :=
  fun hnil ↦ h.element.display_ne_nil (List.append_eq_nil_iff.1 hnil).1

end FieldType

namespace ResultType

variable {type other : ResultType}

theorem Ordinary.not_mem (h : type.Ordinary) : .char ' ' ∉ type.display := by
  cases type with
  | void => decide
  | value type => exact FieldType.not_mem_display h (by decide)

/-- A type is not shown as the word for no result, since its element type is not. -/
theorem display_ne_void {type : FieldType} (h : type.element.Ordinary) :
    type.display ≠ .lit "void" := by
  intro hvoid
  have hsplit : type.element.display ++ _ = Text.lit "void" ++ [] :=
    hvoid.trans (List.append_nil _).symm
  obtain ⟨helement, -⟩ := append_inj_of_mark (h.not_mem (by decide) (by decide))
    (by decide) (fun _ ↦ FieldType.head?_brackets) (fun _ hc ↦ absurd hc (by simp)) hsplit
  exact h.display_ne_void helement

theorem Ordinary.display_inj (htype : type.Ordinary) (hother : other.Ordinary)
    (h : type.display = other.display) : type = other := by
  cases type with
  | void =>
    cases other with
    | void => rfl
    | value other => exact absurd h.symm (display_ne_void hother)
  | value type =>
    cases other with
    | void => exact absurd h (display_ne_void htype)
    | value other => rw [FieldType.display_inj htype hother h]

end ResultType

namespace MethodType

/-- Types that are shown alike are the same, one after the other. -/
theorem map_display_inj {types others : List FieldType}
    (htypes : ∀ type ∈ types, type.element.Ordinary)
    (hothers : ∀ other ∈ others, other.element.Ordinary)
    (h : types.map FieldType.display = others.map FieldType.display) : types = others := by
  induction types generalizing others with
  | nil => exact (List.map_eq_nil_iff.1 h.symm).symm
  | cons type types ih =>
    cases others with
    | nil => cases h
    | cons other others =>
      rw [List.forall_mem_cons] at htypes hothers
      obtain ⟨hfirst, hrest⟩ := List.cons.inj h
      rw [FieldType.display_inj htypes.1 hothers.1 hfirst, ih htypes.2 hothers.2 hrest]

/-- The parameters are taken apart at the commas. -/
theorem parameterText_inj {type other : MethodType} (hwell : type.WellFormed)
    (hwell' : other.WellFormed)
    (htypes : ∀ parameter ∈ type.parameters, parameter.element.Ordinary)
    (hothers : ∀ parameter ∈ other.parameters, parameter.element.Ordinary)
    (h : type.parameterText = other.parameterText) : type.parameters = other.parameters := by
  have hpieces : ∀ {type : MethodType}, type.WellFormed →
      (∀ parameter ∈ type.parameters, parameter.element.Ordinary) →
      ∀ piece ∈ type.parameters.map FieldType.display, piece ≠ [] ∧ .char ',' ∉ piece := by
    intro type hwell htypes piece hpiece
    obtain ⟨parameter, hparameter, rfl⟩ := List.mem_map.1 hpiece
    exact ⟨(hwell.parameters parameter hparameter).display_ne_nil,
      FieldType.not_mem_display (htypes parameter hparameter) (by decide)⟩
  exact map_display_inj htypes hothers
    (Text.join_inj (hpieces hwell htypes) (hpieces hwell' hothers) h)

end MethodType

/-! ### Methods -/

namespace Method

variable {method other : Method}

/-- The marks of a signature, from the left. -/
theorem signature_eq (method : Method) :
    method.signature = method.type.result.display ++ .char ' ' ::
      (method.name ++ .char '(' :: (method.type.parameterText ++ [.char ')'])) := by
  simp [signature, Text.lit, Text.ofChars]

/-- A signature is taken apart at the first blank and the first parenthesis behind it. -/
theorem Ordinary.type_eq (hmethod : method.Ordinary) (hother : other.Ordinary)
    (h : method.signature = other.signature) :
    method.name = other.name ∧ method.type = other.type := by
  rw [signature_eq, signature_eq] at h
  obtain ⟨hresult, h⟩ := append_cons_inj_of_mark hmethod.result.not_mem hother.result.not_mem h
  obtain ⟨hname, h⟩ := append_cons_inj_of_mark hmethod.name hother.name h
  have hparameters := MethodType.parameterText_inj (Descriptor.method_eq_ok_iff.1 hmethod.parsed).1
    (Descriptor.method_eq_ok_iff.1 hother.parsed).1 hmethod.parameters hother.parameters
    (List.append_cancel_right h)
  refine ⟨hname, ?_⟩
  show MethodType.mk method.type.parameters method.type.result = _
  rw [hparameters, hmethod.result.display_inj hother.result hresult]

/-- A signature stands for one name and one descriptor. -/
theorem Ordinary.signature_eq_iff (hmethod : method.Ordinary) (hother : other.Ordinary) :
    method.signature = other.signature ↔
      method.name = other.name ∧ method.descriptor = other.descriptor := by
  constructor
  · intro h
    obtain ⟨hname, htype⟩ := hmethod.type_eq hother h
    refine ⟨hname, ?_⟩
    rw [(Descriptor.method_eq_ok_iff.1 hmethod.parsed).2, htype,
      ← (Descriptor.method_eq_ok_iff.1 hother.parsed).2]
  · intro ⟨hname, hdescriptor⟩
    have htype : method.type = other.type := by
      have hparsed := hmethod.parsed
      rw [hdescriptor, hother.parsed] at hparsed
      exact (Except.ok.inj hparsed).symm
    rw [signature, signature, hname, htype]

end Method

/-! ### The table -/

namespace MethodTable

variable {methods : List Method}

/-- Methods of different signatures, each with its own entry. -/
def ofDistinct (methods : List Method) : MethodTable :=
  methods.zipIdx.map fun placed ↦ ⟨placed.1.signature, placed.2, placed.1⟩

theorem eraseDups_of_nodup {signatures : List Text} (h : signatures.Nodup) :
    signatures.eraseDups = signatures := by
  induction signatures with
  | nil => rfl
  | cons signature signatures ih =>
    obtain ⟨hnew, hrest⟩ := List.nodup_cons.1 h
    have hfilter : signatures.filter (fun other ↦ !other == signature) = signatures :=
      List.filter_eq_self.2 fun other hother ↦ by
        have hne : other ≠ signature := fun heq ↦ hnew (heq ▸ hother)
        simp [hne]
    rw [List.eraseDups_cons, hfilter, ih hrest]

theorem getElem?_ofDistinct (methods : List Method) (place : Nat) :
    (ofDistinct methods)[place]? =
      methods[place]?.map fun method ↦ ⟨method.signature, place, method⟩ := by
  rw [ofDistinct, List.getElem?_map, List.getElem?_zipIdx, Option.map_map, Nat.zero_add]
  rfl

/-- A table of methods with different signatures has them in order of declaration. The entry at a
place is that of the method declared there, since no other one has its signature. -/
theorem Tabulates.eq_ofDistinct {table : MethodTable} (h : Tabulates methods table)
    (hnodup : (methods.map Method.signature).Nodup) : table = ofDistinct methods := by
  have hkeys : table.map MethodEntry.signature = methods.map Method.signature :=
    h.keys_eq.trans (eraseDups_of_nodup hnodup)
  refine List.ext_getElem? fun place ↦ ?_
  rw [getElem?_ofDistinct]
  have hkey : table[place]?.map MethodEntry.signature = methods[place]?.map Method.signature := by
    rw [← List.getElem?_map, ← List.getElem?_map, hkeys]
  cases hentry : table[place]? with
  | none =>
    rw [hentry] at hkey
    rw [Option.map_eq_none_iff.1 hkey.symm]
    rfl
  | some entry =>
    have hlast := h.isLast entry (List.mem_of_getElem? hentry)
    have hplace : (methods.map Method.signature)[place]? = some entry.signature := by
      rw [List.getElem?_map, ← hkey, hentry]
      rfl
    have hindex : (methods.map Method.signature)[entry.index]? = some entry.signature := by
      rw [List.getElem?_map, hlast.declared, Option.map_some, hlast.signature_eq]
    have hsame : place = entry.index :=
      (List.getElem?_inj (List.getElem?_eq_some_iff.1 hplace).1 hnodup).1
        (hplace.trans hindex.symm)
    rw [hsame, hlast.declared, Option.map_some, hlast.signature_eq]

/-- Methods with different signatures are all kept, without a warning. -/
theorem outcome_ofMethods_of_nodup (hnodup : (methods.map Method.signature).Nodup) :
    (ofMethods methods).outcome = (.ok (ofDistinct methods), #[]) := by
  obtain ⟨table, houtcome, htable, hlength⟩ := exists_tabulates methods
  rw [htable.eq_ofDistinct hnodup] at houtcome hlength
  have hall : (ofDistinct methods).length = methods.length := by
    rw [ofDistinct, List.length_map, List.length_zipIdx]
  have hnone : warnings methods methods.zipIdx = [] :=
    List.eq_nil_of_length_eq_zero (by omega)
  rw [houtcome, hnone]

/-- Ordinary methods that differ in name or descriptor differ in their signatures. -/
theorem nodup_signatures (hmethods : ∀ method ∈ methods, method.Ordinary)
    (hnodup : (methods.map fun method ↦ (method.name, method.descriptor)).Nodup) :
    (methods.map Method.signature).Nodup := by
  rw [List.Nodup, List.pairwise_map] at hnodup ⊢
  refine hnodup.imp_of_mem fun {method other} hmethod hother hne hsame ↦ hne ?_
  obtain ⟨hname, hdescriptor⟩ :=
    ((hmethods method hmethod).signature_eq_iff (hmethods other hother)).1 hsame
  rw [hname, hdescriptor]

/-- Overloads are kept apart. Among methods without unusual names, a signature belongs to one name
and one descriptor. So if the methods of a class differ in these, its table has each of them under
its own signature, in order of declaration, and nothing is warned of. -/
theorem keeps_overloads_apart :
    (∀ method other : Method, method.Ordinary → other.Ordinary →
      (method.signature = other.signature ↔
        method.name = other.name ∧ method.descriptor = other.descriptor)) ∧
    ∀ file : ClassFile, (∀ method ∈ file.methods, method.Ordinary) →
      (file.methods.map fun method ↦ (method.name, method.descriptor)).Nodup →
      (file.methods.map Method.signature).Nodup ∧
      (ofMethods file.methods).outcome = (.ok (file.methods.zipIdx.map fun placed ↦
        ⟨placed.1.signature, placed.2, placed.1⟩), #[]) := by
  refine ⟨fun method other hmethod hother ↦ hmethod.signature_eq_iff hother,
    fun file hmethods hnodup ↦ ?_⟩
  have hsignatures := nodup_signatures hmethods hnodup
  exact ⟨hsignatures, outcome_ofMethods_of_nodup hsignatures⟩

/-- A class with three methods of one name, of which one takes nothing, one a number and one an
array of strings. -/
def sampleOverloads : ClassFile where
  minorVersion := 0
  majorVersion := 52
  pool := .empty
  flags := ⟨0⟩
  thisClass := .lit "A"
  superClass := none
  interfaces := []
  fields := []
  methods := [⟨[], .void⟩, ⟨[⟨0, .base .int⟩], .void⟩,
    ⟨[⟨1, .object (.lit "java/lang/String")⟩], .value ⟨0, .base .int⟩⟩].map fun type ↦
      ⟨⟨0⟩, .lit "m", type.descriptor, type, [], none⟩
  attributes := []

theorem keeps_overloads_apart_sample :
    (∀ method ∈ sampleOverloads.methods, method.Ordinary) ∧
    (sampleOverloads.methods.map fun method ↦ (method.name, method.descriptor)).Nodup ∧
    (sampleOverloads.methods.map Method.signature).Nodup ∧
    (ofMethods sampleOverloads.methods).outcome =
      (.ok (sampleOverloads.methods.zipIdx.map fun placed ↦
        ⟨placed.1.signature, placed.2, placed.1⟩), #[]) := by
  have hmethods : ∀ method ∈ sampleOverloads.methods, method.Ordinary := by decide +kernel
  have hnodup : (sampleOverloads.methods.map fun method ↦ (method.name, method.descriptor)).Nodup :=
    by decide
  exact ⟨hmethods, hnodup, keeps_overloads_apart.2 sampleOverloads hmethods hnodup⟩

end MethodTable

end ClassInspect
