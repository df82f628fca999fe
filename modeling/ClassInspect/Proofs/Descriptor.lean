import ClassInspect.ClassFile.Read
import ClassInspect.Proofs.Scan.Run

/-!
# The grammar of descriptors

The notation of types, as a grammar on texts that knows nothing of a parser: an element type is a
letter or a class name between `L` and `;`, a field type has up to 255 brackets before it, and a
method has any number of field types in parentheses before its result.

The parsers accept exactly this grammar and lose nothing (`Descriptor.exact_field_and_method`).

## What the theorem rests on

* Grammar and parsers are compared by way of the types that have a descriptor. A text is in the
  grammar if it is the descriptor of such a type (`Descriptor.isField_iff`,
  `Descriptor.isMethod_iff`), and it is parsed to a type if it is the descriptor of that type
  (`Descriptor.field_eq_ok_iff`, `Descriptor.method_eq_ok_iff`). `Descriptor.Exact.of_eq_ok_iff` is
  all that is left then, and it is the same for fields and methods.
* The parsers rest on one equivalence for the type at the front of a text
  (`Descriptor.fieldType_eq_ok_iff`): what is parsed is a type that has a descriptor, and the text
  is this descriptor with the rest behind it. The rest is left open, so a name may hold parentheses
  and brackets, and the parameters of a method follow by going through them.
* Going through the parameters is by induction along the parser (`Descriptor.parameters_eq_ok_iff`).
  Where it stops and where it goes on is decided by the next code point, and a type starts with
  neither a closing parenthesis nor the letter of no result (`Descriptor.ne_of_descriptor_append`).
  So there is never a choice, and the same types are found in any other way to cut the text.
* The parsers take code points that must be there. Before each of them they have looked, or the text
  was found not to be at its end, so none is taken behind the end (`Descriptor.Guarded`). A text
  that is refused is therefore refused as malformed.
-/

namespace ClassInspect

/-! ### The grammar -/

namespace Descriptor

/-- An element type: a letter, or a name that is not empty and does not hold the mark that ends
it. -/
inductive IsElement : Text → Prop
  | base {letter : Char} (h : letter ∈ ['B', 'C', 'D', 'F', 'I', 'J', 'S', 'Z']) :
      IsElement [.char letter]
  | object {name : Text} (hname : name ≠ []) (hmark : CodePoint.char ';' ∉ name) :
      IsElement (.char 'L' :: name ++ [.char ';'])

/-- A field type: an element type under up to 255 dimensions. -/
inductive IsField : Text → Prop
  | array {dimensions : Nat} {element : Text} (hdimensions : dimensions ≤ 255)
      (helement : IsElement element) :
      IsField (List.replicate dimensions (.char '[') ++ element)

/-- Any number of field types, one after the other. -/
inductive AreFields : Text → Prop
  | nil : AreFields []
  | cons {type types : Text} (htype : IsField type) (htypes : AreFields types) :
      AreFields (type ++ types)

/-- The result of a method: nothing, or a field type. -/
inductive IsResult : Text → Prop
  | void : IsResult [.char 'V']
  | value {type : Text} (htype : IsField type) : IsResult type

/-- A method: field types in parentheses, and the result. -/
inductive IsMethod : Text → Prop
  | method {types result : Text} (htypes : AreFields types) (hresult : IsResult result) :
      IsMethod (.char '(' :: types ++ .char ')' :: result)

end Descriptor

/-! ### Types that have a descriptor -/

/-- The name of a class is not empty and does not hold the mark that ends it. -/
def ElementType.WellFormed : ElementType → Prop
  | base _ => True
  | object name => name ≠ [] ∧ CodePoint.char ';' ∉ name

/-- A type of not too many dimensions. -/
structure FieldType.WellFormed (type : FieldType) : Prop where
  dimensions : type.dimensions ≤ 255
  element : type.element.WellFormed

/-- No result, or one of a type that has a descriptor. -/
def ResultType.WellFormed : ResultType → Prop
  | void => True
  | value type => type.WellFormed

/-- A method whose types all have a descriptor. -/
structure MethodType.WellFormed (type : MethodType) : Prop where
  parameters : ∀ parameter ∈ type.parameters, parameter.WellFormed
  result : type.result.WellFormed

theorem BaseType.letter_mem (base : BaseType) :
    base.letter ∈ ['B', 'C', 'D', 'F', 'I', 'J', 'S', 'Z'] := by
  cases base <;> decide

theorem BaseType.exists_letter_eq :
    ∀ letter ∈ ['B', 'C', 'D', 'F', 'I', 'J', 'S', 'Z'], ∃ base : BaseType,
      base.letter = letter := by
  intro letter hletter
  have hall : ['B', 'C', 'D', 'F', 'I', 'J', 'S', 'Z'] = BaseType.all.map BaseType.letter := rfl
  rw [hall] at hletter
  obtain ⟨base, -, hbase⟩ := List.mem_map.1 hletter
  exact ⟨base, hbase⟩

/-- The names of the primitive types differ. -/
theorem BaseType.name_inj {base other : BaseType} (h : base.name = other.name) : base = other := by
  cases base <;> cases other <;> first | rfl | exact absurd h (by decide)

namespace Descriptor

theorem isElement_iff {text : Text} :
    IsElement text ↔ ∃ type : ElementType, type.WellFormed ∧ text = type.descriptor := by
  constructor
  · intro h
    cases h with
    | @base letter hletter =>
      obtain ⟨base, hbase⟩ := BaseType.exists_letter_eq letter hletter
      exact ⟨.base base, trivial, by rw [ElementType.descriptor, hbase]⟩
    | @object name hname hmark => exact ⟨.object name, ⟨hname, hmark⟩, rfl⟩
  · intro ⟨type, htype, htext⟩
    rw [htext]
    cases type with
    | base type => exact .base type.letter_mem
    | object name => exact .object htype.1 htype.2

theorem isField_iff {text : Text} :
    IsField text ↔ ∃ type : FieldType, type.WellFormed ∧ text = type.descriptor := by
  constructor
  · intro ⟨hdimensions, helement⟩
    obtain ⟨element, hwellFormed, rfl⟩ := isElement_iff.1 helement
    exact ⟨⟨_, element⟩, ⟨hdimensions, hwellFormed⟩, rfl⟩
  · intro ⟨type, htype, htext⟩
    rw [htext]
    exact .array htype.dimensions (isElement_iff.2 ⟨type.element, htype.element, rfl⟩)

theorem areFields_iff {text : Text} :
    AreFields text ↔ ∃ types : List FieldType, (∀ type ∈ types, type.WellFormed) ∧
      text = types.flatMap FieldType.descriptor := by
  constructor
  · intro h
    induction h with
    | nil => exact ⟨[], by simp, rfl⟩
    | cons htype _ ih =>
      obtain ⟨type, hwellFormed, rfl⟩ := isField_iff.1 htype
      obtain ⟨types, hall, rfl⟩ := ih
      exact ⟨type :: types, List.forall_mem_cons.2 ⟨hwellFormed, hall⟩, by simp⟩
  · intro ⟨types, hall, htext⟩
    rw [htext]
    clear htext
    induction types with
    | nil => exact .nil
    | cons type types ih =>
      obtain ⟨htype, htypes⟩ := List.forall_mem_cons.1 hall
      rw [List.flatMap_cons]
      exact .cons (isField_iff.2 ⟨type, htype, rfl⟩) (ih htypes)

theorem isResult_iff {text : Text} :
    IsResult text ↔ ∃ type : ResultType, type.WellFormed ∧ text = type.descriptor := by
  constructor
  · intro h
    cases h with
    | void => exact ⟨.void, trivial, rfl⟩
    | value htype =>
      obtain ⟨type, hwellFormed, rfl⟩ := isField_iff.1 htype
      exact ⟨.value type, hwellFormed, rfl⟩
  · intro ⟨type, htype, htext⟩
    rw [htext]
    cases type with
    | void => exact .void
    | value type => exact .value (isField_iff.2 ⟨type, htype, rfl⟩)

theorem isMethod_iff {text : Text} :
    IsMethod text ↔ ∃ type : MethodType, type.WellFormed ∧ text = type.descriptor := by
  constructor
  · intro ⟨htypes, hresult⟩
    obtain ⟨parameters, hparameters, rfl⟩ := areFields_iff.1 htypes
    obtain ⟨result, hwellFormed, rfl⟩ := isResult_iff.1 hresult
    exact ⟨⟨parameters, result⟩, ⟨hparameters, hwellFormed⟩, rfl⟩
  · intro ⟨type, htype, htext⟩
    rw [htext]
    exact .method (areFields_iff.2 ⟨type.parameters, htype.parameters, rfl⟩)
      (isResult_iff.2 ⟨type.result, htype.result, rfl⟩)

end Descriptor

/-! ### The type at the front of a text -/

/-- A letter stands for the primitive type whose letter it is. -/
theorem BaseType.ofCodePoint?_eq_some_iff {c : CodePoint} {base : BaseType} :
    ofCodePoint? c = some base ↔ c = .char base.letter := by
  constructor
  · intro h
    simpa [eq_comm] using List.find?_some h
  · rintro rfl
    cases base <;> rfl

/-- An element type does not start with a bracket or a closing parenthesis, and not as the result
of a method without one. -/
theorem ElementType.descriptor_eq_cons (type : ElementType) :
    ∃ letter tail, type.descriptor = .char letter :: tail ∧
      letter ∉ ['[', ')', 'V'] := by
  cases type with
  | base base => exact ⟨base.letter, [], rfl, by cases base <;> decide⟩
  | object name => exact ⟨'L', name ++ [.char ';'], rfl, by decide⟩

/-- The longest front of a text whose members have a property, and what stands behind it. -/
theorem span_eq_iff {α : Type} {p : α → Bool} {text front rest : List α} {c : α} :
    text.takeWhile p = front ∧ text.dropWhile p = c :: rest ↔
      text = front ++ c :: rest ∧ (∀ x ∈ front, p x = true) ∧ p c = false := by
  constructor
  · intro ⟨hfront, hrest⟩
    have hall : (text.takeWhile p).all p = true := List.all_takeWhile
    have hhead := List.head?_dropWhile_not p text
    rw [hfront, List.all_eq_true] at hall
    rw [hrest] at hhead
    have htext : text.takeWhile p ++ text.dropWhile p = text := List.takeWhile_append_dropWhile
    rw [hfront, hrest] at htext
    exact ⟨htext.symm, hall, hhead⟩
  · intro ⟨htext, hall, hc⟩
    rw [htext, List.takeWhile_append_of_pos hall, List.dropWhile_append_of_pos hall,
      List.takeWhile_cons_of_neg (by simp [hc]), List.dropWhile_cons_of_neg (by simp [hc]),
      List.append_nil]
    exact ⟨rfl, rfl⟩

namespace Descriptor

/-- A name ends at the first mark. -/
theorem span_mark_iff {rest name after : Text} {c : CodePoint} :
    rest.takeWhile (· ≠ .char ';') = name ∧ rest.dropWhile (· ≠ .char ';') = c :: after ↔
      rest = name ++ .char ';' :: after ∧ .char ';' ∉ name ∧ c = .char ';' := by
  have hname : (∀ x ∈ name, decide (x ≠ .char ';') = true) ↔ CodePoint.char ';' ∉ name := by
    simp only [decide_eq_true_eq]
    exact ⟨fun h hmark ↦ h _ hmark rfl, fun h x hx hmark ↦ h (hmark ▸ hx)⟩
  have hc : decide (c ≠ .char ';') = false ↔ c = .char ';' := by
    rw [decide_eq_false_iff_not, Classical.not_not]
  rw [span_eq_iff, hname, hc]
  constructor
  · rintro ⟨htext, hmark, rfl⟩
    exact ⟨htext, hmark, rfl⟩
  · rintro ⟨htext, hmark, rfl⟩
    exact ⟨htext, hmark, rfl⟩

/-- The element type at the front of a text is parsed, and nothing behind it. -/
theorem element_eq_ok_iff {code : CodePoint} {rest after : Text} {type : ElementType} :
    element code rest = .ok (type, after) ↔
      type.WellFormed ∧ code :: rest = type.descriptor ++ after := by
  constructor
  · intro h
    unfold element at h
    split at h
    · rename_i base hbase
      obtain rfl := BaseType.ofCodePoint?_eq_some_iff.1 hbase
      cases h
      exact ⟨trivial, rfl⟩
    · split at h
      · rename_i hcode
        dsimp only at h
        split at h
        · cases h
        · rename_i c behind hbehind
          split at h
          · cases h
          · -- the mark was found, with a name before it
            rename_i hname
            cases h
            obtain ⟨htext, hmark, -⟩ := span_mark_iff.1 ⟨rfl, hbehind⟩
            refine ⟨⟨fun hnil ↦ hname (List.isEmpty_iff.2 hnil), hmark⟩, ?_⟩
            rw [hcode, ElementType.descriptor, List.append_assoc]
            exact congrArg _ htext
      · cases h
  · rintro ⟨hwellFormed, htext⟩
    cases type with
    | base base =>
      obtain ⟨rfl, rfl⟩ := List.cons.inj htext
      rw [element, BaseType.ofCodePoint?_eq_some_iff.2 rfl]
    | object name =>
      obtain ⟨hname, hmark⟩ := hwellFormed
      rw [ElementType.descriptor, List.append_assoc] at htext
      obtain ⟨rfl, hrest⟩ := List.cons.inj htext
      obtain ⟨htake, hdrop⟩ := span_mark_iff.2 ⟨hrest, hmark, rfl⟩
      have hletter : BaseType.ofCodePoint? (.char 'L') = none := rfl
      have hempty : name.isEmpty = false := List.isEmpty_eq_false_iff.2 hname
      simp only [element, hletter, if_true, htake, hdrop, hempty]
      rfl

/-- The brackets at the front of a text are counted, up to what is no bracket. -/
theorem span_brackets_iff {text rest : Text} {code : CodePoint} {dimensions : Nat} :
    (text.takeWhile (· = .char '[')).length = dimensions ∧
        text.dropWhile (· = .char '[') = code :: rest ↔
      text = List.replicate dimensions (.char '[') ++ code :: rest ∧ code ≠ .char '[' := by
  constructor
  · rintro ⟨rfl, hrest⟩
    obtain ⟨htext, hall, hcode⟩ := span_eq_iff.1 ⟨rfl, hrest⟩
    have hbrackets : text.takeWhile (· = .char '[') =
        List.replicate (text.takeWhile (· = .char '[')).length (.char '[') :=
      List.eq_replicate_of_mem fun c hc ↦ of_decide_eq_true (hall c hc)
    rw [← hbrackets]
    exact ⟨htext, of_decide_eq_false hcode⟩
  · rintro ⟨htext, hcode⟩
    have hall : ∀ c ∈ List.replicate dimensions (CodePoint.char '['),
        decide (c = .char '[') = true :=
      fun c hc ↦ decide_eq_true (List.eq_of_mem_replicate hc)
    obtain ⟨hfront, hrest⟩ := span_eq_iff.2 ⟨htext, hall, decide_eq_false hcode⟩
    rw [hfront, List.length_replicate]
    exact ⟨rfl, hrest⟩

/-- The element type behind brackets is parsed, if these are not too many. -/
theorem elementUnder_eq_ok_iff {dimensions : Nat} {text after : Text} {type : FieldType} :
    elementUnder dimensions text = .ok (type, after) ↔
      dimensions ≤ 255 ∧ type.dimensions = dimensions ∧ type.element.WellFormed ∧
        text = type.element.descriptor ++ after := by
  by_cases hmax : maxDimensions < dimensions
  · rw [elementUnder, if_pos hmax]
    constructor
    · intro h
      cases h
    · intro h
      exact absurd hmax (Nat.not_lt.2 h.1)
  · cases text with
    | nil =>
      obtain ⟨letter, tail, hdescriptor, -⟩ := type.element.descriptor_eq_cons
      rw [elementUnder, if_neg hmax, hdescriptor]
      constructor
      · intro h
        cases h
      · rintro ⟨-, -, -, h⟩
        cases h
    | cons code rest =>
      rw [elementUnder_cons hmax, map_eq_ok_iff]
      constructor
      · rintro ⟨⟨element, after'⟩, helement, htype⟩
        cases htype
        obtain ⟨hwellFormed, hcode⟩ := element_eq_ok_iff.1 helement
        exact ⟨Nat.le_of_not_lt hmax, rfl, hwellFormed, hcode⟩
      · rintro ⟨-, rfl, hwellFormed, hcode⟩
        exact ⟨(type.element, after), element_eq_ok_iff.2 ⟨hwellFormed, hcode⟩, rfl⟩

/-- The type at the front of a text is parsed, and nothing behind it. -/
theorem fieldType_eq_ok_iff {text after : Text} {type : FieldType} :
    fieldType text = .ok (type, after) ↔
      type.WellFormed ∧ text = type.descriptor ++ after := by
  -- the brackets end where the element type starts
  obtain ⟨letter, tail, hdescriptor, hletter⟩ := type.element.descriptor_eq_cons
  have hcode : CodePoint.char letter ≠ .char '[' := by
    intro h
    cases h
    exact hletter (by decide)
  rw [fieldType_eq, elementUnder_eq_ok_iff, FieldType.descriptor, List.append_assoc, hdescriptor,
    List.cons_append]
  constructor
  · rintro ⟨hdimensions, hlength, hwellFormed, hrest⟩
    rw [hlength.symm] at hdimensions
    exact ⟨⟨hdimensions, hwellFormed⟩, (span_brackets_iff.1 ⟨hlength.symm, hrest⟩).1⟩
  · rintro ⟨hwellFormed, htext⟩
    obtain ⟨hlength, hrest⟩ := span_brackets_iff.2 ⟨htext, hcode⟩
    exact ⟨hlength ▸ hwellFormed.dimensions, hlength.symm, hwellFormed.element, hrest⟩

/-- A type does not start with a closing parenthesis, and not as the result of a method without
one. -/
theorem ne_of_descriptor_append {type : FieldType} {letter : Char} {rest after : Text}
    (hletter : letter = ')' ∨ letter = 'V') :
    .char letter :: rest ≠ type.descriptor ++ after := by
  intro h
  obtain ⟨letter', tail, hdescriptor, hletter'⟩ := type.element.descriptor_eq_cons
  rw [FieldType.descriptor, hdescriptor] at h
  cases hdimensions : type.dimensions with
  | zero =>
    rw [hdimensions] at h
    cases h
    rcases hletter with rfl | rfl
    · exact hletter' (by decide)
    · exact hletter' (by decide)
  | succ n =>
    rw [hdimensions, List.replicate_succ] at h
    cases h
    rcases hletter with h | h
    · cases h
    · cases h

/-! ### Methods -/

theorem peek_eq_some_iff {text : Text} {code : CodePoint} :
    peek text = some code ↔ ∃ rest, text = code :: rest :=
  List.head?_eq_some_iff

/-- The parameters up to the closing parenthesis are parsed, behind those that were parsed
before. The parenthesis is still there. -/
theorem parameters_eq_ok_iff {done types : List FieldType} {text after : Text} :
    parameters done text = .ok (types, after) ↔
      ∃ more rest, types = done.reverse ++ more ∧ (∀ type ∈ more, type.WellFormed) ∧
        after = .char ')' :: rest ∧ text = more.flatMap FieldType.descriptor ++ after := by
  fun_induction parameters done text with
  | case1 done text hpeek =>
    obtain ⟨rest, rfl⟩ := peek_eq_some_iff.1 hpeek
    constructor
    · intro h
      cases h
      exact ⟨[], rest, by simp, by simp, rfl, rfl⟩
    · rintro ⟨more, rest', rfl, -, rfl, htext⟩
      cases more with
      | nil =>
        cases htext
        simp
      | cons type more =>
        -- a type would have to start with the parenthesis
        rw [List.flatMap_cons, List.append_assoc] at htext
        exact absurd htext (ne_of_descriptor_append (.inl rfl))
  | case2 done text hpeek hempty =>
    refine iff_of_false (fun h ↦ by cases h) ?_
    rintro ⟨more, rest, -, -, rfl, htext⟩
    rw [List.isEmpty_iff.1 hempty] at htext
    simp at htext
  | case3 done text hpeek hempty type behind hfound ih =>
    obtain ⟨hwellFormed, htext'⟩ := fieldType_eq_ok_iff.1 hfound
    rw [ih]
    constructor
    · rintro ⟨more, rest, rfl, hmore, rfl, rfl⟩
      refine ⟨type :: more, rest, by simp, List.forall_mem_cons.2 ⟨hwellFormed, hmore⟩, rfl, ?_⟩
      rw [htext', List.flatMap_cons, List.append_assoc]
    · rintro ⟨more, rest, rfl, hmore, rfl, htext⟩
      cases more with
      | nil => exact absurd (peek_eq_some_iff.2 ⟨rest, htext⟩) hpeek
      | cons type' more =>
        obtain ⟨htype', hmore'⟩ := List.forall_mem_cons.1 hmore
        rw [List.flatMap_cons, List.append_assoc] at htext
        -- the first type of any such cut is the one that was parsed
        have hsame := fieldType_eq_ok_iff.2 ⟨htype', htext⟩
        rw [hfound] at hsame
        cases hsame
        exact ⟨more, rest, by simp, hmore', rfl, rfl⟩
  | case4 done text hpeek hempty failure hfound =>
    refine iff_of_false (fun h ↦ by cases h) ?_
    rintro ⟨more, rest, -, hmore, rfl, htext⟩
    cases more with
    | nil => exact hpeek (peek_eq_some_iff.2 ⟨rest, htext⟩)
    | cons type more =>
      rw [List.flatMap_cons, List.append_assoc] at htext
      have hparsed := fieldType_eq_ok_iff.2 ⟨(List.forall_mem_cons.1 hmore).1, htext⟩
      rw [hfound] at hparsed
      cases hparsed

/-- The result at the front of a text is parsed, and nothing behind it. -/
theorem result_eq_ok_iff {text after : Text} {type : ResultType} :
    result text = .ok (type, after) ↔
      type.WellFormed ∧ text = type.descriptor ++ after := by
  unfold result
  split
  · rename_i hvoid
    obtain ⟨rest, rfl⟩ := peek_eq_some_iff.1 hvoid
    constructor
    · intro h
      cases h
      exact ⟨trivial, rfl⟩
    · rintro ⟨-, htext⟩
      cases type with
      | void =>
        cases htext
        rfl
      | value type => exact absurd htext (ne_of_descriptor_append (.inr rfl))
  · rename_i hvoid
    rw [bind_eq_ok_iff]
    constructor
    · rintro ⟨⟨type', after'⟩, hfound, h⟩
      cases h
      exact fieldType_eq_ok_iff.1 hfound
    · rintro ⟨hwellFormed, htext⟩
      cases type with
      | void => exact absurd (peek_eq_some_iff.2 ⟨after, htext⟩) hvoid
      | value type => exact ⟨(type, after), fieldType_eq_ok_iff.2 ⟨hwellFormed, htext⟩, rfl⟩

/-! ### Whole descriptors -/

/-- A whole text is parsed as the field type that it is the descriptor of. -/
theorem field_eq_ok_iff {text : Text} {type : FieldType} :
    field text = .ok type ↔ type.WellFormed ∧ text = type.descriptor := by
  rw [field, bind_eq_ok_iff]
  constructor
  · rintro ⟨⟨type', after⟩, hfound, hend⟩
    obtain ⟨hwellFormed, htext⟩ := fieldType_eq_ok_iff.1 hfound
    dsimp only at hend
    split at hend
    · rename_i hafter
      cases hend
      rw [List.isEmpty_iff.1 hafter, List.append_nil] at htext
      exact ⟨hwellFormed, htext⟩
    · cases hend
  · rintro ⟨hwellFormed, htext⟩
    exact ⟨(type, []), fieldType_eq_ok_iff.2 ⟨hwellFormed, by rw [htext, List.append_nil]⟩, rfl⟩

/-- A whole text is parsed as the method type that it is the descriptor of. -/
theorem method_eq_ok_iff {text : Text} {type : MethodType} :
    method text = .ok type ↔ type.WellFormed ∧ text = type.descriptor := by
  unfold method
  split
  · rename_i hparenthesis
    obtain ⟨rest, rfl⟩ := peek_eq_some_iff.1 hparenthesis
    constructor
    · intro h
      obtain ⟨_, hopening, h⟩ := bind_eq_ok_iff.1 h
      cases hopening
      obtain ⟨⟨types, behind⟩, hparameters, h⟩ := bind_eq_ok_iff.1 h
      obtain ⟨more, rest', hmore, htypes, rfl, hrest⟩ := parameters_eq_ok_iff.1 hparameters
      obtain ⟨_, hclosing, h⟩ := bind_eq_ok_iff.1 h
      cases hclosing
      obtain ⟨⟨result, after⟩, hresult, hend⟩ := bind_eq_ok_iff.1 h
      obtain ⟨hwellFormed, hbehind⟩ := result_eq_ok_iff.1 hresult
      dsimp only at hend
      split at hend
      · rename_i hafter
        cases hend
        rw [List.isEmpty_iff.1 hafter, List.append_nil] at hbehind
        obtain rfl : types = more := hmore
        refine ⟨⟨htypes, hwellFormed⟩, ?_⟩
        rw [hrest, hbehind]
        rfl
      · cases hend
    · rintro ⟨hwellFormed, htext⟩
      obtain ⟨-, hrest⟩ := List.cons.inj htext
      have hparameters : parameters [] rest =
          .ok (type.parameters, .char ')' :: type.result.descriptor) :=
        parameters_eq_ok_iff.2 ⟨type.parameters, _, rfl, hwellFormed.parameters, rfl, hrest⟩
      have hresult : result type.result.descriptor = .ok (type.result, []) :=
        result_eq_ok_iff.2 ⟨hwellFormed.result, (List.append_nil _).symm⟩
      refine bind_eq_ok_iff.2 ⟨(_, rest), rfl, bind_eq_ok_iff.2 ⟨_, hparameters, ?_⟩⟩
      exact bind_eq_ok_iff.2 ⟨(_, _), rfl, bind_eq_ok_iff.2 ⟨_, hresult, rfl⟩⟩
  · rename_i hparenthesis
    refine iff_of_false (fun h ↦ by cases h) ?_
    rintro ⟨-, htext⟩
    exact hparenthesis (peek_eq_some_iff.2 ⟨_, htext⟩)

/-! ### No code point is taken behind the end -/

section Guarded

variable {α β : Type} {first : Except Failure α} {next : α → Except Failure β}

/-- If this outcome is a failure, the text is to blame: no code point was taken that is not
there. -/
def Guarded (outcome : Except Failure α) : Prop :=
  ∀ failure, outcome = .error failure → ∃ problem, failure = .malformed problem

theorem Guarded.ok (value : α) : Guarded (.ok value) :=
  nofun

theorem Guarded.malformed (problem : Problem) :
    Guarded (.error (.malformed problem) : Except _ α) := by
  intro failure h
  cases h
  exact ⟨problem, rfl⟩

theorem Guarded.bind (hfirst : Guarded first)
    (hnext : ∀ value, first = .ok value → Guarded (next value)) : Guarded (first >>= next) := by
  intro failure h
  rcases bind_eq_error_iff.1 h with herror | ⟨value, hvalue, herror⟩
  · exact hfirst failure herror
  · exact hnext value hvalue failure herror

theorem guarded_take {text : Text} {code : CodePoint} (h : peek text = some code) :
    Guarded (take text) := by
  obtain ⟨rest, rfl⟩ := peek_eq_some_iff.1 h
  exact .ok _

/-- What follows the last type must be the end. -/
theorem guarded_ite {condition : Prop} [Decidable condition] (value : α) (problem : Problem) :
    Guarded (if condition then pure value else throw (.malformed problem)) := by
  split
  · exact .ok _
  · exact .malformed _

end Guarded

theorem guarded_element (code : CodePoint) (rest : Text) : Guarded (element code rest) := by
  unfold element
  split
  · exact .ok _
  · split
    · dsimp only
      split
      · exact .malformed _
      · split
        · exact .malformed _
        · exact .ok _
    · exact .malformed _

theorem guarded_fieldType (text : Text) : Guarded (fieldType text) := by
  rw [fieldType_eq]
  unfold elementUnder
  split
  · exact .malformed _
  · split
    · exact .malformed _
    · rename_i hempty
      -- the element type is not taken at the end of the text
      obtain ⟨code, rest, hrest⟩ := List.exists_cons_of_ne_nil (mt List.isEmpty_iff.2 hempty)
      exact (guarded_take (peek_eq_some_iff.2 ⟨rest, hrest⟩)).bind fun _ _ ↦
        (guarded_element _ _).bind fun _ _ ↦ .ok _

theorem guarded_parameters (done : List FieldType) (text : Text) :
    Guarded (parameters done text) := by
  fun_induction parameters done text with
  | case1 done text hpeek => exact .ok _
  | case2 done text hpeek hempty => exact .malformed _
  | case3 done text hpeek hempty type after hfound ih => exact ih
  | case4 done text hpeek hempty failure hfound =>
    intro failure' h
    cases h
    exact guarded_fieldType text failure hfound

theorem guarded_result (text : Text) : Guarded (result text) := by
  unfold result
  split
  · rename_i hvoid
    exact (guarded_take hvoid).bind fun _ _ ↦ .ok _
  · exact (guarded_fieldType text).bind fun _ _ ↦ .ok _

theorem guarded_field (text : Text) : Guarded (field text) :=
  (guarded_fieldType text).bind fun _ _ ↦ guarded_ite _ _

theorem guarded_method (text : Text) : Guarded (method text) := by
  unfold method
  split
  · rename_i hparenthesis
    refine (guarded_take hparenthesis).bind fun _ _ ↦
      (guarded_parameters _ _).bind fun found hfound ↦ ?_
    -- the parameters end in front of the parenthesis that is taken next
    obtain ⟨_, rest, -, -, hafter, -⟩ := parameters_eq_ok_iff.1 hfound
    exact (guarded_take (peek_eq_some_iff.2 ⟨rest, hafter⟩)).bind fun _ _ ↦
      (guarded_result _).bind fun _ _ ↦ guarded_ite _ _
  · exact .malformed _

/-! ### Exactness -/

/-- A parser accepts exactly a grammar and loses nothing. Outside the grammar it is refused as a
malformed descriptor wherever a reader comes to it. -/
structure Exact {α : Type} (parse : Text → Except Failure α) (grammar : Text → Prop)
    (wellFormed : α → Prop) (descriptor : α → Text) : Prop where
  accepts_iff : ∀ text, (∃ type, parse text = .ok type) ↔ grammar text
  refuses : ∀ text, ¬ grammar text → ∃ problem : Problem, ∀ s : Scan.State,
    Scan.run (Scan.descriptor parse text) s =
        (.error (.nowhere (.descriptor text problem)), s.cursor) ∧
      (Fault.nowhere (.descriptor text problem)).formatError? =
        some ⟨.malformedDescriptor, .lit s!"Descriptor {text.quoted}: {problem.message}", none⟩
  descriptor_eq : ∀ text type, parse text = .ok type → wellFormed type ∧ descriptor type = text
  parse_descriptor : ∀ type, wellFormed type → parse (descriptor type) = .ok type

/-- A parser whose successes are the types of a text's grammar, each at its descriptor. -/
theorem Exact.of_eq_ok_iff {α : Type} {parse : Text → Except Failure α} {grammar : Text → Prop}
    {wellFormed : α → Prop} {descriptor : α → Text} (hguarded : ∀ text, Guarded (parse text))
    (hparse : ∀ {text type}, parse text = .ok type ↔ wellFormed type ∧ text = descriptor type)
    (hgrammar : ∀ {text}, grammar text ↔ ∃ type, wellFormed type ∧ text = descriptor type) :
    Exact parse grammar wellFormed descriptor := by
  have haccepts (text : Text) : (∃ type, parse text = .ok type) ↔ grammar text := by
    rw [hgrammar]
    exact exists_congr fun type ↦ hparse
  refine ⟨haccepts, ?_, ?_, ?_⟩
  · intro text htext
    cases hfailure : parse text with
    | ok type => exact absurd ((haccepts text).1 ⟨type, hfailure⟩) htext
    | error failure =>
      obtain ⟨problem, rfl⟩ := hguarded text failure hfailure
      refine ⟨problem, fun s ↦ ⟨?_, rfl⟩⟩
      rw [Scan.descriptor, Scan.run_ofExcept, hfailure]
      rfl
  · intro text type h
    obtain ⟨hwellFormed, htext⟩ := hparse.1 h
    exact ⟨hwellFormed, htext.symm⟩
  · intro type hwellFormed
    exact hparse.2 ⟨hwellFormed, rfl⟩

/-- Descriptors of fields and of methods are parsed exactly: a text is accepted if it is in the
grammar and else refused as malformed, what was parsed is written back as the text, and every type
of the grammar is parsed back from its descriptor. -/
theorem exact_field_and_method :
    Exact field IsField FieldType.WellFormed FieldType.descriptor ∧
      Exact method IsMethod MethodType.WellFormed MethodType.descriptor :=
  ⟨.of_eq_ok_iff guarded_field field_eq_ok_iff isField_iff,
    .of_eq_ok_iff guarded_method method_eq_ok_iff isMethod_iff⟩

end Descriptor

end ClassInspect
