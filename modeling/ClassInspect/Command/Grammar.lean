import ClassInspect.CharClass.Decimal
import ClassInspect.Text.Quoted

/-!
# Argument lists

How an argument list is taken apart into options and one positional argument, which is a single
value or a command with everything behind it.

First every argument is classified on its own: as an option, possibly with a value attached, as
something that looks like an option but is none, or as plain. A long option may be cut short if
that leaves no doubt; doubt is an error before anything else. Then the pieces are consumed from
the left. Letters behind a single dash are options on their own as long as they take no value.
The divider `--` makes everything behind it plain; attached to an option it stands for no value
at all.

The result lists what was found in order, so that values can be converted in that order, with
the problem that stopped the consumption and the arguments that nothing wanted.
-/

namespace ClassInspect.Arguments

/-- An option. Its names are synonyms, and the key tells what it is for. -/
structure OptionSpec (κ : Type) where
  key : κ
  names : List String
  takesValue : Bool
  deriving Repr

/-- The name of an option in messages. -/
def OptionSpec.title {κ : Type} (spec : OptionSpec κ) : String :=
  "/".intercalate spec.names

/-- What the positional argument takes. -/
inductive Positional where
  | single
  | command
  deriving DecidableEq, Repr

/-- The options of an argument list, and its positional argument. -/
structure Grammar (κ : Type) where
  options : List (OptionSpec κ)
  positional : Positional
  deriving Repr

/-- What an argument is by itself. -/
inductive Piece (κ : Type) where
  | plain
  | divider
  | option (spec : OptionSpec κ) (name : String) (attached : Option (List Char))
  | unknown
  deriving Repr

/-- What is wrong with an argument list as such. -/
inductive Problem where
  | ambiguous (argument : String) (names : List String)
  | valueExpected (title : String)
  | valueIgnored (title : String) (value : String)
  deriving DecidableEq, Repr

/-- The wording of a problem. -/
def Problem.message : Problem → String
  | ambiguous argument names =>
    s!"ambiguous option: {argument} could match " ++ ", ".intercalate names
  | valueExpected title => s!"argument {title}: expected one argument"
  | valueIgnored title value =>
    s!"argument {title}: ignored explicit argument {Text.quoted (Text.lit value)}"

variable {κ : Type}

/-! ### Classification -/

/-- All option names in order. -/
def Grammar.names (grammar : Grammar κ) : List (String × OptionSpec κ) :=
  grammar.options.flatMap fun spec ↦ spec.names.map (·, spec)

/-- The option of a name. -/
def Grammar.find? (grammar : Grammar κ) (name : String) : Option (OptionSpec κ) :=
  (grammar.names.find? (·.1 = name)).map Prod.snd

/-- Whether an argument is a negative number, which no option looks like. A line feed at its end
does not matter. -/
def looksNegative (chars : List Char) : Bool :=
  let body := if chars.getLast? = some '\n' then chars.dropLast else chars
  match body with
  | '-' :: digits =>
    let rest := digits.dropWhile CharClass.isDecimal
    match rest with
    | [] => !digits.isEmpty
    | '.' :: fraction => !fraction.isEmpty && fraction.all CharClass.isDecimal
    | _ => false
  | _ => false

/-- The options that an argument may stand for when it is not the name of one: with two dashes
those that it is the beginning of, with one dash the letter behind it. -/
def Grammar.candidates (grammar : Grammar κ) (chars : List Char) :
    List (OptionSpec κ × String × Option (List Char)) :=
  if chars.take 2 = ['-', '-'] then
    let stem := chars.takeWhile (· ≠ '=')
    let attached :=
      match chars.dropWhile (· ≠ '=') with
      | [] => none
      | _ :: value => some value
    grammar.names.filterMap fun (name, spec) ↦
      if stem.isPrefixOf name.toList then some (spec, name, attached) else none
  else
    grammar.names.filterMap fun (name, spec) ↦
      if name.toList = chars.take 2 then some (spec, name, some (chars.drop 2))
      else if chars.isPrefixOf name.toList then some (spec, name, none)
      else none

/-- The option whose name stands before an equals sign. -/
def Grammar.assigned? (grammar : Grammar κ) (chars : List Char) :
    Option (OptionSpec κ × String × List Char) :=
  match chars.dropWhile (· ≠ '=') with
  | [] => none
  | _ :: value =>
    let name := String.ofList (chars.takeWhile (· ≠ '='))
    (grammar.find? name).map (·, name, value)

/-- What an argument in front of the divider is. -/
def Grammar.classify (grammar : Grammar κ) (argument : String) : Except Problem (Piece κ) :=
  let chars := argument.toList
  if chars.head? ≠ some '-' then .ok .plain
  else
    match grammar.find? argument with
    | some spec => .ok (.option spec argument none)
    | none =>
      if chars.length = 1 then .ok .plain
      else
        match grammar.assigned? chars with
        | some (spec, name, value) => .ok (.option spec name (some value))
        | none =>
          match grammar.candidates chars with
          | [(spec, name, attached)] => .ok (.option spec name attached)
          | [] =>
            if looksNegative chars || chars.contains ' ' then .ok .plain else .ok .unknown
          | many => .error (.ambiguous argument (many.map (·.2.1)))

/-- What each argument is. -/
def Grammar.classifyAll (grammar : Grammar κ) : List String →
    Except Problem (List (String × Piece κ))
  | [] => .ok []
  | argument :: arguments =>
    if argument = "--" then .ok ((argument, .divider) :: arguments.map (·, .plain))
    else do
      let piece ← grammar.classify argument
      let pieces ← grammar.classifyAll arguments
      return (argument, piece) :: pieces

/-! ### Consumption -/

/-- Something found in an argument list: an option under one of its names with its value, if it has
one, or the positional argument. -/
inductive Occurrence (κ : Type) where
  | option (spec : OptionSpec κ) (name : String) (value : Option String)
  | positional (values : List String)
  deriving Repr

/-- What an argument list was taken apart into. -/
structure Parse (κ : Type) where
  occurrences : List (Occurrence κ)
  extras : List String
  problem : Option Problem
  deriving Repr

/-- More at the front of a result. -/
def Parse.cons (occurrences : List (Occurrence κ)) (extras : List String) (parse : Parse κ) :
    Parse κ :=
  ⟨occurrences ++ parse.occurrences, extras ++ parse.extras, parse.problem⟩

/-- The result of an argument list that ends here. -/
def Parse.finished : Parse κ := ⟨[], [], none⟩

/-- The result of an argument list that cannot be consumed further. -/
def Parse.stopped (problem : Problem) : Parse κ := ⟨[], [], some problem⟩

/-- What one argument with options comes to: options that are complete, options of which the last
still needs a value, or a problem. -/
inductive Cluster (κ : Type) where
  | complete (occurrences : List (Occurrence κ))
  | needsValue (occurrences : List (Occurrence κ)) (spec : OptionSpec κ) (name : String)
  | problem (problem : Problem)
  deriving Repr

/-- Whether a name is a letter behind a single dash. -/
def isShort (name : String) : Bool :=
  name.toList[1]? ≠ some '-'

/-- The value in an attached text. The divider counts as no value. -/
def attachedValue (text : List Char) : Option String :=
  if text = ['-', '-'] then none else some (String.ofList text)

/-- An option without attached text, behind the options found so far. -/
def cluster (found : List (Occurrence κ)) (spec : OptionSpec κ) (name : String) : Cluster κ :=
  if spec.takesValue then .needsValue found spec name
  else .complete (found ++ [.option spec name none])

/-- An option with attached text, behind the options found so far. The text is the option's value
if it takes one. Behind a letter that takes none it goes on with the next letter, which must be an
option as well. -/
def Grammar.clusterWith (grammar : Grammar κ) (found : List (Occurrence κ))
    (spec : OptionSpec κ) (name : String) : List Char → Cluster κ
  | [] =>
    if spec.takesValue then .complete (found ++ [.option spec name (attachedValue [])])
    else .problem (.valueIgnored spec.title "")
  | letter :: tail =>
    if spec.takesValue then
      .complete (found ++ [.option spec name (attachedValue (letter :: tail))])
    else
      let next := String.ofList ['-', letter]
      match if isShort name then grammar.find? next else none with
      | none => .problem (.valueIgnored spec.title (String.ofList (letter :: tail)))
      | some nextSpec =>
        let found := found ++ [.option spec name none]
        if tail.isEmpty then cluster found nextSpec next
        else grammar.clusterWith found nextSpec next tail

/-- Takes one argument with options apart. -/
def Grammar.takeApart (grammar : Grammar κ) (spec : OptionSpec κ) (name : String) :
    Option (List Char) → Cluster κ
  | none => cluster [] spec name
  | some text => grammar.clusterWith [] spec name text

/-- Consumes pieces from the left. `pending` tells that the positional argument is yet to come. -/
def Grammar.consume (grammar : Grammar κ) (pending : Bool) (pieces : List (String × Piece κ)) :
    Parse κ :=
  match pieces with
  | [] => .finished
  | (argument, .unknown) :: rest => (grammar.consume pending rest).cons [] [argument]
  | (_, .option spec name attached) :: rest =>
    match grammar.takeApart spec name attached with
    | .problem problem => .stopped problem
    | .complete found => (grammar.consume pending rest).cons found []
    | .needsValue found spec name =>
      match rest with
      | (value, .plain) :: rest =>
        (grammar.consume pending rest).cons (found ++ [.option spec name (some value)]) []
      | _ => .stopped (.valueExpected spec.title)
  | (argument, .plain) :: rest =>
    if pending then
      match grammar.positional with
      | .command => .cons [.positional (argument :: rest.map Prod.fst)] [] .finished
      | .single =>
        match rest with
        | (_, .divider) :: rest =>
          (grammar.consume false rest).cons [.positional [argument]] []
        | rest => (grammar.consume false rest).cons [.positional [argument]] []
    else (grammar.consume pending rest).cons [] [argument]
  | (argument, .divider) :: rest =>
    match pending, grammar.positional, rest with
    | true, .command, _ :: _ => .cons [.positional (argument :: rest.map Prod.fst)] [] .finished
    | true, .single, (value, _) :: rest =>
      (grammar.consume false rest).cons [.positional [value]] []
    | pending, _, rest => (grammar.consume pending rest).cons [] [argument]
termination_by pieces.length
decreasing_by all_goals simp only [wfParam, List.length_cons]; omega

/-- Takes an argument list apart. -/
def Grammar.parse (grammar : Grammar κ) (arguments : List String) : Except Problem (Parse κ) := do
  return grammar.consume true (← grammar.classifyAll arguments)

end ClassInspect.Arguments
