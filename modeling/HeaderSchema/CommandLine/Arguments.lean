import HeaderSchema.CommandLine.Help
import HeaderSchema.Render.Format
import HeaderSchema.Text.Control

/-!
# Arguments

Reads the words after the program's name. A word is an option, a flag or a plain
word; after a double dash every word is plain. Options have long names only and
take their value from behind an equals sign or from the next word, which must
not look like an option.

A value from the next word is judged late: an option waits, with the value that
it has, until another option is read or the words end. So a word that is not
understood at all is reported before an earlier option with a bad value.
-/

namespace HeaderSchema

structure ExtractArguments where
  input : String
  format : Format
  output : Option String
  withReport : Bool
  skipImplicit : Bool
  name : Option String
deriving Repr, DecidableEq

/-- What the program is asked to do. -/
inductive Command where
  | extract (arguments : ExtractArguments)
  | validate (inputs : List String)
deriving Repr, DecidableEq

/-- Why the words are refused. -/
inductive UsageError where
  | noCommand
  | requiredMissing
  | unknownCommand (word : String)
  | unexpectedArgument (word : String)
  | unexpectedValue (value argument : String)
  | valueMissing (argument : String)
  | badValue (value argument : String)
  | repeated (argument : String)
deriving Repr, DecidableEq

/-- What is shown for a refusal. A refused word shows without its control sequences. -/
def UsageError.message : UsageError → String
  | .noCommand => HelpTopic.program.page
  | .requiredMissing => "error: the following required arguments were not provided:\n"
  | .unknownCommand word => s!"error: unrecognized subcommand '{Control.plain word}'\n"
  | .unexpectedArgument word => s!"error: unexpected argument '{Control.plain word}' found\n"
  | .unexpectedValue value argument =>
    s!"error: unexpected value '{Control.plain value}' for '{argument}' found; " ++
      "no more were expected\n"
  | .valueMissing argument =>
    s!"error: a value is required for '{argument}' but none was supplied\n"
  | .badValue value argument =>
    s!"error: invalid value '{Control.plain value}' for '{argument}'\n"
  | .repeated argument =>
    s!"error: the argument '{argument}' cannot be used multiple times\n"

/-- Why no command is run: help was asked for, or the words are refused. -/
inductive Refusal where
  | help (topic : HelpTopic)
  | usage (error : UsageError)
deriving Repr, DecidableEq

/-! ## Words -/

/-- What a word looks like. -/
inductive Word where
  /-- Two dashes. -/
  | escape
  /-- Two dashes and a name, with the value behind an equals sign if there is one. -/
  | long (name : String) (value : Option String)
  /-- A dash and a letter, whatever follows it. -/
  | short (letter : Char)
  /-- Anything else, a single dash included. -/
  | plain
deriving Repr, DecidableEq

/-- Splits a name from a value at the first equals sign. -/
def splitValue (cs : List Char) : String × Option String :=
  match cs.span (· != '=') with
  | (name, []) => (String.ofList name, none)
  | (name, _ :: value) => (String.ofList name, some (String.ofList value))

def Word.of (word : String) : Word :=
  match word.toList with
  | ['-', '-'] => .escape
  | '-' :: '-' :: cs =>
    let (name, value) := splitValue cs
    .long name value
  | '-' :: c :: _ => .short c
  | _ => .plain

/-- The refusal of an option that is not known. -/
def unknownLong {α : Type} (name : String) : Except Refusal α :=
  .error (.usage (.unexpectedArgument ("--" ++ name)))

/-- The refusal of a letter that is not known. -/
def unknownShort {α : Type} (letter : Char) : Except Refusal α :=
  .error (.usage (.unexpectedArgument (String.ofList ['-', letter])))

/-- The refusal of a plain word that has no place. -/
def unknownPlain {α : Type} (word : String) : Except Refusal α :=
  .error (.usage (.unexpectedArgument word))

/-- The refusal of a value for something that takes none. -/
def surplusValue {α : Type} (value argument : String) : Except Refusal α :=
  .error (.usage (.unexpectedValue value argument))

/-! ## The arguments of `extract` -/

/-- The options with a value. -/
inductive ValueOption where
  | input
  | format
  | output
  | name
deriving Repr, DecidableEq

/-- How refusals name an option. -/
def ValueOption.label : ValueOption → String
  | .input => "--input <INPUT>"
  | .format => "--format <FORMAT>"
  | .output => "--output <OUTPUT>"
  | .name => "--name <NAME>"

def ValueOption.ofName? (name : String) : Option ValueOption :=
  [("input", ValueOption.input), ("format", .format), ("output", .output),
    ("name", .name)].lookup name

/-- What was read of the arguments so far. -/
structure Draft where
  input : Option String
  format : Option Format
  output : Option String
  withReport : Bool
  skipImplicit : Bool
  name : Option String

namespace Draft

def empty : Draft := ⟨none, none, none, false, false, none⟩

def has (d : Draft) : ValueOption → Bool
  | .input => d.input.isSome
  | .format => d.format.isSome
  | .output => d.output.isSome
  | .name => d.name.isSome

/-- Sets an option that was not read before. Only a name may be empty. -/
def set (d : Draft) (option : ValueOption) (value : String) : Except UsageError Draft :=
  if option ≠ .name ∧ value = "" then .error (.valueMissing option.label)
  else
    match option with
    | .input => .ok { d with input := some value }
    | .output => .ok { d with output := some value }
    | .name => .ok { d with name := some value }
    | .format =>
      match Format.ofName? value with
      | some format => .ok { d with format := some format }
      | none => .error (.badValue value option.label)

/-- Reads an option with the value that it has, if it has one. -/
def read (d : Draft) (option : ValueOption) (value : Option String) : Except UsageError Draft :=
  match value with
  | none => .error (.valueMissing option.label)
  | some value => if d.has option then .error (.repeated option.label) else d.set option value

/-- The arguments, once all words are read. -/
def finish (d : Draft) : Except UsageError ExtractArguments :=
  match d.input with
  | none => .error .requiredMissing
  | some input =>
    .ok ⟨input, d.format.getD .text, d.output, d.withReport, d.skipImplicit, d.name⟩

end Draft

/-- An option that waits, with its value if the next word was one. -/
abbrev Waiting := Option (ValueOption × Option String)

/-- The draft once the option that waits is read. -/
def Draft.settle (d : Draft) (waiting : Waiting) : Except Refusal Draft :=
  match waiting with
  | none => .ok d
  | some (option, value) =>
    match d.read option value with
    | .ok d => .ok d
    | .error e => .error (.usage e)

def Draft.raise (d : Draft) (name : String) : Except Refusal Draft :=
  if name = "with-report" then
    if d.withReport then .error (.usage (.repeated "--with-report"))
    else .ok { d with withReport := true }
  else
    if d.skipImplicit then .error (.usage (.repeated "--skip-implicit"))
    else .ok { d with skipImplicit := true }

/-- The arguments at the end of the words. -/
def endExtract (d : Draft) (waiting : Waiting) : Except Refusal ExtractArguments :=
  match d.settle waiting with
  | .error r => .error r
  | .ok d =>
    match d.finish with
    | .ok arguments => .ok arguments
    | .error e => .error (.usage e)

/-- Reads the words after `extract`. -/
def readExtract (d : Draft) (waiting : Waiting) : List String → Except Refusal ExtractArguments
  | [] => endExtract d waiting
  | word :: words =>
    match Word.of word with
    | .escape =>
      match words with
      | [] => endExtract d waiting
      | next :: _ => unknownPlain next
    | .short letter =>
      if letter = 'h' then
        match d.settle waiting with
        | .error r => .error r
        | .ok _ => .error (.help .extract)
      else
        unknownShort letter
    | .long name value =>
      match ValueOption.ofName? name, value with
      | some option, none =>
        match d.settle waiting with
        | .error r => .error r
        | .ok d => readExtract d (some (option, none)) words
      | some option, some value =>
        match d.settle waiting with
        | .error r => .error r
        | .ok d =>
          match d.read option (some value) with
          | .error e => .error (.usage e)
          | .ok d => readExtract d none words
      | none, value =>
        if name = "help" ∨ name = "with-report" ∨ name = "skip-implicit" then
          match value with
          | some value => surplusValue value ("--" ++ name)
          | none =>
            match d.settle waiting with
            | .error r => .error r
            | .ok d =>
              if name = "help" then .error (.help .extract)
              else
                match d.raise name with
                | .error r => .error r
                | .ok d => readExtract d none words
        else
          unknownLong name
    | .plain =>
      match waiting with
      | some (option, none) => readExtract d (some (option, some word)) words
      | _ => unknownPlain word

/-! ## The arguments of `validate` -/

/-- The inputs that were read, unless one of them is empty. -/
def settleInputs (inputs : List String) : Except Refusal Unit :=
  if inputs.contains "" then .error (.usage (.valueMissing "<INPUTS>...")) else .ok ()

/-- The inputs once all words are read, of which there has to be one. -/
def finishInputs (inputs : List String) : Except Refusal (List String) :=
  match settleInputs inputs with
  | .error r => .error r
  | .ok () => if inputs.isEmpty then .error (.usage .requiredMissing) else .ok inputs

/-- Reads the words after `validate`, given the inputs before them. -/
def readValidate (inputs : List String) : List String → Except Refusal (List String)
  | [] => finishInputs inputs
  | word :: words =>
    match Word.of word with
    | .escape => finishInputs (inputs ++ words)
    | .short letter =>
      if letter = 'h' then
        match settleInputs inputs with
        | .error r => .error r
        | .ok () => .error (.help .validate)
      else
        unknownShort letter
    | .long name value =>
      if name = "help" then
        match value with
        | some value => surplusValue value "--help"
        | none =>
          match settleInputs inputs with
          | .error r => .error r
          | .ok () => .error (.help .validate)
      else
        unknownLong name
    | .plain => readValidate (inputs ++ [word]) words

/-! ## Commands -/

/-- The topics that have a page, by the name of their command. -/
def HelpTopic.ofName? (name : String) : Option HelpTopic :=
  [("extract", HelpTopic.extract), ("validate", .validate), ("help", .help)].lookup name

/-- What the words after `help` ask for; commands have no commands of their own. -/
def readHelp : List String → Refusal
  | [] => .help .program
  | name :: more =>
    match HelpTopic.ofName? name, more with
    | none, _ => .usage (.unknownCommand name)
    | some topic, [] => .help topic
    | some _, word :: _ => .usage (.unknownCommand word)

/-- Reads the words after the program's name. -/
def Command.ofWords (words : List String) : Except Refusal Command :=
  match words with
  | [] => .error (.usage .noCommand)
  | word :: rest =>
    if word = "extract" then
      match readExtract .empty none rest with
      | .ok arguments => .ok (.extract arguments)
      | .error r => .error r
    else if word = "validate" then
      match readValidate [] rest with
      | .ok inputs => .ok (.validate inputs)
      | .error r => .error r
    else if word = "help" then .error (readHelp rest)
    else
      match Word.of word with
      | .escape =>
        match rest with
        | [] => .error (.usage .noCommand)
        | next :: _ =>
          if (HelpTopic.ofName? next).isSome then unknownPlain next
          else .error (.usage (.unknownCommand next))
      | .short letter =>
        if letter = 'h' then .error (.help .program) else unknownShort letter
      | .long name value =>
        if name = "help" then
          match value with
          | some value => surplusValue value "--help"
          | none => .error (.help .program)
        else
          unknownLong name
      | .plain => .error (.usage (.unknownCommand word))

end HeaderSchema
