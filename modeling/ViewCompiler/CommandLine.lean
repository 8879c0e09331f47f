import ViewCompiler.Table
import ViewCompiler.Text

/-!
# The command line

Options have a long name after two dashes and possibly a one-letter name after one.
One-letter names can be written together; a value stands in the next argument, after `=`,
or directly after a one-letter name. Each option is given at most once, before the
command or after it; the options of all commands may stand in both places, and then the
later one counts. After `--` everything is an operand.

The value of an option is looked at when the next option begins, so of two faults the
one is reported that this order meets first.
-/

namespace ViewCompiler

open Text

/-- When text is coloured. -/
inductive ColorChoice
  | auto
  | always
  | never
deriving DecidableEq, Repr

/-- What the program is asked to do. -/
inductive Command
  /-- Compile templates once and report. -/
  | check (paths : List Text) (pages json : Bool)
  /-- Compile templates again whenever they change. -/
  | watch (pages : Bool)
deriving DecidableEq, Repr

/-- A command line as understood. -/
structure CommandLine where
  color : ColorChoice := .auto
  config : Text := "razor.toml"
  root : Option Text := none
  verbose : Bool := false
  command : Command
deriving DecidableEq, Repr

/-- Why a command line asks for nothing that can be done. -/
inductive UsageFault
  | unknownArgument
  | invalidValue
  | invalidCommand
  | tooManyValues
  | repeated
  | missingCommand
  /-- Nothing is given at all. -/
  | nothingGiven
  /-- Help is asked for. -/
  | help
  /-- The version is asked for. -/
  | version
deriving DecidableEq, Repr

namespace CommandLine

/-- What options are about. -/
inductive Topic
  | color
  | config
  | root
  | verbose
  | help
  | version
  | pages
  | json
deriving DecidableEq, Repr

namespace Topic

/-- The long name of an option. -/
def long : Topic → Text
  | .color => "color"
  | .config => "config"
  | .root => "root"
  | .verbose => "verbose"
  | .help => "help"
  | .version => "version"
  | .pages => "pages"
  | .json => "json"

/-- The one-letter name of an option. -/
def short? : Topic → Option Char
  | .config => some 'C'
  | .root => some 'r'
  | .verbose => some 'v'
  | .help => some 'h'
  | .version => some 'V'
  | .pages => some 'p'
  | .color | .json => none

/-- Whether an option has a value. -/
def takesValue : Topic → Bool
  | .color | .config | .root => true
  | _ => false

end Topic

/-- The names of colour choices. -/
def colorNamed? (name : Text) : Option ColorChoice :=
  if name = ("auto" : Text) then some .auto
  else if name = ("always" : Text) then some .always
  else if name = ("never" : Text) then some .never
  else none

/-- Whether an option can have this value. -/
def isValue (topic : Topic) (value : Text) : Bool :=
  match topic with
  | .color => (colorNamed? value).isSome
  | _ => !value.isEmpty

/-- Words that begin a command. -/
inductive Verb
  | check
  | watch
  | help
deriving DecidableEq, Repr

/-- The command that a word begins. -/
def verb? (word : Text) : Option Verb :=
  if word = ("check" : Text) ∨ word = ['c'] then some .check
  else if word = ("watch" : Text) ∨ word = ['w'] then some .watch
  else if word = ("help" : Text) then some .help
  else none

/-- What may stand in a part of the command line. -/
structure Grammar where
  topics : List Topic
  /-- Whether a command may begin. -/
  commands : Bool := false
  /-- Whether operands may stand. -/
  operands : Bool := false

/-- Before the command. -/
def front : Grammar := { topics := [.color, .config, .root, .verbose, .help, .version], commands := true }

/-- After `check`. -/
def afterCheck : Grammar := { topics := [.color, .verbose, .help, .pages, .json], operands := true }

/-- After `watch`. -/
def afterWatch : Grammar := { topics := [.color, .verbose, .help, .pages] }

/-- What was begun and is not looked at yet. -/
inductive Pending
  | nothing
  /-- An option with its value, which may still be to come. -/
  | option (topic : Topic) (value : Option Text)
  | operands (values : List Text)
deriving DecidableEq, Repr

/-- What a part of the command line gave. -/
structure Given where
  /-- The options, with the values of those that have one. -/
  options : Table Topic Text := []
  operands : List Text := []
  pending : Pending := .nothing
deriving DecidableEq, Repr

namespace Given

/-- Whether an option is given. -/
def has (given : Given) (topic : Topic) : Bool := (given.options.find? topic).isSome

/-- Whether the value of an option is still to come. -/
def isAwaiting (given : Given) : Bool :=
  match given.pending with
  | .option _ none => true
  | _ => false

/-- Enters an option with its value. -/
def enter (given : Given) (topic : Topic) (value : Text) : Except UsageFault Given :=
  if given.has topic then .error .repeated
  else if topic.takesValue && !isValue topic value then .error .invalidValue
  else .ok { given with options := given.options.put topic value }

/-- Looks at what was begun. -/
def settle (given : Given) : Except UsageFault Given :=
  let settled : Given := { given with pending := .nothing }
  match given.pending with
  | .nothing => .ok given
  | .option _ none => .error .invalidValue
  | .option topic (some value) => settled.enter topic value
  | .operands values =>
    if values.any List.isEmpty then .error .invalidValue
    else .ok { settled with operands := given.operands ++ values }

/-- Enters an option without value. -/
def flag (given : Given) (topic : Topic) : Except UsageFault Given := do
  let given ← given.settle
  match topic with
  | .help => .error .help
  | .version => .error .version
  | topic => given.enter topic []

/-- Begins an option that has a value, possibly attached. -/
def valued (given : Given) (topic : Topic) (attached : Option Text) : Except UsageFault Given := do
  let given ← given.settle
  match attached with
  | some value => given.enter topic value
  | none => .ok { given with pending := .option topic none }

/-- One more operand. -/
def operand (given : Given) (value : Text) : Except UsageFault Given :=
  match given.pending with
  | .operands values => .ok { given with pending := .operands (values ++ [value]) }
  | _ => given.settle.map fun given => { given with pending := .operands [value] }

/-- An argument with two dashes in front: the name, and the value after `=`. -/
def long (grammar : Grammar) (given : Given) (body : Text) : Except UsageFault Given :=
  let name := body.takeWhile (· ≠ '=')
  let attached := (body.dropWhile (· ≠ '=')).tail?
  match grammar.topics.find? fun topic => topic.long = name with
  | none => .error .unknownArgument
  | some topic =>
    if topic.takesValue then given.valued topic attached
    else if attached.isSome then .error .tooManyValues
    else given.flag topic

/-- One-letter names written together. -/
def short (grammar : Grammar) (given : Given) : Text → Except UsageFault Given
  | [] => .ok given
  | letter :: rest =>
    match grammar.topics.find? fun topic => topic.short? = some letter with
    | none => .error .unknownArgument
    | some topic =>
      if topic.takesValue then
        given.valued topic (match rest with
          | [] => none
          | '=' :: value => some value
          | value => some value)
      else (given.flag topic).bind fun given => given.short grammar rest

/-- Why an operand cannot stand where it stands. -/
def strayFault (grammar : Grammar) (onlyOperands : Bool) (word : Text) : UsageFault :=
  if grammar.commands && !(onlyOperands && (verb? word).isSome) then .invalidCommand
  else .unknownArgument

end Given

/-- Reads a part of the command line up to a command, if one begins, and tells what
follows it. -/
def readPart (grammar : Grammar) (given : Given) (onlyOperands : Bool) :
    List Text → Except UsageFault (Given × Option (Verb × List Text))
  | [] => .ok (given, none)
  | argument :: rest =>
    let operand : Except UsageFault (Given × Option (Verb × List Text)) :=
      if grammar.operands then
        (given.operand argument).bind fun given => readPart grammar given onlyOperands rest
      else .error (Given.strayFault grammar onlyOperands argument)
    if onlyOperands then operand
    else
      match if grammar.commands && !given.isAwaiting then verb? argument else none with
      | some verb => .ok (given, some (verb, rest))
      | none =>
        match argument with
        | ['-', '-'] => readPart grammar given true rest
        | '-' :: '-' :: body => (given.long grammar body).bind fun given => readPart grammar given false rest
        | '-' :: first :: more =>
          (given.short grammar (first :: more)).bind fun given => readPart grammar given false rest
        | value =>
          match given.pending with
          | .option topic none =>
            readPart grammar { given with pending := .option topic (some value) } false rest
          | _ => operand

/-- Reads what follows a command, to the end. -/
def readRest (grammar : Grammar) (arguments : List Text) : Except UsageFault Given :=
  (readPart grammar {} false arguments).bind fun (given, _) => given.settle

/-- The answer to a request for help on some words. -/
def helpOn : List Text → UsageFault
  | [] => .help
  | [word] => if (verb? word).isSome then .help else .invalidCommand
  | _ => .invalidCommand

/-- What both parts of a command line say together. -/
def combine (before after : Given) (command : Command) : CommandLine :=
  let color := ((after.options.find? .color).or (before.options.find? .color)).bind colorNamed?
  { color := color.getD .auto
    config := (before.options.find? .config).getD "razor.toml"
    root := before.options.find? .root
    verbose := before.has .verbose || after.has .verbose
    command }

/-- Understands a command line, the name of the program left out. -/
def read (arguments : List Text) : Except UsageFault CommandLine := do
  let (before, found) ← readPart front {} false arguments
  match found with
  | none =>
    let before ← before.settle
    .error (if before.options.isEmpty then .nothingGiven else .missingCommand)
  | some (.help, rest) => .error (helpOn rest)
  | some (.check, rest) =>
    let after ← readRest afterCheck rest
    let before ← before.settle
    .ok (combine before after (.check after.operands (after.has .pages) (after.has .json)))
  | some (.watch, rest) =>
    let after ← readRest afterWatch rest
    let before ← before.settle
    .ok (combine before after (.watch (after.has .pages)))

end CommandLine

end ViewCompiler
