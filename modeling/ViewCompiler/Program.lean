import ViewCompiler.CommandLine
import ViewCompiler.WatchRun

/-!
# The program

A command line is understood, a configuration loaded, and then templates are checked once
or watched. What can go wrong before that ends the program.
-/

namespace ViewCompiler

open Text

/-- The wording of a fault of the command line. -/
def UsageFault.message : UsageFault → Text
  | .unknownArgument => "an argument is not known here"
  | .invalidValue => "the value of an argument is missing or not valid"
  | .invalidCommand => "there is no such command"
  | .tooManyValues => "an option that takes no value is given one"
  | .repeated => "an option is given twice"
  | .missingCommand | .nothingGiven => "a command is needed: check or watch"
  | .help => "usage: [-C FILE] [-r ROOT] [-v] (check [-p] [--json] [PATH...] | watch [-p])"
  | .version => "0.1.0"

namespace Program

/-- The end of a program whose command line asks for nothing that can be done. Help is a
result, everything else a complaint. -/
def refuse (fault : UsageFault) : RunResult :=
  match fault with
  | .help | .version => ⟨[.out (fault.message ++ ['\n'])], 0⟩
  | fault => ⟨[.err ("error: " ++ fault.message ++ "\n")], 2⟩

/-- The end of a program whose configuration cannot be loaded. -/
def abort (verbose : Bool) (notices : List Notice) (fault : ConfigFault) : RunResult :=
  ⟨[.out (Notice.printed verbose notices), Output.complaint fault.message fault.cause?], 1⟩

/-- The end of a program that has no directory to watch. -/
def unwatchable : RunResult := ⟨[Output.complaint "the directory to watch does not exist" none], 1⟩

/-- What a program does once its configuration is loaded. -/
inductive Prepared
  /-- It is at its end. -/
  | ended (result : RunResult)
  /-- It checks what is named. -/
  | checking (verbose : Bool) (said : Text) (config : Config) (paths : List Text) (pages json : Bool)
  /-- It watches. -/
  | watching (verbose : Bool) (said : Text) (session : Session) (pages : Bool)

/-- Understands the command line and loads the configuration. -/
def prepare (disk : Disk) (environment : Environment) (arguments : List Text) : Prepared :=
  match CommandLine.read arguments with
  | .error fault => .ended (refuse fault)
  | .ok line =>
    match Config.load disk environment line.config line.root with
    | (.error fault, notices) => .ended (abort line.verbose notices fault)
    | (.ok config, notices) =>
      let said := Notice.printed line.verbose notices
      match line.command with
      | .check paths pages json => .checking line.verbose said config paths pages json
      | .watch pages => .watching line.verbose said (Session.start disk environment config) pages

/-- A whole run of the program, if it is not one that watches. -/
def run? (disk : Disk) (environment : Environment) (arguments : List Text) : Option RunResult :=
  match prepare disk environment arguments with
  | .ended result => some result
  | .checking verbose said config paths pages json =>
    let result := CheckRun.run verbose disk environment config paths pages json
    some { result with output := .out said :: result.output }
  | .watching .. => none

/-- The beginning of a run that watches, if the command line asks for one and there is a
directory to watch. -/
def watch? (disk : Disk) (environment : Environment) (clock : Text) (arguments : List Text) :
    Option (Text × WatchRun) :=
  match prepare disk environment arguments with
  | .watching verbose said session pages =>
    (WatchRun.start disk environment verbose pages clock session).map fun (text, run) => (said ++ text, run)
  | _ => none

end Program

end ViewCompiler
