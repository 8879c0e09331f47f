import ViewCompiler.Config

/-!
# Configurations that change while the program runs

A session has a configuration in force and remembers the text that it was last loaded
from. Reloading replaces both together or neither: a file that is missing, unchanged,
unreadable or faulty leaves everything as it was.
-/

namespace ViewCompiler

/-- A configuration in force. -/
structure Session where
  config : Config
  /-- The text that was loaded last, if there was a file. -/
  loaded : Option Text := none
deriving DecidableEq, Repr

/-- Why a configuration cannot be reloaded. -/
inductive ReloadFault
  /-- The file is not text. -/
  | notText
  | config (fault : ConfigFault)
deriving DecidableEq, Repr

/-- The wording of a fault, with what lies behind it, on one line. -/
def ReloadFault.message : ReloadFault → Text
  | .notText => "stream did not contain valid UTF-8"
  | .config fault =>
    fault.message ++ match fault.cause? with
      | some cause => ": " ++ cause
      | none => []

namespace Session

/-- Puts a configuration in force. -/
def start (disk : Disk) (environment : Environment) (config : Config) : Session :=
  { config, loaded := Config.content? disk environment config.file }

/-- The configuration that a text makes in the place of this one, and what there is to
tell. -/
def renewed (disk : Disk) (environment : Environment) (config : Config) (content : Text) :
    Except ConfigFault Config × List Notice :=
  match Config.read config.file content with
  | (.error fault, notices) => (.error fault, notices)
  | (.ok settings, notices) =>
    ((Config.ofSettings disk environment config.file config.givenRoot settings).validated, notices)

/-- Reloads the file if its text is another one. The answer is whether the configuration
was replaced. -/
def reload (disk : Disk) (environment : Environment) (session : Session) :
    Except ReloadFault Bool × Session × List Notice :=
  if disk.isFile environment.cwd session.config.file then
    match Config.content? disk environment session.config.file with
    | none => (.error .notText, session, [])
    | some content =>
      if session.loaded = some content then (.ok false, session, [])
      else match renewed disk environment session.config content with
        | (.error fault, notices) => (.error (.config fault), session, notices)
        | (.ok config, notices) => (.ok true, { config, loaded := some content }, notices)
  else (.ok false, session, [])

end Session

end ViewCompiler
