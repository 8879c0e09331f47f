import ViewCompiler.Config.Settings
import ViewCompiler.Disk
import ViewCompiler.Notice

/-!
# Configurations

A configuration is what a file says, together with the file, the directory it is in, and
a root that was given when the program was started and goes before what the file says.
The file is looked for in the working directory and every directory above it. Without a
file everything is as by default.
-/

namespace ViewCompiler

open Text

/-- What a program is started in. -/
structure Environment where
  /-- The absolute path of the working directory. -/
  cwd : Text
  /-- The home directory. -/
  home : Text
deriving DecidableEq, Repr

/-- Settings in force. -/
structure Config where
  settings : Settings := {}
  /-- The configuration file, whether it exists or not. -/
  file : Text
  /-- The directory of the configuration file. -/
  directory : Text
  /-- The root of the templates if it was given from outside. -/
  givenRoot : Option Text
deriving DecidableEq, Repr

/-- Why a configuration cannot be put in force. -/
inductive ConfigFault
  /-- The file cannot be read as text. -/
  | unreadable (file : Text)
  /-- The text is no document, or a field has a value of a wrong kind. -/
  | malformed
  /-- The settings are not valid. -/
  | invalid (faults : List SettingsFault)
deriving DecidableEq, Repr

/-- The wording of a fault. -/
def ConfigFault.message : ConfigFault → Text
  | .unreadable file => "IO error when reading `" ++ file ++ "`"
  | .malformed => "Config file parsing error"
  | .invalid faults => "Config validation error: " ++ joined "; " (faults.map SettingsFault.message)

/-- What lies behind a fault, if it is not told by its wording. -/
def ConfigFault.cause? : ConfigFault → Option Text
  | .unreadable _ => some "stream did not contain valid UTF-8"
  | .malformed => some "this is no TOML document with the expected fields"
  | .invalid _ => none

namespace Config

/-- The name under which a file is spoken of. -/
def nameOf (file : Text) : Text := (Physical.fileName? file).getD file

/-- Reads the text of a file, and what there is to tell about it. -/
def read (file content : Text) : Except ConfigFault Settings × List Notice :=
  match Settings.parse? content with
  | none => (.error .malformed, [])
  | some (settings, []) => (.ok settings, [])
  | some (settings, unknown) => (.ok settings, [.unknownFields (nameOf file) unknown])

/-- The configuration with these settings, the file being known by its one spelling. -/
def ofSettings (disk : Disk) (environment : Environment) (file : Text) (givenRoot : Option Text)
    (settings : Settings) : Config :=
  let file := disk.canonical environment.cwd file
  { settings, file, directory := (Physical.parent? file).getD [], givenRoot }

/-- The configuration, if its settings are valid. -/
def validated (config : Config) : Except ConfigFault Config :=
  match config.settings.faults with
  | [] => .ok config
  | faults => .error (.invalid faults)

/-- The directory itself and every one above it, innermost first. -/
def outwards (directory : Text) : List Text :=
  let names := (Physical.rawPieces directory).filter (· ≠ [])
  (List.range (names.length + 1)).map fun up => Disk.pathOf (names.take (names.length - up))

/-- The configuration file: an absolute path itself, any other in the nearest directory
in which it is a regular file. -/
def find? (disk : Disk) (environment : Environment) (file : Text) : Option Text :=
  if Physical.isAbsolute file then
    if disk.isFile environment.cwd file then some file else none
  else ((outwards environment.cwd).map (Physical.join · file)).find? (disk.isFile environment.cwd)

/-- The text of a file, if it is one. -/
def content? (disk : Disk) (environment : Environment) (file : Text) : Option Text :=
  match disk.content? environment.cwd file with
  | none => none
  | some octets =>
    match Utf8.decode octets with
    | .ok content => some content
    | .error _ => none

/-- The configuration that a program is started with, and what there is to tell. -/
def load (disk : Disk) (environment : Environment) (file : Text) (root : Option Text) :
    Except ConfigFault Config × List Notice :=
  let givenRoot := root.map (disk.canonical environment.cwd)
  match find? disk environment file with
  | none =>
    ((ofSettings disk environment (Physical.join environment.cwd file) givenRoot {}).validated,
      [.detail (.unconfigured file)])
  | some found =>
    match content? disk environment found with
    | none => (.error (.unreadable found), [])
    | some content =>
      match read found content with
      | (.error fault, notices) => (.error fault, notices)
      | (.ok settings, notices) => ((ofSettings disk environment found givenRoot settings).validated, notices)

/-- The root of the templates. -/
def templateRoot (disk : Disk) (environment : Environment) (config : Config) : Text :=
  match config.givenRoot with
  | some root => root
  | none =>
    disk.canonical environment.cwd
      (Physical.resolveAgainst environment.home config.settings.project.root config.directory)

/-- Whether a path has the extension of a template. -/
def isTemplate (config : Config) (path : Text) : Bool :=
  match Physical.extension? path with
  | none => false
  | some extension => config.settings.project.extensions.contains extension

end Config

end ViewCompiler
