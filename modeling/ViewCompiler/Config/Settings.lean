import ViewCompiler.Compilation
import ViewCompiler.Toml.Reader

/-!
# Settings

What a configuration file can say, section by section. Every field and every section may
be left out. A field that nothing reads is no fault; it is reported by its path. A
section may also be written as an array of its values in order.
-/

namespace ViewCompiler

open Text

/-- How changes of files are found. -/
inductive Detection
  /-- By looking at the files. -/
  | poll
  /-- By being told. -/
  | notify
deriving DecidableEq, Repr

/-- Where templates are. -/
structure ProjectSettings where
  /-- The root of the templates, seen from the directory of the configuration file. -/
  root : Text := "."
  /-- The extensions of templates, without the dot. -/
  extensions : List Text := ["cshtml"]
deriving DecidableEq, Repr

/-- What templates are compiled with. -/
structure CompileSettings where
  viewImports : Text := "_ViewImports.cshtml"
  pageImports : Text := "_PageImports.cshtml"
  references : List Text := []
  /-- The lines of the default imports; none means the built-in ones. -/
  defaultImports : List Text := []
deriving DecidableEq, Repr

/-- How templates are watched. -/
structure WatchSettings where
  detection : Detection := .poll
  /-- How many milliseconds nothing may change before a batch is looked at. -/
  window : Nat := 300
deriving DecidableEq, Repr

/-- What a configuration file says. -/
structure Settings where
  project : ProjectSettings := {}
  compile : CompileSettings := {}
  watch : WatchSettings := {}
deriving DecidableEq, Repr

namespace Settings

/-- A text. -/
def text? : Toml → Option Text
  | .quoted value => some value
  | _ => none

/-- A list of texts. -/
def texts? : Toml → Option (List Text)
  | .array elements => elements.mapM text?
  | .tables [] => some []
  | _ => none

/-- A number that is not negative. -/
def count? : Toml → Option Nat
  | .integer value => if 0 ≤ value then some value.toNat else none
  | _ => none

/-- Whether a value holds nothing, as the value of a name without arguments does. -/
def isEmpty : Toml → Bool
  | .array elements => elements.isEmpty
  | .table _ entries => entries.isEmpty
  | .tables elements => elements.isEmpty
  | _ => false

/-- The way of finding changes that has a name. -/
def detectionNamed? (name : Text) : Option Detection :=
  if name = ("poll" : Text) then some .poll
  else if name = ("notify" : Text) then some .notify
  else none

/-- A way of finding changes: its name, or a table in which only its name stands. -/
def detection? : Toml → Option Detection
  | .quoted name => detectionNamed? name
  | .table _ [(name, value)] => if isEmpty value then detectionNamed? name else none
  | _ => none

/-- A field of a section, and how a value is taken over into it. -/
structure Field (σ : Type) where
  name : Text
  take : Toml → σ → Option σ

/-- A section after some entries, and the paths of those that nothing reads. -/
def ofEntries {σ : Type} (fields : List (Field σ)) (path : Text) (section_ : σ) :
    Toml.Entries → Option (σ × List Text)
  | [] => some (section_, [])
  | (key, value) :: entries =>
    match fields.find? fun field => field.name = key with
    | none =>
      (ofEntries fields path section_ entries).map fun (section_, unknown) =>
        (section_, (path ++ key) :: unknown)
    | some field => (field.take value section_).bind fun section_ => ofEntries fields path section_ entries

/-- A section after values for its fields in order. -/
def ofValues {σ : Type} (section_ : σ) : List (Field σ) → List Toml → Option σ
  | field :: fields, value :: values =>
    (field.take value section_).bind fun section_ => ofValues section_ fields values
  | _, _ => some section_

/-- Reads a section. A date is read as a table with one field of a reserved name. -/
def readSection {σ : Type} (fields : List (Field σ)) (name : Text) (section_ : σ) :
    Toml → Option (σ × List Text)
  | .table _ entries => ofEntries fields (name ++ ".") section_ entries
  | .array elements => (ofValues section_ fields elements).map (·, [])
  | .tables elements => (ofValues section_ fields (elements.map (.table .declared))).map (·, [])
  | .moment => some (section_, [name ++ ".$__toml_private_datetime"])
  | _ => none

/-- The fields of the project section. -/
def projectFields : List (Field ProjectSettings) := [
  ⟨"root", fun value section_ => (text? value).map fun root => { section_ with root }⟩,
  ⟨"extensions", fun value section_ => (texts? value).map fun extensions => { section_ with extensions }⟩]

/-- The fields of the compile section. -/
def compileFields : List (Field CompileSettings) := [
  ⟨"view_imports", fun value section_ => (text? value).map fun viewImports => { section_ with viewImports }⟩,
  ⟨"page_imports", fun value section_ => (text? value).map fun pageImports => { section_ with pageImports }⟩,
  ⟨"references", fun value section_ => (texts? value).map fun references => { section_ with references }⟩,
  ⟨"default_imports", fun value section_ =>
    (texts? value).map fun defaultImports => { section_ with defaultImports }⟩]

/-- The fields of the watch section. -/
def watchFields : List (Field WatchSettings) := [
  ⟨"detection", fun value section_ => (detection? value).map fun detection => { section_ with detection }⟩,
  ⟨"debounce_ms", fun value section_ => (count? value).map fun window => { section_ with window }⟩]

/-- Reads the sections in the order in which they stand, with the paths of the fields
that nothing reads. -/
def ofSections (settings : Settings) : Toml.Entries → Option (Settings × List Text)
  | [] => some (settings, [])
  | (name, value) :: rest => do
    let (settings, unknown) ←
      if name = ("project" : Text) then
        (readSection projectFields name {} value).map fun (project, unknown) => ({ settings with project }, unknown)
      else if name = ("compile" : Text) then
        (readSection compileFields name {} value).map fun (compile, unknown) => ({ settings with compile }, unknown)
      else if name = ("watch" : Text) then
        (readSection watchFields name {} value).map fun (watch, unknown) => ({ settings with watch }, unknown)
      else some (settings, [name])
    let (settings, more) ← ofSections settings rest
    return (settings, unknown ++ more)

/-- What a document says, with the paths of the fields that nothing reads. -/
def parse? (document : Text) : Option (Settings × List Text) :=
  (Toml.parse? document).bind (ofSections {})

/-- What templates are compiled with. -/
def options (settings : Settings) : Options :=
  let base : Options :=
    { viewImports := settings.compile.viewImports
      pageImports := settings.compile.pageImports
      references := settings.compile.references }
  if settings.compile.defaultImports.isEmpty then base
  else { base with defaults := settings.compile.defaultImports }

end Settings

/-- What can be wrong with settings that were read. -/
inductive SettingsFault
  | noExtensions
  /-- An extension is empty or begins with a dot. -/
  | notBare (extension : Text)
  /-- A field that names a file holds a path or nothing. -/
  | notFileName (field name : Text)
  | noWindow
deriving DecidableEq, Repr

namespace SettingsFault

/-- The wording of a fault. -/
def message : SettingsFault → Text
  | .noExtensions => "project.extensions must not be empty"
  | .notBare extension => "project.extensions: `" ++ extension ++ "` must be a bare extension"
  | .notFileName field name => field ++ ": `" ++ name ++ "` must be a file name"
  | .noWindow => "watch.debounce_ms must be positive"

end SettingsFault

namespace Settings

/-- Whether a text names a file in a directory, slashes of both kinds being refused. -/
def isFileName (name : Text) : Bool := !name.isEmpty && !name.any Logical.isSeparator

/-- The fault of a field that names a file, if it has one. -/
def fileNameFaults (field name : Text) : List SettingsFault :=
  if isFileName name then [] else [.notFileName field name]

/-- Everything that is wrong with settings. -/
def faults (settings : Settings) : List SettingsFault :=
  (if settings.project.extensions.isEmpty then [.noExtensions] else []) ++
  (settings.project.extensions.filter fun extension =>
      extension.isEmpty || beginsWith ['.'] extension).map .notBare ++
  fileNameFaults "compile.view_imports" settings.compile.viewImports ++
  fileNameFaults "compile.page_imports" settings.compile.pageImports ++
  (if settings.watch.window = 0 then [.noWindow] else [])

end Settings

end ViewCompiler
