import ViewCompiler.Cache

/-!
# Pages from the cache

Views are made through factories and use the import files of views; pages are loaded by
the description of their action and use those of pages. Both go through the cache.
Loading a page looks for the template before it asks the cache.
-/

namespace ViewCompiler

/-- An instance of a compiled type, made for a template. -/
structure Page where
  typeName : Text
  /-- The path of the template, empty until it is set. -/
  path : Text := []
deriving DecidableEq, Repr

/-- A new page of a type. -/
def CompiledType.activate (type : CompiledType) : Page := { typeName := type.name }

/-- Makes pages of one type for one template. -/
structure PageFactory where
  type : CompiledType
  path : Text
deriving DecidableEq, Repr

/-- A new page with its path set. -/
def PageFactory.make (factory : PageFactory) : Page := { factory.type.activate with path := factory.path }

/-- What asking for a factory comes to. Everything carries the tokens of the entry it
was taken from, so that it can be kept for as long as the entry is up to date. -/
inductive FactoryResult (Token : Type)
  | found (factory : PageFactory) (tokens : List Token) (precompiled : Bool)
  | failed (tokens : List Token) (failures : List Failure)
  | notFound (tokens : List Token)

namespace FactoryResult

variable {Token : Type}

/-- The tokens of the entry. -/
def tokens : FactoryResult Token → List Token
  | .found _ tokens _ | .failed tokens _ | .notFound tokens => tokens

/-- The factory, if there is one. -/
def factory? : FactoryResult Token → Option PageFactory
  | .found factory _ _ => some factory
  | _ => none

/-- What an entry means for who asked for a factory. -/
def ofEntry (path : Text) (entry : Entry Token) : FactoryResult Token :=
  match entry.outcome with
  | .notFound => .notFound entry.tokens
  | .compiled (.failure failures) => .failed entry.tokens failures
  | .compiled (.success type precompiled) => .found ⟨type, path⟩ entry.tokens precompiled

end FactoryResult

/-- Describes a page that routes lead to. -/
structure PageAction where
  path : Text
  route : Option Text := none
deriving DecidableEq, Repr

/-- The name under which views are looked for: the path without its last extension. -/
def PageAction.viewPath (action : PageAction) : Text := Logical.stem action.path

/-- Why a page cannot be loaded. -/
inductive LoadFault
  | notFound (path : Text)
  | uncompiled (path : Text) (failures : List Failure)
deriving DecidableEq, Repr

/-- How many faults were found. -/
def Failure.total (failures : List Failure) : Nat := 
  failures.foldr (fun failure count => failure.messages.length + count) 0

/-- The wording of a fault. -/
def LoadFault.message : LoadFault → Text
  | .notFound path => "File " ++ path ++ " was not found."
  | .uncompiled path failures =>
    "compilation of " ++ path ++ " failed with " ++ Text.decimal (Failure.total failures) ++ " error(s)"

/-- What an entry means for who loads a page. -/
def LoadFault.ofEntry {Token : Type} (path : Text) (entry : Entry Token) : Except LoadFault CompiledType :=
  match entry.outcome with
  | .compiled (.success type _) => .ok type
  | .compiled (.failure failures) => .error (.uncompiled entry.path failures)
  | .notFound => .error (.notFound path)

namespace Cache

variable {P Token : Type} [Project P Token]

/-- A factory for the view at a path; nothing if another caller has the key. -/
def createFactory (options : Options) (cache : Cache P Token) (path : Text) :
    Option (FactoryResult Token) × Cache P Token :=
  let key := Logical.stripAppRoot path
  match cache.getOrAdd options .views {} key with
  | (.entry entry _, cache) => (some (.ofEntry key entry), cache)
  | (_, cache) => (none, cache)

/-- The type of the page at a path; nothing if another caller has the key. -/
def load (options : Options) (cache : Cache P Token) (path : Text) :
    Option (Except LoadFault CompiledType) × Cache P Token :=
  if (Project.item cache.project path).present then
    match cache.getOrAdd options .pages {} path with
    | (.entry entry _, cache) => (some (LoadFault.ofEntry path entry), cache)
    | (_, cache) => (none, cache)
  else (some (.error (.notFound path)), cache)

end Cache

end ViewCompiler
