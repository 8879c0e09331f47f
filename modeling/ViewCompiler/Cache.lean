import ViewCompiler.Compilation
import ViewCompiler.Dependents
import ViewCompiler.Table

/-!
# The cache of compiled templates

For every key, the cache holds an entry or the claim of the one caller that is building
an entry. An entry comes with tokens of everything it depends on and is out of date as
soon as one of them reports a change. Tokens are issued before any source is read, so
a change that comes while a template is being compiled leaves the entry out of date and
never unnoticed. An entry that is out of date stays until its key is asked for again.

This module has the moves that callers make on the cache and the whole call of a caller
that is alone. Callers that move in turns are the subject of `ViewCompiler.Cache.Flight`.
-/

namespace ViewCompiler

/-- What is known about a key. -/
inductive Outcome
  | compiled (result : CompilationResult)
  /-- There is no template. -/
  | notFound
deriving DecidableEq, Repr

/-- What a key was found to be. Entries are told apart by the handle they were built
under, so that an entry built anew is another one even if it says the same. -/
structure Entry (Token : Type) where
  id : Nat
  path : Text
  outcome : Outcome
  tokens : List Token
deriving DecidableEq, Repr

namespace Entry

variable {Token : Type}

/-- Whether there is a template. -/
def isFound (entry : Entry Token) : Bool :=
  match entry.outcome with
  | .compiled _ => true
  | .notFound => false

/-- The compiled type, if compiling succeeded. -/
def type? (entry : Entry Token) : Option CompiledType :=
  match entry.outcome with
  | .compiled (.success type _) => some type
  | _ => none

/-- Whether the entry is out of date in a state of the project. -/
def isExpired {P : Type} [Project P Token] (project : P) (entry : Entry Token) : Bool :=
  entry.tokens.any (Project.changed project)

end Entry

/-- What stands under a key. -/
inductive Slot (Token : Type)
  /-- A caller is building the entry; others wait on this handle. -/
  | pending (handle : Nat)
  | cached (entry : Entry Token)
deriving DecidableEq, Repr

/-- How far the build of a handle is. -/
inductive Progress (Token : Type)
  | running
  | done (entry : Entry Token)
  /-- The build broke off; who waits tries again. -/
  | abandoned
deriving DecidableEq, Repr

/-- Counts of what callers met. -/
structure Stats where
  /-- Entries returned as they were. -/
  hits : Nat := 0
  /-- Builds begun, of missing templates too. -/
  compilations : Nat := 0
  /-- Waits for the build of another caller. -/
  coalesced : Nat := 0
deriving DecidableEq, Repr

/-- A cache over a project. -/
structure Cache (P Token : Type) where
  project : P
  slots : Table Text (Slot Token) := []
  dependents : Dependents := {}
  /-- The builds by handle, in the order in which they were claimed. -/
  handles : List (Progress Token) := []
  stats : Stats := {}
  journal : List Event := []

/-- What a claim came to. -/
inductive Claim
  /-- The key is claimed under a new handle. -/
  | build (handle : Nat)
  /-- Another caller has claimed the key. -/
  | wait (handle : Nat)
  /-- The key has another entry than the one found out of date. -/
  | retry
deriving DecidableEq, Repr

namespace Cache

variable {P Token : Type}

/-- The cache with more to note. -/
def note (cache : Cache P Token) (events : List Event) : Cache P Token :=
  { cache with journal := cache.journal ++ events }

/-- What there is to note, and the cache with nothing left to note. -/
def drain (cache : Cache P Token) : List Event × Cache P Token :=
  (cache.journal, { cache with journal := [] })

/-- What stands under a key. -/
def slot? (cache : Cache P Token) (key : Text) : Option (Slot Token) := cache.slots.find? key

/-- How far the build of a handle is. -/
def progress? (cache : Cache P Token) (handle : Nat) : Option (Progress Token) := cache.handles[handle]?

/-- Enters a type that was compiled beforehand. It depends on nothing. -/
def seed (cache : Cache P Token) (view : Text × Text) : Cache P Token :=
  let key := Logical.stripAppRoot view.1
  let entry : Entry Token := ⟨cache.handles.length, key, .compiled (.success (.named view.2) true), []⟩
  { cache with
    slots := cache.slots.put key (.cached entry)
    handles := cache.handles ++ [.done entry] }

/-- A cache with entries for types that were compiled beforehand. -/
def withPrecompiled (project : P) (views : List (Text × Text)) : Cache P Token :=
  let cache := views.foldl seed { project }
  cache.note [.seeded cache.slots.length]

/-- Counts an entry returned as it was. -/
def countHit (cache : Cache P Token) : Cache P Token :=
  { cache with stats := { cache.stats with hits := cache.stats.hits + 1 } }

/-- Counts a build begun. -/
def countCompilation (cache : Cache P Token) : Cache P Token :=
  { cache with stats := { cache.stats with compilations := cache.stats.compilations + 1 } }

/-- Counts a wait. -/
def countCoalesced (cache : Cache P Token) : Cache P Token :=
  { cache with stats := { cache.stats with coalesced := cache.stats.coalesced + 1 } }

/-- Claims a key, in one move. An entry gives way only if it is the one that was found
out of date. -/
def claim (cache : Cache P Token) (key : Text) (stale : Option Nat) : Claim × Cache P Token :=
  let handle := cache.handles.length
  let claimed : Cache P Token :=
    { cache with slots := cache.slots.put key (.pending handle), handles := cache.handles ++ [.running] }
  match cache.slot? key with
  | none => (.build handle, claimed)
  | some (.pending other) => (.wait other, cache)
  | some (.cached entry) => if stale = some entry.id then (.build handle, claimed) else (.retry, cache)

/-- Enters what a key depends on. -/
def record (cache : Cache P Token) (key : Text) (paths : List Text) : Cache P Token :=
  { cache with dependents := cache.dependents.record key paths }

/-- Puts an entry under its key. -/
def install (cache : Cache P Token) (key : Text) (entry : Entry Token) : Cache P Token :=
  { cache with slots := cache.slots.put key (.cached entry) }

/-- Ends a build with its entry. -/
def complete (cache : Cache P Token) (handle : Nat) (entry : Entry Token) : Cache P Token :=
  { cache with handles := cache.handles.set handle (.done entry) }

/-- Gives a claim back, if the key is still claimed under this handle. -/
def release (cache : Cache P Token) (key : Text) (handle : Nat) : Cache P Token :=
  match cache.slot? key with
  | some (.pending other) =>
    if other = handle then { cache with slots := cache.slots.drop key } else cache
  | _ => cache

/-- Ends a build that broke off. -/
def abandon (cache : Cache P Token) (handle : Nat) : Cache P Token :=
  { cache with handles := cache.handles.set handle .abandoned }

/-- The entry of a key. A key that is being built has none. -/
def get? (cache : Cache P Token) (path : Text) : Option (Entry Token) :=
  match cache.slot? (Logical.stripAppRoot path) with
  | some (.cached entry) => some entry
  | _ => none

/-- How many keys have an entry or are being built. -/
def count (cache : Cache P Token) : Nat := cache.slots.length

/-- The keys that a change of a path makes out of date, sorted: the templates that use
the path, and the path itself if it is a template. -/
def dependentsOf (cache : Cache P Token) (path : Text) : List Text :=
  match Logical.normalize path with
  | none => []
  | some canonical =>
    let users := (cache.dependents.usedBy canonical).getD []
    Text.sort <|
      if cache.dependents.contains canonical && !users.contains canonical then users ++ [canonical]
      else users

section Asking

variable [Project P Token]

/-- Issues a token. -/
def issue (cache : Cache P Token) (path : Text) : Token × Cache P Token :=
  let (token, project) := Project.issue cache.project path
  (token, { cache with project })

/-- Issues a token for each path in order. -/
def issueAll (cache : Cache P Token) : List Text → List Token × Cache P Token
  | [] => ([], cache)
  | path :: paths =>
    let (token, cache) := cache.issue path
    let (tokens, cache) := cache.issueAll paths
    (token :: tokens, cache)

/-- Asks a token. -/
def ask (cache : Cache P Token) (token : Token) : Bool × Cache P Token :=
  let (project, events) := Project.asked cache.project token
  (Project.changed cache.project token, { cache with project }.note events)

/-- Asks tokens until one reports a change. -/
def askAny (cache : Cache P Token) : List Token → Bool × Cache P Token
  | [] => (false, cache)
  | token :: tokens =>
    let (changed, cache) := cache.ask token
    if changed then (true, cache) else cache.askAny tokens

/-- The paths that a build issues tokens for: of a template that does not exist, its own
path alone. -/
def targets (unit : TemplateUnit) : List Text :=
  if unit.item.present then unit.watched else [unit.item.path]

/-- Where a build breaks off. -/
inductive Break
  /-- Before anything is resolved. -/
  | atOnce
  /-- When the template is about to be compiled. -/
  | beforeCompiling
deriving DecidableEq, Repr

/-- What happens while a caller builds: a change of the project when the template is
about to be compiled, and possibly a break. -/
structure Interference (P : Type) where
  during : P → P := id
  breaks : Option Break := none

/-- What a call comes to. -/
inductive Reply (Token : Type)
  /-- The entry, and whether its template was compiled by this call. -/
  | entry (entry : Entry Token) (compiled : Bool)
  /-- The build broke off. -/
  | broken (place : Break)
  /-- Another caller has the key, so that this one would have to wait. -/
  | blocked
deriving DecidableEq, Repr

/-- Ends a build that broke off, with everything that this takes. -/
def breakOff (cache : Cache P Token) (key : Text) (handle : Nat) (place : Break) : Reply Token × Cache P Token :=
  (.broken place, ((cache.note [.released key]).release key handle).abandon handle)

/-- Ends a build with an outcome. -/
def finish (cache : Cache P Token) (key : Text) (handle : Nat) (outcome : Outcome) (tokens : List Token)
    (compiled : Bool) : Reply Token × Cache P Token :=
  let entry : Entry Token := ⟨handle, key, outcome, tokens⟩
  (.entry entry compiled, (cache.install key entry).complete handle entry)

/-- Builds the entry of a key that was claimed. -/
def build (options : Options) (kind : ImportsKind) (interference : Interference P) (cache : Cache P Token)
    (key : Text) (handle : Nat) : Reply Token × Cache P Token :=
  let cache := cache.countCompilation
  if interference.breaks = some .atOnce then cache.breakOff key handle .atOnce
  else
    let unit := (TemplateUnit.resolve options kind key).run cache.project
    if unit.item.present then
      let (tokens, cache) := cache.issueAll (targets unit)
      let cache := (cache.record key (targets unit)).note [.compiling key unit.imports.length]
      let cache := { cache with project := interference.during cache.project }
      if interference.breaks = some .beforeCompiling then cache.breakOff key handle .beforeCompiling
      else
        let attempted := (CompilationResult.attempt options unit).run cache.project
        let cache := cache.note (CompilationResult.notes attempted)
        cache.finish key handle (.compiled (CompilationResult.settle attempted)) tokens true
    else
      let (tokens, cache) := (cache.note [.absent key]).issueAll (targets unit)
      (cache.record key (targets unit)).finish key handle .notFound tokens false

/-- Claims a key and builds its entry. -/
def claimAndBuild (options : Options) (kind : ImportsKind) (interference : Interference P)
    (cache : Cache P Token) (key : Text) (stale : Option Nat) : Reply Token × Cache P Token :=
  match cache.claim key stale with
  | (.build handle, cache) => build options kind interference cache key handle
  | (.wait _, cache) => (.blocked, cache)
  | (.retry, cache) => (.blocked, cache)

/-- The entry of a path, built now if there is none that is up to date. -/
def getOrAdd (options : Options) (kind : ImportsKind) (interference : Interference P) (cache : Cache P Token)
    (path : Text) : Reply Token × Cache P Token :=
  let key := Logical.stripAppRoot path
  match cache.slot? key with
  | some (.pending _) => (.blocked, cache.countCoalesced)
  | some (.cached entry) =>
    let (expired, cache) := cache.askAny entry.tokens
    if expired then claimAndBuild options kind interference (cache.note [.expired key]) key (some entry.id)
    else (.entry entry false, cache.countHit)
  | none => claimAndBuild options kind interference cache key none

end Asking

end Cache

end ViewCompiler
