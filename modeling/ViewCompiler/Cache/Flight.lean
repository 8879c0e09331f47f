import ViewCompiler.Cache

/-!
# Callers in turns

Any number of callers ask one cache for entries. Each goes through the same phases, one
move at a time: it looks at the slot of its key, asks the tokens of an entry one by one,
claims the key, and then builds or waits. A build resolves the template and each import
candidate, issues each token, reads each source and installs its entry, each in a move
of its own. Between two moves of a caller, others may move, the project may change, and
a build may break off. A caller that waits on a running build cannot move.
-/

namespace ViewCompiler

/-- Where a caller is. -/
inductive Phase (Token : Type)
  /-- About to look at the slot. -/
  | arriving
  /-- About to ask the remaining tokens of the entry it found. -/
  | checking (entry : Entry Token) (left : List Token)
  /-- About to claim the key, in the place of an entry found out of date. -/
  | claiming (stale : Option Nat)
  /-- About to be counted as waiting. -/
  | joining (handle : Nat)
  | waiting (handle : Nat)
  /-- Has claimed the key and is about to be counted as building. -/
  | starting (handle : Nat)
  /-- Resolving the template and the candidates for its imports. -/
  | resolving (handle : Nat) (left : Inquiry TemplateUnit)
  /-- Issuing the remaining tokens. -/
  | issuing (handle : Nat) (unit : TemplateUnit) (left : List Text) (issued : List Token)
  /-- About to enter what the key depends on. -/
  | recording (handle : Nat) (unit : TemplateUnit) (tokens : List Token)
  /-- Reading sources, and compiling when they are read. -/
  | compiling (handle : Nat) (tokens : List Token) (left : Inquiry (Except Unreadable CompilationResult))
  /-- About to put the entry under its key. -/
  | installing (handle : Nat) (entry : Entry Token)
  /-- About to hand the entry to those who wait. -/
  | completing (handle : Nat) (entry : Entry Token)
  /-- The build broke off, and the claim is about to be given back. -/
  | releasing (handle : Nat)
  /-- About to tell those who wait that the build broke off. -/
  | abandoning (handle : Nat)
  | returned (entry : Entry Token)
  /-- The call ended because its build broke off. -/
  | broken

/-- A call for a key. -/
structure Caller (Token : Type) where
  key : Text
  kind : ImportsKind
  phase : Phase Token := .arriving

/-- A cache and those who call it. -/
structure Flight (P Token : Type) where
  options : Options
  cache : Cache P Token
  callers : List (Caller Token) := []

namespace Phase

variable {Token : Type}

/-- The handle of a build that can break off: it was counted, and its entry is not there yet. -/
def building? : Phase Token → Option Nat
  | .resolving handle _ | .issuing handle .. | .recording handle .. | .compiling handle .. =>
    some handle
  | _ => none

/-- Whether the call is over. -/
def isOver : Phase Token → Bool
  | .returned _ | .broken => true
  | _ => false

end Phase

namespace Flight

variable {P Token : Type} [Project P Token]

/-- One more caller. -/
def call (flight : Flight P Token) (path : Text) (kind : ImportsKind) : Flight P Token :=
  { flight with callers := flight.callers ++ [{ key := Logical.stripAppRoot path, kind }] }

/-- A change of the project. -/
def edit (flight : Flight P Token) (change : P → P) : Flight P Token :=
  { flight with cache := { flight.cache with project := change flight.cache.project } }

/-- The next phase of a caller and the cache after its move; nothing if the call is over
or waits on a running build. -/
def move (options : Options) (cache : Cache P Token) (caller : Caller Token) :
    Option (Phase Token × Cache P Token) :=
  let key := caller.key
  match caller.phase with
  | .arriving =>
    match cache.slot? key with
    | some (.pending handle) => some (.joining handle, cache)
    | some (.cached entry) => some (.checking entry entry.tokens, cache)
    | none => some (.claiming none, cache)
  | .checking entry [] => some (.returned entry, cache.countHit)
  | .checking entry (token :: left) =>
    let (changed, cache) := cache.ask token
    if changed then some (.claiming (some entry.id), cache.note [.expired key])
    else some (.checking entry left, cache)
  | .claiming stale =>
    match cache.claim key stale with
    | (.build handle, cache) => some (.starting handle, cache)
    | (.wait handle, cache) => some (.joining handle, cache)
    | (.retry, cache) => some (.arriving, cache)
  | .joining handle => some (.waiting handle, cache.countCoalesced)
  | .waiting handle =>
    match cache.progress? handle with
    | some (.done entry) => some (.returned entry, cache)
    | some .abandoned => some (.arriving, cache)
    | some .running | none => none
  | .starting handle =>
    some (.resolving handle (TemplateUnit.resolve options caller.kind key), cache.countCompilation)
  | .resolving handle (.answer unit) =>
    some (.issuing handle unit (Cache.targets unit) [],
      cache.note (if unit.item.present then [] else [.absent key]))
  | .resolving handle left => some (.resolving handle (left.step cache.project), cache)
  | .issuing handle unit [] issued => some (.recording handle unit issued, cache)
  | .issuing handle unit (path :: left) issued =>
    let (token, cache) := cache.issue path
    some (.issuing handle unit left (issued ++ [token]), cache)
  | .recording handle unit tokens =>
    let cache := cache.record key (Cache.targets unit)
    if unit.item.present then
      some (.compiling handle tokens (CompilationResult.attempt options unit),
        cache.note [.compiling key unit.imports.length])
    else some (.installing handle ⟨handle, key, .notFound, tokens⟩, cache)
  | .compiling handle tokens (.answer attempted) =>
    some (.installing handle ⟨handle, key, .compiled (CompilationResult.settle attempted), tokens⟩,
      cache.note (CompilationResult.notes attempted))
  | .compiling handle tokens left => some (.compiling handle tokens (left.step cache.project), cache)
  | .installing handle entry => some (.completing handle entry, cache.install key entry)
  | .completing handle entry => some (.returned entry, cache.complete handle entry)
  | .releasing handle => some (.abandoning handle, cache.release key handle)
  | .abandoning handle => some (.broken, cache.abandon handle)
  | .returned _ | .broken => none

/-- The flight with one caller in another phase. -/
def withPhase (flight : Flight P Token) (index : Nat) (phase : Phase Token) (cache : Cache P Token) :
    Flight P Token :=
  { flight with
    cache
    callers := flight.callers.modify index fun caller => { caller with phase } }

/-- One move of a caller, if it can move. -/
def advance (flight : Flight P Token) (index : Nat) : Option (Flight P Token) := do
  let caller ← flight.callers[index]?
  let (phase, cache) ← move flight.options flight.cache caller
  return flight.withPhase index phase cache

/-- The build of a caller breaks off, if it is building. -/
def breakOff (flight : Flight P Token) (index : Nat) : Option (Flight P Token) := do
  let caller ← flight.callers[index]?
  let handle ← caller.phase.building?
  return flight.withPhase index (.releasing handle) (flight.cache.note [.released caller.key])

/-- What can happen next. -/
inductive Action (P : Type)
  | call (path : Text) (kind : ImportsKind)
  | advance (index : Nat)
  | breakOff (index : Nat)
  | edit (change : P → P)

/-- The flight after something happened, if it can happen. -/
def act (flight : Flight P Token) : Action P → Option (Flight P Token)
  | .call path kind => some (flight.call path kind)
  | .advance index => flight.advance index
  | .breakOff index => flight.breakOff index
  | .edit change => some (flight.edit change)

/-- Lets a caller move until it cannot, or until `stop` holds of its phase, but no more
than `limit` times. -/
def drive (stop : Phase Token → Bool) (index : Nat) : (limit : Nat) → Flight P Token → Flight P Token
  | 0, flight => flight
  | limit + 1, flight =>
    match flight.callers[index]? with
    | none => flight
    | some caller =>
      if stop caller.phase then flight
      else match flight.advance index with
        | none => flight
        | some flight => drive stop index limit flight

/-- More moves than any one call for a path makes while nothing else moves: each
candidate is resolved, gets a token, is asked, is read and is shown at most a few times,
and there are no more candidates than characters in the path. -/
def patience (path : Text) : Nat := 16 * (path.length + 16)

/-- Builds begin one after the other until one succeeds or there is nobody left: the
first caller that is not done claims the key, all others come to wait for it, and then
its build breaks off, as the first `breaks` builds do, or runs to its end. -/
def inTurns (limit : Nat) : (breaks : Nat) → (rounds : Nat) → Flight P Token → Flight P Token
  | _, 0, flight => flight
  | breaks, rounds + 1, flight =>
    let open_ := (List.range flight.callers.length).filter fun index =>
      match flight.callers[index]? with
      | some caller => !caller.phase.isOver
      | none => false
    match open_ with
    | [] => flight
    | builder :: others =>
      let settle (flight : Flight P Token) (index : Nat) : Flight P Token :=
        drive Phase.isOver index limit flight
      let started := drive (fun phase => match phase with | .resolving .. => true | _ => false) builder limit flight
      let gathered := others.foldl settle started
      let (ended, breaks) :=
        match breaks, gathered.breakOff builder with
        | more + 1, some broken => (broken, more)
        | _, _ => (gathered, breaks)
      inTurns limit breaks rounds (settle ended builder)

/-- Several callers ask for one path at the same time, and the first `breaks` builds
break off. -/
def together (options : Options) (kind : ImportsKind) (cache : Cache P Token) (path : Text) (count breaks : Nat) :
    Flight P Token :=
  let flight : Flight P Token :=
    (List.range count).foldl (fun flight _ => flight.call path kind) { options, cache }
  inTurns (patience path) breaks (count + 1) flight

/-- The entries that calls returned, in the order of the calls. -/
def returned (flight : Flight P Token) : List (Entry Token) :=
  flight.callers.filterMap fun caller =>
    match caller.phase with
    | .returned entry => some entry
    | _ => none

end Flight

end ViewCompiler
