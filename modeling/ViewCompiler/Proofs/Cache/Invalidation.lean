import ViewCompiler.Proofs.Cache.Ledger

/-!
# Exact invalidation

An entry is returned as it is exactly as long as nothing that it was made from changes. The
ledger says which changes count: those of a path that the entry is watched for, made after
the tokens of the entry were issued, even while its template was being compiled. Whatever
happened before, a call for a key whose account is current is a hit, and every other call
builds the key once.
-/

namespace ViewCompiler

/-- What happens to a cache over a project in memory: a file changes, or a path is asked
for, and files may change while its template is being compiled. -/
inductive Action
  | edit (change : Memory.Edit)
  | ask (options : Options) (kind : ImportsKind) (path : Text) (during : List Memory.Edit)

/-- The ledger after an action. -/
def Ledger.act (ledger : Ledger) : Action → Ledger
  | .edit change => ledger.edit change
  | .ask options kind path during => ledger.ask options kind during (Logical.stripAppRoot path)

/-- The first ledger over a project, with accounts of types that were compiled beforehand.
Nothing is watched for these. -/
def Ledger.founded (memory : Memory) (views : List (Text × Text)) : Ledger :=
  views.foldl (fun ledger view => ledger.open_ (Logical.stripAppRoot view.1) ⟨none, [], []⟩)
    { memory, accounts := fun _ => none }

namespace Cache

/-- A new cache, either empty or with types that were compiled beforehand. -/
def founded {P Token : Type} (project : P) : Option (List (Text × Text)) → Cache P Token
  | none => { project }
  | some views => withPrecompiled project views

/-- The cache after an action. -/
def act (cache : Cache Memory MemoryToken) : Action → Cache Memory MemoryToken
  | .edit change => { cache with project := cache.project.edit change }
  | .ask options kind path during =>
    (cache.getOrAdd options kind { during := (·.editAll during) } path).2

variable {cache : Cache Memory MemoryToken} {ledger : Ledger} {memory : Memory} {key path : Text}
  {call : Reply MemoryToken × Cache Memory MemoryToken}

/-- The call returned the entry of the key as it stood. Besides the count of a hit, it left
everything as it was. -/
def Hit (cache : Cache Memory MemoryToken) (key : Text)
    (call : Reply MemoryToken × Cache Memory MemoryToken) : Prop :=
  ∃ entry, cache.slot? key = some (.cached entry) ∧ call = (.entry entry false, cache.countHit)

/-- The call began one build and returned what the key has an entry of now, which is not
the entry of any key before. -/
def Built (cache : Cache Memory MemoryToken) (key : Text)
    (call : Reply MemoryToken × Cache Memory MemoryToken) : Prop :=
  ∃ entry compiled, call.1 = .entry entry compiled ∧
    call.2.stats = cache.countCompilation.stats ∧ call.2.slot? key = some (.cached entry) ∧
    (∀ other, other ≠ key → call.2.slot? other = cache.slot? other) ∧
    ∀ other old, cache.slot? other = some (.cached old) → old.id ≠ entry.id

/-- No call is both. -/
theorem Hit.not_built (hit : Hit cache key call) : ¬ Built cache key call := by
  obtain ⟨entry, stands, rfl⟩ := hit
  rintro ⟨other, compiled, returned, -, -, -, fresh⟩
  cases returned
  exact fresh key entry stands rfl

/-- A type that was compiled beforehand is entered in both. -/
theorem KeptBy.seed (kept : cache.KeptBy ledger) (view : Text × Text) :
    (cache.seed view).KeptBy (ledger.open_ (Logical.stripAppRoot view.1) ⟨none, [], []⟩) := by
  apply kept.open_ (cache.seed view) rfl
  · exact Table.find?_put_self _ _ _
  · intro other differs
    exact Table.find?_put_of_ne differs _ _
  · rfl
  · rfl
  · rfl

/-- A new cache and the first ledger are in step. -/
theorem founded_kept (dated : memory.Dated) (views : Option (List (Text × Text))) :
    (founded memory views).KeptBy (Ledger.founded memory (views.getD [])) := by
  have empty : ({ project := memory } : Cache Memory MemoryToken).KeptBy
      { memory, accounts := fun _ => none } := by
    refine ⟨rfl, dated, fun _ _ => rfl, ?_⟩
    intro key slot stands
    cases stands
  cases views with
  | none => exact empty
  | some views =>
    have seeded : (views.foldl seed { project := memory }).KeptBy (Ledger.founded memory views) :=
      List.foldl_rel empty fun view _ _ _ kept => kept.seed view
    exact ⟨seeded.files, seeded.dated, seeded.vacant, seeded.taken⟩

/-- A call is a hit if the account of its key is current and a build if it is not. -/
theorem KeptBy.hit_or_built (kept : cache.KeptBy ledger) (options : Options) (kind : ImportsKind)
    (path : Text) (during : List Memory.Edit) :
    let key := Logical.stripAppRoot path
    let call := cache.getOrAdd options kind { during := (·.editAll during) } path
    ledger.isCurrent key = true ∧ Hit cache key call ∨
      ledger.isCurrent key = false ∧ Built cache key call := by
  intro key call
  rcases (kept.getOrAdd options kind path during).1 with
    ⟨current, entry, stands, -, returned⟩ |
    ⟨outdated, entry, compiled, after, returned, rebuilt⟩
  · exact .inl ⟨current, entry, stands, returned⟩
  · refine .inr ⟨outdated, entry, compiled, ?_⟩
    simp only [call, returned]
    refine ⟨trivial, rebuilt.stats, rebuilt.own, rebuilt.others, ?_⟩
    intro other old stands
    have earlier := kept.id_lt stands
    rw [rebuilt.shape]
    exact Nat.ne_of_lt earlier

/-- The ledger stays in step whatever happens. -/
theorem KeptBy.act (kept : cache.KeptBy ledger) (action : Action) :
    (cache.act action).KeptBy (ledger.act action) := by
  cases action with
  | edit change => exact kept.edit change
  | ask options kind path during => exact (kept.getOrAdd options kind path during).2

/-- So it does over many actions. -/
theorem KeptBy.actAll (kept : cache.KeptBy ledger) (actions : List Action) :
    (actions.foldl Cache.act cache).KeptBy (actions.foldl Ledger.act ledger) :=
  List.foldl_rel kept fun action _ _ _ kept => kept.act action

/-- Invalidation is exact: whatever happened to a new cache over any project in memory, a
call is a hit exactly if the account of its key is current, and builds the key once exactly
if it is not. A `~` before the key makes no difference. -/
theorem getOrAdd_exact (history : List Memory.Edit) (views : Option (List (Text × Text)))
    (actions : List Action) (options : Options) (kind : ImportsKind) (path : Text)
    (during : List Memory.Edit) :
    let memory := Memory.editAll {} history
    let cache := actions.foldl act (founded memory views)
    let ledger := actions.foldl Ledger.act (Ledger.founded memory (views.getD []))
    let key := Logical.stripAppRoot path
    let call := cache.getOrAdd options kind { during := (·.editAll during) }
    (Hit cache key (call path) ↔ ledger.isCurrent key = true) ∧
      (Built cache key (call path) ↔ ledger.isCurrent key = false) ∧
      ∀ rest, call ('~' :: '/' :: rest) = call ('/' :: rest) := by
  intro memory cache ledger key call
  have kept : cache.KeptBy ledger :=
    (founded_kept (Memory.editAll_dated history) views).actAll actions
  refine ⟨?_, ?_, ?_⟩
  · rcases kept.hit_or_built options kind path during with ⟨current, hit⟩ | ⟨outdated, built⟩
    · exact iff_of_true hit current
    · exact iff_of_false (fun hit => hit.not_built built) (Bool.not_eq_true _ ▸ outdated)
  · rcases kept.hit_or_built options kind path during with ⟨current, hit⟩ | ⟨outdated, built⟩
    · exact iff_of_false hit.not_built (Bool.not_eq_false _ ▸ current)
    · exact iff_of_true built outdated
  · intro rest
    rfl

/-- A template that was asked for is a hit, in any spelling, until an import is written in a
directory above it. -/
theorem getOrAdd_exact_import :
    let memory := Memory.editAll {} [.write "/Views/a.cshtml" []]
    let first : Action := .ask {} .views "/Views/a.cshtml" []
    let write : Action := .edit (.write "\\_ViewImports.cshtml" [])
    let asked := [first].foldl act (founded memory none)
    let written := [first, write].foldl act (founded memory none)
    let ask (cache : Cache Memory MemoryToken) := cache.getOrAdd {} .views
      { during := (·.editAll []) } "~/Views/a.cshtml"
    Hit asked "/Views/a.cshtml" (ask asked) ∧ Built written "/Views/a.cshtml" (ask written) := by
  intro memory first write asked written ask
  have before := getOrAdd_exact [.write "/Views/a.cshtml" []] none [first] {} .views
    "~/Views/a.cshtml" []
  have after := getOrAdd_exact [.write "/Views/a.cshtml" []] none [first, write] {} .views
    "~/Views/a.cshtml" []
  exact ⟨before.1.mpr (by decide +kernel), after.2.1.mpr (by decide +kernel)⟩

end Cache

end ViewCompiler
