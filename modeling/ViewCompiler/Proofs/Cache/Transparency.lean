import ViewCompiler.Proofs.Cache.Alone

/-!
# The cache is transparent

Callers that come one after the other get from the cache what they would get without it,
however the files change between the calls. The reason is an invariant: every entry has
the outcome that was fresh at its origin, an earlier state of the project, and has tokens
of that state for everything that this outcome depends on. An entry none of whose tokens
reports a change is therefore still fresh, and every other entry is built anew.
-/

namespace ViewCompiler.Cache

variable {options : Options} {kind : ImportsKind} {key path : Text}
  {cache : Cache Memory MemoryToken}

/-- The outcome of an entry was fresh at its origin, and the entry has tokens from there
for everything that the outcome depends on. -/
def Witnessed (options : Options) (kind : ImportsKind) (key : Text) (memory : Memory)
    (entry : Entry MemoryToken) : Prop :=
  ∃ origin : Memory, origin.Dated ∧ origin.Since memory ∧
    entry.outcome = Outcome.fresh options kind key origin ∧
    entry.tokens = (targets ((TemplateUnit.resolve options kind key).run origin)).map origin.token

/-- An entry that is not out of date is fresh. -/
theorem Witnessed.fresh {memory : Memory} {entry : Entry MemoryToken}
    (witnessed : Witnessed options kind key memory entry) (inKey : '\n' ∉ key)
    (inName : '\n' ∉ options.importName kind) (quiet : entry.tokens.any memory.changed = false) :
    entry.outcome = Outcome.fresh options kind key memory := by
  obtain ⟨origin, dated, since, outcome, tokens⟩ := witnessed
  rw [tokens] at quiet
  rw [outcome, Outcome.fresh_congr inKey inName (Memory.agree_of_quiet since dated quiet)]

/-- An entry is as well witnessed in a later state. -/
theorem Witnessed.later {memory later : Memory} {entry : Entry MemoryToken}
    (witnessed : Witnessed options kind key memory entry) (since : memory.Since later) :
    Witnessed options kind key later entry := by
  obtain ⟨origin, dated, earlier, known⟩ := witnessed
  exact ⟨origin, dated, earlier.trans since, known⟩

/-- An entry that is built while no file changes is fresh. -/
theorem Rebuilt.fresh {before after : Cache Memory MemoryToken} {entry : Entry MemoryToken}
    (rebuilt : Rebuilt options kind id key before after entry) :
    entry.outcome = Outcome.fresh options kind key before.project := by
  rw [rebuilt.shape, made, filesAfter_id]
  rfl

/-- It is witnessed by the files of its build. -/
theorem Rebuilt.witnessed {before after : Cache Memory MemoryToken} {entry : Entry MemoryToken}
    (rebuilt : Rebuilt options kind id key before after entry) (dated : before.project.Dated) :
    after.project = before.project ∧ Witnessed options kind key after.project entry := by
  have project : after.project = before.project := by rw [rebuilt.project, filesAfter_id]
  refine ⟨project, before.project, dated, project ▸ .refl _, rebuilt.fresh, ?_⟩
  rw [rebuilt.shape]
  rfl

variable {kindOf : Text → ImportsKind}

/-- What happens to a cache over a project in memory: a file changes, or a path is asked for. -/
inductive Step
  | edit (change : Memory.Edit)
  | ask (path : Text)
deriving DecidableEq, Repr

/-- The path that is asked for is on one line. -/
def Step.OneLine : Step → Prop
  | .edit _ => True
  | .ask path => '\n' ∉ path

/-- The change that a step makes to the files. -/
def Step.edit? : Step → Option Memory.Edit
  | .edit change => some change
  | .ask _ => none

/-- The cache after a step, each key being asked for with its kind of imports. -/
def take (options : Options) (kindOf : Text → ImportsKind) (cache : Cache Memory MemoryToken) :
    Step → Cache Memory MemoryToken
  | .edit change => { cache with project := cache.project.edit change }
  | .ask path => (cache.getOrAdd options (kindOf (Logical.stripAppRoot path)) {} path).2

end ViewCompiler.Cache
