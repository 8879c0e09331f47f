import ViewCompiler.Page
import ViewCompiler.Proofs.Cache.Ledger
import ViewCompiler.Proofs.Cache.Transparency

/-!
# Two front ends on one cache

Factories ask the cache for views and the loader asks it for pages, but the key of an entry
is the path alone. An entry that was made for one of them is therefore also what the other
one gets, until it is out of date. Which of the two kinds of imports an answer is made with
can be read off the ledger, and it is the kind of the one who asks as long as only one of
them asks for the key.
-/

namespace ViewCompiler

/-- The entry of a key as it would be built now. -/
def Entry.uncached (options : Options) (kind : ImportsKind) (key : Text) (memory : Memory) :
    Entry MemoryToken where
  id := 0
  path := key
  outcome := .fresh options kind key memory
  tokens := (Cache.targets ((TemplateUnit.resolve options kind key).run memory)).map memory.token

/-- The answer about a factory that is found by compiling the path now. -/
def FactoryResult.uncached (options : Options) (kind : ImportsKind) (path : Text)
    (memory : Memory) : FactoryResult MemoryToken :=
  .ofEntry (Logical.stripAppRoot path) (.uncached options kind (Logical.stripAppRoot path) memory)

/-- The answer about a page that is found by compiling the path now. -/
def LoadFault.uncached (options : Options) (kind : ImportsKind) (path : Text) (memory : Memory) :
    Except LoadFault CompiledType :=
  LoadFault.ofEntry path (.uncached options kind (Logical.stripAppRoot path) memory)

/-- What happens to a cache that both front ends use: a file changes, a factory is asked
for, or a page is loaded. -/
inductive Visit
  | edit (change : Memory.Edit)
  | factory (path : Text)
  | load (path : Text)
deriving DecidableEq, Repr

namespace Visit

/-- The path that is asked for is on one line. -/
def OneLine : Visit → Prop
  | .edit _ => True
  | .factory path | .load path => '\n' ∉ path

/-- The change that a visit makes to the files. -/
def edit? : Visit → Option Memory.Edit
  | .edit change => some change
  | .factory _ | .load _ => none

/-- The key that a visit asks for and the kind of imports that it asks for it with. -/
def asks? : Visit → Option (ImportsKind × Text)
  | .edit _ => none
  | .factory path => some (.views, Logical.stripAppRoot path)
  | .load path => some (.pages, Logical.stripAppRoot path)

end Visit

namespace Ledger

/-- The kind of imports of the entry that a call for a key gets. It is that of the entry
there is, if this is not out of date. -/
def kindFor (ledger : Ledger) (key : Text) (own : ImportsKind) : ImportsKind :=
  if ledger.isCurrent key then ((ledger.accounts key).bind (·.kind)).getD own else own

/-- The ledger after a visit. The loader asks the cache only if there is a template. -/
def visit (options : Options) (ledger : Ledger) : Visit → Ledger
  | .edit change => ledger.edit change
  | .factory path => ledger.ask options .views [] (Logical.stripAppRoot path)
  | .load path =>
    if (ledger.memory.item path).present then
      ledger.ask options .pages [] (Logical.stripAppRoot path)
    else ledger

/-- An entry of the key, if there is one, was made with the given kind of imports. -/
def Holds (ledger : Ledger) (key : Text) (kind : ImportsKind) : Prop :=
  ∀ account, ledger.accounts key = some account → account.kind = some kind

variable {options : Options} {kind own : ImportsKind} {key other : Text} {ledger : Ledger}

/-- A key whose account is up to date is not compiled again. -/
theorem ask_current (current : ledger.isCurrent key = true) :
    ledger.ask options kind [] key = ledger := by
  simp only [ask, current, ↓reduceIte]

/-- Any other key gets an account of the imports that it was compiled with and of the files that are
watched for it. -/
theorem ask_outdated (outdated : ledger.isCurrent key = false) :
    ledger.ask options kind [] key =
      ledger.open_ key ⟨some kind, ledger.watched options kind key, []⟩ := by
  simp only [ask, outdated, Bool.false_eq_true, ↓reduceIte, List.foldl_nil, ite_self]

/-- A call changes no file. -/
@[simp] theorem ask_memory : (ledger.ask options kind [] key).memory = ledger.memory := by
  cases current : ledger.isCurrent key with
  | true => rw [ask_current current]
  | false => rw [ask_outdated current, open_]

/-- Only a change of a file changes the files. -/
theorem visit_memory (visit : Visit) :
    (ledger.visit options visit).memory = ledger.memory.editAll visit.edit?.toList := by
  cases visit with
  | edit change => rfl
  | factory path => exact ask_memory
  | load path =>
    simp only [Ledger.visit]
    split
    · exact ask_memory
    · rfl

/-- Who asks with the same kind of imports as everyone before gets an entry of this kind. -/
theorem Holds.kindFor (holds : ledger.Holds key own) : ledger.kindFor key own = own := by
  unfold Ledger.kindFor
  split
  · cases recorded : ledger.accounts key with
    | none => rfl
    | some account => simp [holds account recorded]
  · rfl

/-- A call that is not for the key with another kind of imports keeps the kind of its entry. -/
theorem Holds.ask (holds : ledger.Holds key own) (same : other = key → kind = own) :
    (ledger.ask options kind [] other).Holds key own := by
  cases current : ledger.isCurrent other with
  | true => rwa [ask_current current]
  | false =>
    rw [ask_outdated current]
    intro account recorded
    by_cases asked : key = other
    · simp only [open_, asked, ↓reduceIte, Option.some.injEq] at recorded
      rw [← recorded, same asked.symm]
    · simp only [open_, asked, ↓reduceIte] at recorded
      exact holds account recorded

/-- So does a visit. -/
theorem Holds.visit (holds : ledger.Holds key own) {visit : Visit}
    (same : ∀ kind, visit.asks? = some (kind, key) → kind = own) :
    (ledger.visit options visit).Holds key own := by
  cases visit with
  | edit change =>
    intro account recorded
    obtain ⟨earlier, known, rfl⟩ := Option.map_eq_some_iff.mp recorded
    exact holds earlier known
  | factory path =>
    apply holds.ask
    rintro rfl
    exact same _ rfl
  | load path =>
    simp only [Ledger.visit]
    split
    · apply holds.ask
      rintro rfl
      exact same _ rfl
    · exact holds

/-- So do many visits. -/
theorem Holds.visits (holds : ledger.Holds key own) {visits : List Visit}
    (same : ∀ visit ∈ visits, ∀ kind, visit.asks? = some (kind, key) → kind = own) :
    (visits.foldl (Ledger.visit options) ledger).Holds key own := by
  induction visits generalizing ledger with
  | nil => exact holds
  | cons visit visits inductionHypothesis =>
    apply inductionHypothesis (holds.visit (same visit (by simp)))
    intro later member
    exact same later (by simp [member])

end Ledger

namespace Cache

variable {options : Options} {kind : ImportsKind} {key path : Text} {ledger : Ledger}
  {cache : Cache Memory MemoryToken}

/-- The cache after a visit. -/
def visit (options : Options) (cache : Cache Memory MemoryToken) :
    Visit → Cache Memory MemoryToken
  | .edit change => { cache with project := cache.project.edit change }
  | .factory path => (cache.createFactory options path).2
  | .load path => (cache.load options path).2

/-- The ledger is in step with the cache, and each entry has the path of its key and is
witnessed for the kind of imports that its account names. -/
structure Shared (options : Options) (cache : Cache Memory MemoryToken) (ledger : Ledger) :
    Prop where
  kept : cache.KeptBy ledger
  entries : ∀ key entry, cache.slot? key = some (.cached entry) → entry.path = key ∧
    ∃ account kind, ledger.accounts key = some account ∧ account.kind = some kind ∧
      Witnessed options kind key ledger.memory entry

/-- An entry that is not out of date is the one that would be built now. -/
theorem Witnessed.uncached {memory : Memory} {entry : Entry MemoryToken}
    (witnessed : Witnessed options kind key memory entry) (inKey : '\n' ∉ key)
    (inName : '\n' ∉ options.importName kind) (own : entry.path = key)
    (quiet : entry.tokens.any memory.changed = false) :
    entry = { Entry.uncached options kind key memory with id := entry.id } := by
  have fresh := witnessed.fresh inKey inName quiet
  obtain ⟨origin, dated, since, -, tokens⟩ := witnessed
  have agree := Memory.agree_of_quiet since dated (tokens ▸ quiet)
  have renewed : entry.tokens = (Entry.uncached options kind key memory).tokens := by
    simp only [Entry.uncached, tokens, TemplateUnit.targets_congr options kind key agree]
    apply List.map_congr_left
    intro path member
    exact (Memory.token_congr agree member).symm
  cases entry
  simp only [Entry.uncached] at fresh renewed own ⊢
  rw [fresh, renewed, own]

namespace Shared

/-- A change of a file leaves a cache shared. -/
theorem edit (shared : cache.Shared options ledger) (change : Memory.Edit) :
    ({ cache with project := cache.project.edit change } : Cache Memory MemoryToken).Shared options
      (ledger.edit change) := by
  refine ⟨shared.kept.edit change, ?_⟩
  intro key entry stands
  obtain ⟨own, account, kind, recorded, made, witnessed⟩ := shared.entries key entry stands
  refine ⟨own, account.enter (ledger.memory.reached? change).toList, kind, ?_, made, ?_⟩
  · simp only [Ledger.edit, recorded, Option.map_some]
  · exact witnessed.later (Memory.edit_since shared.kept.dated change).1

/-- A call returns what would be built now with the kind of imports that the ledger tells. -/
theorem getOrAdd (shared : cache.Shared options ledger) (inPath : '\n' ∉ path)
    (inName : ∀ kind, '\n' ∉ options.importName kind) (kind : ImportsKind) :
    let key := Logical.stripAppRoot path
    ∃ entry compiled after, cache.getOrAdd options kind {} path = (.entry entry compiled, after) ∧
      entry = { Entry.uncached options (ledger.kindFor key kind) key ledger.memory with
        id := entry.id } ∧
      after.Shared options (ledger.ask options kind [] key) := by
  intro key
  have inKey : '\n' ∉ key := by
    intro member
    exact inPath ((Logical.stripAppRoot_sublist path).subset member)
  obtain ⟨called, kept⟩ := shared.kept.getOrAdd options kind path []
  rcases called with ⟨current, entry, stands, quiet, returned⟩ |
    ⟨outdated, entry, compiled, after, returned, rebuilt⟩
  · obtain ⟨own, account, served, recorded, made, witnessed⟩ := shared.entries key entry stands
    have serves : ledger.kindFor key kind = served := by
      simp [Ledger.kindFor, key, current, recorded, made]
    rw [shared.kept.files] at quiet
    refine ⟨entry, false, cache.countHit, returned, ?_, ?_⟩
    · rw [serves]
      exact witnessed.uncached inKey (inName served) own quiet
    · rw [returned] at kept
      refine ⟨kept, ?_⟩
      rw [Ledger.ask_current current]
      exact shared.entries
  · have undisturbed : Rebuilt options kind id key cache after entry := rebuilt
    have serves : ledger.kindFor key kind = kind := by
      simp [Ledger.kindFor, key, outdated]
    have shape : entry = { Entry.uncached options kind key ledger.memory with id := entry.id } := by
      rw [undisturbed.shape, shared.kept.files, made, filesAfter_id]
      rfl
    rw [returned] at kept
    refine ⟨entry, compiled, after, returned, by rw [serves, ← shape], kept, ?_⟩
    rw [Ledger.ask_outdated outdated]
    intro other standing stands
    by_cases same : other = key
    · subst same
      obtain rfl : entry = standing := by simpa [undisturbed.own] using stands
      obtain ⟨project, witnessed⟩ := undisturbed.witnessed (shared.kept.files ▸ shared.kept.dated)
      rw [project, shared.kept.files] at witnessed
      exact ⟨congrArg Entry.path shape, _, kind, if_pos rfl, rfl, witnessed⟩
    · rw [undisturbed.others other same] at stands
      obtain ⟨own, account, served, recorded, known⟩ := shared.entries other standing stands
      exact ⟨own, account, served, (if_neg same).trans recorded, known⟩

/-- A factory is made from what would be built now, and the cache remains shared. -/
theorem createFactory (shared : cache.Shared options ledger) (inPath : '\n' ∉ path)
    (inName : ∀ kind, '\n' ∉ options.importName kind) :
    ∃ after, cache.createFactory options path = (some (.uncached options
        (ledger.kindFor (Logical.stripAppRoot path) .views) path ledger.memory), after) ∧
      after.Shared options (ledger.visit options (.factory path)) := by
  have inKey : '\n' ∉ Logical.stripAppRoot path := by
    intro member
    exact inPath ((Logical.stripAppRoot_sublist path).subset member)
  obtain ⟨entry, compiled, after, returned, shape, kept⟩ := shared.getOrAdd inKey inName .views
  rw [Logical.stripAppRoot_stripAppRoot] at shape kept
  refine ⟨after, ?_, kept⟩
  simp only [Cache.createFactory, returned]
  rw [shape]
  rfl

/-- A page that exists is loaded from what would be built now, and the cache remains shared. -/
theorem load (shared : cache.Shared options ledger) (inPath : '\n' ∉ path)
    (inName : ∀ kind, '\n' ∉ options.importName kind) :
    ∃ answer after, cache.load options path = (some answer, after) ∧
      ((ledger.memory.item path).present = true → answer = LoadFault.uncached options
        (ledger.kindFor (Logical.stripAppRoot path) .pages) path ledger.memory) ∧
      after.Shared options (ledger.visit options (.load path)) := by
  have found : (Project.item cache.project path).present = (ledger.memory.item path).present := by
    rw [shared.kept.files]
    rfl
  cases present : (ledger.memory.item path).present with
  | false =>
    refine ⟨.error (.notFound path), cache, ?_, ?_, ?_⟩
    · simp only [Cache.load, found, present, Bool.false_eq_true, ↓reduceIte]
    · exact fun missing => absurd missing Bool.false_ne_true
    · simpa only [Ledger.visit, present, Bool.false_eq_true, ↓reduceIte] using shared
  | true =>
    obtain ⟨entry, compiled, after, returned, shape, kept⟩ := shared.getOrAdd inPath inName .pages
    refine ⟨LoadFault.ofEntry path entry, after, ?_, ?_, ?_⟩
    · simp only [Cache.load, found, present, ↓reduceIte, returned]
    · intro _
      rw [shape]
      rfl
    · simpa only [Ledger.visit, present, ↓reduceIte] using kept

/-- A visit leaves a cache shared. -/
theorem visit (shared : cache.Shared options ledger)
    (inName : ∀ kind, '\n' ∉ options.importName kind) {visit : Visit} (oneLine : visit.OneLine) :
    (cache.visit options visit).Shared options (ledger.visit options visit) := by
  cases visit with
  | edit change => exact shared.edit change
  | factory path =>
    obtain ⟨after, answered, kept⟩ := shared.createFactory oneLine inName
    simpa only [Cache.visit, answered] using kept
  | load path =>
    obtain ⟨answer, after, answered, -, kept⟩ := shared.load oneLine inName
    simpa only [Cache.visit, answered] using kept

end Shared

/-- What is known of a cache after any visits: it is shared, and the files are those that
the changes make. -/
theorem visits_shared (shared : cache.Shared options ledger)
    (inName : ∀ kind, '\n' ∉ options.importName kind) {visits : List Visit}
    (oneLine : ∀ visit ∈ visits, visit.OneLine) :
    (visits.foldl (visit options) cache).Shared options
        (visits.foldl (Ledger.visit options) ledger) ∧
      (visits.foldl (Ledger.visit options) ledger).memory =
        ledger.memory.editAll (visits.filterMap Visit.edit?) := by
  induction visits generalizing cache ledger with
  | nil => exact ⟨shared, rfl⟩
  | cons visit visits inductionHypothesis =>
    obtain ⟨settled, files⟩ := inductionHypothesis (shared.visit inName (oneLine visit (by simp)))
      fun later member => oneLine later (by simp [member])
    refine ⟨settled, ?_⟩
    rw [List.foldl_cons, files, Ledger.visit_memory]
    cases change : visit.edit? <;> simp [change, Memory.editAll]

/-- Whatever both front ends and the files went through since the cache was empty, a factory
and an existing page are what compiling the path now gives, with the kind of imports that
the ledger tells. This is the own kind of the one who asks, if every earlier call for the
key was of this kind. -/
theorem visits_answered (options : Options) (inName : ∀ kind, '\n' ∉ options.importName kind)
    (history : List Memory.Edit) (visits : List Visit) (oneLine : ∀ visit ∈ visits, visit.OneLine)
    (path : Text) (inPath : '\n' ∉ path) :
    let initial : Memory := Memory.editAll {} history
    let memory : Memory := Memory.editAll {} (history ++ visits.filterMap Visit.edit?)
    let cache : Cache Memory MemoryToken := visits.foldl (visit options) { project := initial }
    let ledger := visits.foldl (Ledger.visit options) ⟨initial, fun _ => none⟩
    let key := Logical.stripAppRoot path
    (cache.createFactory options path).1 =
        some (.uncached options (ledger.kindFor key .views) path memory) ∧
      ((memory.item path).present = true → (cache.load options path).1 =
        some (LoadFault.uncached options (ledger.kindFor key .pages) path memory)) ∧
      ∀ own, (∀ visit ∈ visits, ∀ kind, visit.asks? = some (kind, key) → kind = own) →
        ledger.kindFor key own = own := by
  intro initial memory cache ledger key
  have fresh : ({ project := initial } : Cache Memory MemoryToken).Shared options
      ⟨initial, fun _ => none⟩ := by
    refine ⟨⟨rfl, Memory.editAll_dated history, fun _ _ => rfl, ?_⟩, ?_⟩
    · intro key slot stands
      cases stands
    · intro key entry stands
      cases stands
  obtain ⟨shared, files⟩ := visits_shared fresh inName oneLine
  have now : ledger.memory = memory := files.trans List.foldl_append.symm
  refine ⟨?_, ?_, ?_⟩
  · obtain ⟨after, answered, -⟩ := shared.createFactory inPath inName
    rw [answered, ← now]
  · intro present
    obtain ⟨answer, after, answered, compiled, -⟩ := shared.load inPath inName
    rw [answered, compiled (now ▸ present), ← now]
  · intro own alone
    have none : Ledger.Holds ⟨initial, fun _ => none⟩ key own := by
      intro account recorded
      cases recorded
    exact (none.visits alone).kindFor

/-- Imports of views and imports of pages that do not compile, and a template. -/
def brokenImports : List Memory.Edit :=
  [.write "/_ViewImports.cshtml" (Utf8.encode "@using"),
    .write "/_PageImports.cshtml" (Utf8.encode "@inject"), .write "/a.cshtml" []]

/-- A factory of another template makes no difference: the page is loaded with the imports of pages,
and what is wrong with it is told of these. -/
theorem visits_answered_apart :
    let memory : Memory := Memory.editAll {} brokenImports
    let cache : Cache Memory MemoryToken :=
      [.factory "~/b.cshtml"].foldl (visit {}) { project := memory }
    (cache.load {} "/a.cshtml").1 = some (LoadFault.uncached {} .pages "/a.cshtml" memory) := by
  intro memory cache
  have oneLine : ∀ visit ∈ [Visit.factory "~/b.cshtml"], visit.OneLine := by
    intro visit member
    obtain rfl := List.mem_singleton.mp member
    exact (by decide : '\n' ∉ ("~/b.cshtml" : Text))
  have apart : ∀ visit ∈ [Visit.factory "~/b.cshtml"], ∀ kind,
      visit.asks? = some (kind, Logical.stripAppRoot "/a.cshtml") → kind = .pages := by
    intro visit member kind asked
    obtain rfl := List.mem_singleton.mp member
    have keys := (Prod.mk.inj (Option.some.inj asked)).2
    exact absurd keys (by decide)
  obtain ⟨-, loaded, own⟩ := visits_answered {} (TemplateUnit.newline_not_mem_importName _ _)
    brokenImports [.factory "~/b.cshtml"] oneLine "/a.cshtml" (by decide)
  rw [own .pages apart] at loaded
  exact loaded (by decide +kernel)

/-- A page that a factory was made for is not loaded with the imports of pages: what is wrong
with it is what was wrong with the view. -/
theorem load_after_factory :
    let memory : Memory := Memory.editAll {} brokenImports
    let options : Options := { defaults := [] }
    let cache : Cache Memory MemoryToken :=
      [.factory "/a.cshtml"].foldl (visit options) { project := memory }
    (memory.item "/a.cshtml").present = true ∧ (cache.load options "/a.cshtml").1 ≠
      some (LoadFault.uncached options .pages "/a.cshtml" memory) := by
  decide +kernel

end Cache

end ViewCompiler
