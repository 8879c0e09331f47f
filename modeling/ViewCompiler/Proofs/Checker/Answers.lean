import ViewCompiler.Checker
import ViewCompiler.Proofs.Cache.Vouching
import ViewCompiler.Proofs.Directory.Sight

/-!
# What a check answers

A check reports on the outcome of its template, whether the cache has it or it is compiled
anew. If the entries of the cache are vouched for, the outcome that is reported is the one that
the template has on the disk as it is, and the entries remain vouched for. That a page is looked
for before the cache is asked makes no difference to what is reported.
-/

namespace ViewCompiler.Checker

open TemplateUnit

variable {sound : Directory → Prop}
  {minds : Directory → Option Octets → Text → DirectoryToken → Prop} {checker : Checker}
  {kind : ImportsKind} {kindOf : Text → ImportsKind} {path : Text}

/-- What an outcome comes to in a report. Pages are never reported as precompiled. -/
def statusOn (kind : ImportsKind) : Outcome → TemplateStatus
  | .notFound => .notFound
  | .compiled (.failure failures) => .failed failures
  | .compiled (.success type precompiled) => .compiled type.name (kind = .views && precompiled)

/-- The report on a template on the disk as it is, compiled afresh. -/
def afresh (checker : Checker) (path : Text) (kind : ImportsKind) : TemplateReport :=
  ⟨path, kind, statusOn kind
    (Outcome.on checker.options kind (Logical.stripAppRoot path) checker.cache.project)⟩

/-- A factory of an entry comes to what the outcome of the entry does, asked for as a view. -/
theorem statusOfFactory_ofEntry (path : Text) (entry : Entry DirectoryToken) :
    statusOfFactory (some (.ofEntry path entry)) = statusOn .views entry.outcome := by
  unfold FactoryResult.ofEntry
  cases entry.outcome with
  | notFound => rfl
  | compiled result => cases result <;> rfl

/-- A page of an entry comes to what the outcome of the entry does, asked for as a page. -/
theorem statusOfLoad_ofEntry (path : Text) (entry : Entry DirectoryToken) :
    statusOfLoad (some (LoadFault.ofEntry path entry)) = statusOn .pages entry.outcome := by
  unfold LoadFault.ofEntry
  cases entry.outcome with
  | notFound => rfl
  | compiled result => cases result <;> rfl

/-- A template that shows nothing is not found. -/
theorem on_absent {options : Options} {directory : Directory}
    (absent : (Project.item directory path).present = false) :
    Outcome.on options kind (Logical.stripAppRoot path) directory = .notFound := by
  rw [Project.Sighted.item_present, ← Project.seen_stripAppRoot] at absent
  rw [Outcome.on, Outcome.ofUnitOn, resolve_present, absent]
  rfl

/-- A key that is asked for by itself is the same key. -/
theorem getOrAdd_key {P Token : Type} [Project P Token] (options : Options) (kind : ImportsKind)
    (cache : Cache P Token) (path : Text) :
    cache.getOrAdd options kind {} (Logical.stripAppRoot path) =
      cache.getOrAdd options kind {} path := by
  unfold Cache.getOrAdd
  rw [Logical.stripAppRoot_stripAppRoot]

/-- A check asks the cache for its template, has the cache that the call leaves behind, and
reports on the entry that the call returns, unless it is of a page that is not there: this is
not found, and the cache is not asked. -/
theorem check_cases (checker : Checker) (path : Text) (kind : ImportsKind) :
    let call := checker.cache.getOrAdd checker.options kind {} path
    ((checker.check path kind).2 = { checker with cache := call.2 } ∧
      ∀ entry compiled, call.1 = .entry entry compiled →
        (checker.check path kind).1 = ⟨path, kind, statusOn kind entry.outcome⟩) ∨
      (Project.item checker.cache.project path).present = false ∧
        checker.check path kind = (⟨path, kind, .notFound⟩, checker) := by
  intro call
  have called : checker.cache.getOrAdd checker.options kind {} path = (call.1, call.2) := rfl
  cases kind with
  | views =>
    left
    simp only [check, Cache.createFactory, getOrAdd_key, called]
    cases call.1 with
    | entry entry compiled =>
      refine ⟨rfl, ?_⟩
      rintro _ _ ⟨⟩
      simp only [statusOfFactory_ofEntry]
    | broken place => exact ⟨rfl, nofun⟩
    | blocked => exact ⟨rfl, nofun⟩
  | pages =>
    cases present : (Project.item checker.cache.project path).present with
    | false =>
      right
      simp only [check, Cache.load, present, Bool.false_eq_true, ↓reduceIte, statusOfLoad, and_self]
    | true =>
      left
      simp only [check, Cache.load, present, ↓reduceIte, called]
      cases call.1 with
      | entry entry compiled =>
        refine ⟨rfl, ?_⟩
        rintro _ _ ⟨⟩
        simp only [statusOfLoad_ofEntry]
      | broken place => exact ⟨rfl, nofun⟩
      | blocked => exact ⟨rfl, nofun⟩

/-- A check of a cache whose entries are vouched for reports what there is to report on the disk
as it is, and leaves the entries vouched for. -/
theorem check_vouched (vouches : Project.Vouches sound minds)
    (vouched : checker.cache.VouchedFor sound minds checker.options kindOf)
    (same : kindOf (Logical.stripAppRoot path) = kind) (inPath : '\n' ∉ path)
    (inName : '\n' ∉ checker.options.importName kind) :
    (checker.check path kind).1 = checker.afresh path kind ∧
      (checker.check path kind).2.options = checker.options ∧
      (checker.check path kind).2.cache.VouchedFor sound minds checker.options kindOf := by
  rcases checker.check_cases path kind with ⟨left, report⟩ | ⟨absent, missing⟩
  · have inKey : '\n' ∉ Logical.stripAppRoot path := fun member =>
      inPath ((Logical.stripAppRoot_sublist path).subset member)
    have goes := Cache.getOrAdd_goes checker.options kind {} checker.cache path (vouched.alone _)
    rw [← same] at goes
    obtain ⟨⟨entry, compiled, reply, outcome⟩, after⟩ :=
      goes.vouched vouches vouched inKey (same ▸ inName)
    rw [same] at reply outcome after
    rw [report entry compiled reply, left, outcome, afresh]
    exact ⟨rfl, rfl, after⟩
  · rw [missing, afresh, on_absent absent]
    exact ⟨rfl, rfl, vouched⟩

end ViewCompiler.Checker
