import ViewCompiler.Proofs.Cache.Alone
import ViewCompiler.Proofs.Memory.Tally
import ViewCompiler.Proofs.Path.ImportChain

/-!
# The ledger of a cache

A ledger has for each key that has an entry an account of it: the kind of imports that it
was made with, the paths that are watched for it, and the paths that changed since its
tokens were issued. It knows neither tokens nor generations nor entries, and is kept from
what happens alone: what is watched for a key is read off the spelling of the key and the
chain of its directories, and no unit is resolved for it. Yet it tells which entries are out of
date: a cache over a project in memory and the ledger that is kept beside it stay in step,
whatever files change and whichever keys are asked for.
-/

namespace ViewCompiler

/-- What is on record of an entry. -/
structure Account where
  /-- The kind of imports that the entry was made with; one that was there from the
  beginning was made with none. -/
  kind : Option ImportsKind
  /-- The paths whose change makes the entry out of date. -/
  watched : List Text
  /-- The canonical paths that changed since the entry's tokens were issued. -/
  changed : List Text

namespace Account

/-- Whether no watched path changed. A path that is not under the root does not change. -/
def isCurrent (account : Account) : Bool :=
  account.watched.all fun path =>
    (Logical.normalize path).all fun canonical => !account.changed.contains canonical

/-- The account after more paths changed. -/
def enter (account : Account) (paths : List Text) : Account :=
  { account with changed := account.changed ++ paths }

/-- An account is current if no canonical path of a watched one is among the changed ones. -/
theorem isCurrent_iff {account : Account} : account.isCurrent = true ↔
    ∀ path ∈ account.watched, ∀ canonical, Logical.normalize path = some canonical →
      canonical ∉ account.changed := by
  simp [isCurrent, Option.all_eq_true]

end Account

/-- The files of a project, and accounts by key. -/
structure Ledger where
  memory : Memory
  accounts : Text → Option Account

namespace Ledger

/-- Whether a key has an entry that is not out of date. -/
def isCurrent (ledger : Ledger) (key : Text) : Bool := (ledger.accounts key).any Account.isCurrent

/-- A change of a file is entered in every account. -/
def edit (ledger : Ledger) (change : Memory.Edit) : Ledger where
  memory := ledger.memory.edit change
  accounts key := (ledger.accounts key).map (·.enter (ledger.memory.reached? change).toList)

/-- Opens an account for a key, in the place of an earlier one. -/
def open_ (ledger : Ledger) (key : Text) (account : Account) : Ledger where
  memory := ledger.memory
  accounts other := if other = key then some account else ledger.accounts other

/-- Whether a key names a file. One that leaves the root names none. -/
def hasFile (ledger : Ledger) (key : Text) : Bool :=
  (Logical.normalize key).any fun canonical => (ledger.memory.content? canonical).isSome

/-- The paths that are watched for a key: its canonical path and, if there is a template, the
files of the import name in all directories from the root down to that of the template, whether
they exist or not. Nothing else is watched if there is no template, and a key that leaves the
root, where nothing changes, is watched as it is spelled. -/
def watched (options : Options) (ledger : Ledger) (kind : ImportsKind) (key : Text) : List Text :=
  match Logical.normalize key with
  | none => [key]
  | some canonical =>
    let names := (Text.pieces (· == '/') canonical).filter (!·.isEmpty)
    let candidates := Logical.importChain names (options.importName kind)
    if ledger.hasFile key then canonical :: candidates.filter (· ≠ canonical) else [canonical]

/-- A call for a key opens an account unless the key has an entry that is not out of date.
Then the template is compiled, if there is one, and files may change while it is. -/
def ask (options : Options) (ledger : Ledger) (kind : ImportsKind) (during : List Memory.Edit)
    (key : Text) : Ledger :=
  if ledger.isCurrent key then ledger
  else
    let opened := ledger.open_ key ⟨some kind, ledger.watched options kind key, []⟩
    if ledger.hasFile key then during.foldl edit opened else opened

variable {options : Options} {kind : ImportsKind} {key : Text} {ledger : Ledger}

/-- A unit has a template if its key names a file. -/
theorem hasFile_eq : ledger.hasFile key =
    ((TemplateUnit.resolve options kind key).run ledger.memory).item.present := by
  rw [TemplateUnit.resolve_present]
  have seen : Project.Sighted.seen ledger.memory key =
      (Logical.normalize key).bind ledger.memory.content? := rfl
  rw [seen, hasFile]
  cases Logical.normalize key <;> rfl

/-- The tokens of the watched paths are those that are issued for the unit of the key. -/
theorem watched_tokens (origin : Memory) : (ledger.watched options kind key).map origin.token =
    (Cache.targets ((TemplateUnit.resolve options kind key).run ledger.memory)).map
      origin.token := by
  have spelled (path : Text) :
      origin.token ((Logical.normalize path).getD path) = origin.token path := by
    cases normal : Logical.normalize path with
    | none => rfl
    | some canonical =>
      rw [Option.getD_some, Memory.token, Memory.token, normal, Logical.normalize_canonical normal]
  have own : ((TemplateUnit.resolve options kind key).run ledger.memory).item.path =
      (Logical.normalize key).getD key := by
    rw [TemplateUnit.resolve_items, Project.Sighted.item_path]
  rw [Cache.targets, ← hasFile_eq]
  cases present : ledger.hasFile key with
  | false =>
    rw [if_neg Bool.false_ne_true, own, watched]
    cases normal : Logical.normalize key <;> simp [present]
  | true =>
    rw [if_pos rfl, TemplateUnit.watched_resolve, List.map_map, watched]
    cases normal : Logical.normalize key with
    | none => simp [hasFile, normal] at present
    | some canonical =>
      have template : origin.token canonical = origin.token key := by
        rw [← spelled key, normal, Option.getD_some]
      simp only [present, Option.getD_some, ↓reduceIte, List.map_cons, Function.comp_def, spelled,
        template, Logical.hierarchicalCandidates_canonical normal]

end Ledger

variable {memory : Memory} {entry : Entry MemoryToken} {account : Account} {ledger : Ledger}
  {cache : Cache Memory MemoryToken} {key : Text}

/-- The account is one of the entry: the entry has tokens for the watched paths, issued in
an earlier state, and the paths that changed since are those in the account. -/
def Account.Covers (account : Account) (memory : Memory) (entry : Entry MemoryToken) : Prop :=
  ∃ origin : Memory, origin.Dated ∧ origin.Tallied memory account.changed ∧
    entry.tokens = account.watched.map origin.token

/-- An entry is out of date exactly if its account is not current. -/
theorem Account.Covers.isExpired_eq (covers : account.Covers memory entry) :
    entry.isExpired memory = !account.isCurrent := by
  obtain ⟨origin, -, tallied, tokens⟩ := covers
  have expired : entry.isExpired memory = true ↔ ¬ account.isCurrent = true := by
    rw [Account.isCurrent_iff, Entry.isExpired, tokens, List.any_map, List.any_eq_true]
    simp only [not_forall, not_not]
    constructor
    · rintro ⟨path, watched, reported⟩
      obtain ⟨canonical, normal, changed⟩ := tallied.token_changed_iff.mp reported
      exact ⟨path, watched, canonical, normal, changed⟩
    · rintro ⟨path, watched, canonical, normal, changed⟩
      exact ⟨path, watched, tallied.token_changed_iff.mpr ⟨canonical, normal, changed⟩⟩
  rw [Bool.eq_iff_iff, expired, Bool.not_eq_true, Bool.not_eq_true']

/-- An account that changes are entered in remains one of the entry. -/
theorem Account.Covers.edit (covers : account.Covers memory entry) (dated : memory.Dated)
    (change : Memory.Edit) :
    (account.enter (memory.reached? change).toList).Covers (memory.edit change) entry := by
  obtain ⟨origin, datedOrigin, tallied, tokens⟩ := covers
  exact ⟨origin, datedOrigin, tallied.edit datedOrigin dated change, tokens⟩

/-- The ledger is kept in step with the cache: they have the same files, and each key that
has an entry has an account of it. No key is being built. -/
structure Cache.KeptBy (cache : Cache Memory MemoryToken) (ledger : Ledger) : Prop where
  files : cache.project = ledger.memory
  dated : ledger.memory.Dated
  vacant : ∀ key, cache.slot? key = none → ledger.accounts key = none
  taken : ∀ key slot, cache.slot? key = some slot → ∃ entry account, slot = .cached entry ∧
    entry.id < cache.handles.length ∧ ledger.accounts key = some account ∧
      account.Covers ledger.memory entry

namespace Cache.KeptBy

/-- No key is being built. -/
theorem alone (kept : cache.KeptBy ledger) (key : Text) (handle : Nat) :
    cache.slot? key ≠ some (.pending handle) := by
  intro stands
  obtain ⟨entry, _, cached, -⟩ := kept.taken key _ stands
  cases cached

/-- The account of an entry. -/
theorem recorded (kept : cache.KeptBy ledger) (stands : cache.slot? key = some (.cached entry)) :
    ∃ account, ledger.accounts key = some account ∧ account.Covers ledger.memory entry := by
  obtain ⟨other, account, cached, -, entered, covers⟩ := kept.taken key _ stands
  cases cached
  exact ⟨account, entered, covers⟩

/-- Every entry was made under an earlier handle than the next one. -/
theorem id_lt (kept : cache.KeptBy ledger) (stands : cache.slot? key = some (.cached entry)) :
    entry.id < cache.handles.length := by
  obtain ⟨other, account, cached, earlier, -⟩ := kept.taken key _ stands
  cases cached
  exact earlier

/-- The ledger tells whether a key has an entry that is not out of date. -/
theorem isCurrent_iff (kept : cache.KeptBy ledger) : ledger.isCurrent key = true ↔
    ∃ entry, cache.slot? key = some (.cached entry) ∧ entry.isExpired cache.project = false := by
  unfold Ledger.isCurrent
  constructor
  · intro current
    cases stands : cache.slot? key with
    | none => simp [kept.vacant key stands] at current
    | some slot =>
      obtain ⟨entry, account, rfl, -, recorded, covers⟩ := kept.taken key slot stands
      refine ⟨entry, rfl, ?_⟩
      rw [kept.files, covers.isExpired_eq]
      simpa [recorded] using current
  · rintro ⟨entry, stands, quiet⟩
    obtain ⟨account, recorded, covers⟩ := kept.recorded stands
    rw [kept.files, covers.isExpired_eq] at quiet
    simpa [recorded] using quiet

/-- A change of a file keeps the ledger in step. -/
theorem edit (kept : cache.KeptBy ledger) (change : Memory.Edit) :
    ({ cache with project := cache.project.edit change } : Cache Memory MemoryToken).KeptBy
      (ledger.edit change) := by
  refine ⟨?_, (Memory.edit_since kept.dated change).2, ?_, ?_⟩
  · simp only [Ledger.edit, kept.files]
  · intro key empty
    have none : ledger.accounts key = none := kept.vacant key empty
    simp only [Ledger.edit, none, Option.map_none]
  · intro key slot stands
    obtain ⟨entry, account, cached, earlier, recorded, covers⟩ := kept.taken key slot stands
    refine ⟨entry, _, cached, earlier, ?_, covers.edit kept.dated change⟩
    simp only [Ledger.edit, recorded, Option.map_some]

/-- So do many changes. -/
theorem editAll (kept : cache.KeptBy ledger) (changes : List Memory.Edit) :
    ({ cache with project := cache.project.editAll changes } : Cache Memory MemoryToken).KeptBy
      (changes.foldl Ledger.edit ledger) := by
  induction changes generalizing cache ledger with
  | nil => exact kept
  | cons change changes inductionHypothesis => exact inductionHypothesis (kept.edit change)

/-- A new entry with tokens of the present files, and an account for it. -/
theorem open_ (kept : cache.KeptBy ledger) (after : Cache Memory MemoryToken)
    (files : after.project = cache.project) (own : after.slot? key = some (.cached entry))
    (others : ∀ other, other ≠ key → after.slot? other = cache.slot? other)
    (handles : after.handles = cache.handles ++ [.done entry])
    (id : entry.id = cache.handles.length) {kind : Option ImportsKind} {watched : List Text}
    (tokens : entry.tokens = watched.map cache.project.token) :
    after.KeptBy (ledger.open_ key ⟨kind, watched, []⟩) := by
  have grown : after.handles.length = cache.handles.length + 1 := by simp [handles]
  refine ⟨files.trans kept.files, kept.dated, ?_, ?_⟩
  · intro other empty
    have differs : other ≠ key := by
      rintro rfl
      simp [own] at empty
    simpa [Ledger.open_, differs] using kept.vacant other (others other differs ▸ empty)
  · intro other slot stands
    by_cases same : other = key
    · subst same
      obtain rfl := Option.some.inj (own.symm.trans stands)
      refine ⟨entry, ⟨kind, watched, []⟩, rfl, by omega, by simp [Ledger.open_], ledger.memory,
        kept.dated, .start _, ?_⟩
      rw [tokens, kept.files]
    · rw [others other same] at stands
      obtain ⟨old, account, cached, earlier, recorded, covers⟩ := kept.taken other slot stands
      exact ⟨old, account, cached, by omega, by simpa [Ledger.open_, same] using recorded, covers⟩

/-- A call that builds keeps the ledger in step. -/
theorem rebuilt {after : Cache Memory MemoryToken} {options : Options} {kind : ImportsKind}
    {during : List Memory.Edit} (kept : cache.KeptBy ledger)
    (outdated : ledger.isCurrent key = false)
    (rebuilt : Rebuilt options kind (·.editAll during) key cache after entry) :
    after.KeptBy (ledger.ask options kind during key) := by
  let issued : Cache Memory MemoryToken := { after with project := cache.project }
  have opened : issued.KeptBy
      (ledger.open_ key ⟨some kind, ledger.watched options kind key, []⟩) := by
    apply kept.open_ issued rfl rebuilt.own rebuilt.others rebuilt.handles
    · rw [rebuilt.shape]
      rfl
    · rw [rebuilt.shape, Ledger.watched_tokens]
      simp only [made, kept.files]
  have files : after.project = if ledger.hasFile key then ledger.memory.editAll during
      else ledger.memory := by
    rw [@Ledger.hasFile_eq options kind, rebuilt.project, kept.files]
    rfl
  simp only [Ledger.ask, outdated, Bool.false_eq_true, ↓reduceIte]
  cases present : ledger.hasFile key with
  | true =>
    rw [present, if_pos rfl] at files
    have same : after = { issued with project := issued.project.editAll during } := by
      simp only [issued, kept.files, ← files]
    rw [if_pos rfl, same]
    exact opened.editAll during
  | false =>
    rw [present, if_neg Bool.false_ne_true] at files
    have same : after = issued := by
      simp only [issued, kept.files, ← files]
    rw [if_neg Bool.false_ne_true, same]
    exact opened

/-- A call returns the entry of a key whose account is current, and builds any other key
anew. Either way it keeps the ledger in step. -/
theorem getOrAdd (kept : cache.KeptBy ledger) (options : Options) (kind : ImportsKind)
    (path : Text) (during : List Memory.Edit) :
    let key := Logical.stripAppRoot path
    let call := cache.getOrAdd options kind { during := (·.editAll during) } path
    (ledger.isCurrent key = true ∧ (∃ entry, cache.slot? key = some (.cached entry) ∧
        entry.isExpired cache.project = false ∧ call = (.entry entry false, cache.countHit)) ∨
      ledger.isCurrent key = false ∧ ∃ entry compiled after, call = (.entry entry compiled, after) ∧
        Rebuilt options kind (·.editAll during) key cache after entry) ∧
      call.2.KeptBy (ledger.ask options kind during key) := by
  intro key call
  rcases getOrAdd_alone options kind (·.editAll during) cache path (kept.alone key) with
    ⟨entry, stands, quiet, returned⟩ | ⟨outdated, entry, compiled, after, returned, rebuilt⟩
  · have current : ledger.isCurrent key = true := kept.isCurrent_iff.mpr ⟨entry, stands, quiet⟩
    refine ⟨.inl ⟨current, entry, stands, quiet, returned⟩, ?_⟩
    simp only [call, returned, Ledger.ask, current, ↓reduceIte]
    exact ⟨kept.files, kept.dated, kept.vacant, kept.taken⟩
  · have current : ledger.isCurrent key = false := by
      rw [← Bool.not_eq_true, kept.isCurrent_iff]
      rintro ⟨old, stands, quiet⟩
      exact Bool.false_ne_true (quiet.symm.trans (outdated old stands))
    simp only [call, returned]
    exact ⟨.inr ⟨current, entry, compiled, after, rfl, rebuilt⟩, kept.rebuilt current rebuilt⟩

end Cache.KeptBy

end ViewCompiler
