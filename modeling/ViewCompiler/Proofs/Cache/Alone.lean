import ViewCompiler.Proofs.Cache.Calls

/-!
# Calls of a caller that is alone

A caller that meets no other one, over a project in memory, comes to one of two ends. The
entry of its key is not out of date and is returned as it is; or there is no such entry, and
the key gets a new one, built once on the files of that moment, while the files may change
as soon as the tokens are issued. `getOrAdd_alone` says this of the whole call, so that
what holds of many calls need not look into one.
-/

namespace ViewCompiler

/-- Asking tokens changes nothing in memory. -/
instance : Project.Steady Memory where
  changed_asked _ _ _ := rfl

/-- There is nothing to note about asking tokens. -/
theorem Project.Asked.memory {before after : Memory} {events : List Event}
    (asked : Asked before events after) : events = [] ∧ after = before := by
  induction asked with
  | start => exact ⟨rfl, rfl⟩
  | ask earlier token inductionHypothesis =>
    obtain ⟨rfl, rfl⟩ := inductionHypothesis
    exact ⟨rfl, rfl⟩

/-- Nor does issuing tokens. -/
theorem Project.Issues.memory {before after : Memory} {paths : List Text}
    {tokens : List MemoryToken} (issues : Issues before paths tokens after) :
    tokens = paths.map before.token ∧ after = before := by
  induction issues with
  | none => exact ⟨rfl, rfl⟩
  | one path later inductionHypothesis =>
    obtain ⟨rfl, rfl⟩ := inductionHypothesis
    exact ⟨rfl, rfl⟩

namespace Cache

open TemplateUnit

variable {options : Options} {kind : ImportsKind} {key path : Text} {during : Memory → Memory}
  {cache before after : Cache Memory MemoryToken} {entry : Entry MemoryToken}

/-- The files after a build: they change while a template is compiled, and a template that
does not exist is not compiled. -/
def filesAfter (unit : TemplateUnit) (during : Memory → Memory) (memory : Memory) : Memory :=
  if unit.item.present then during memory else memory

/-- A build leaves the files as they are if nothing changes them. -/
@[simp] theorem filesAfter_id (unit : TemplateUnit) (memory : Memory) :
    filesAfter unit id memory = memory := by
  unfold filesAfter
  split <;> rfl

/-- The entry that a build makes under a handle: its tokens are of the files before, and its
outcome is on the files after. -/
def made (options : Options) (kind : ImportsKind) (during : Memory → Memory) (key : Text)
    (handle : Nat) (memory : Memory) : Entry MemoryToken :=
  let unit := (resolve options kind key).run memory
  ⟨handle, key, Outcome.ofUnit options unit (filesAfter unit during memory),
    (targets unit).map memory.token⟩

/-- A cache in which a key was given a new entry, and nothing else was changed. -/
structure Rebuilt (options : Options) (kind : ImportsKind) (during : Memory → Memory) (key : Text)
    (before after : Cache Memory MemoryToken) (entry : Entry MemoryToken) : Prop where
  shape : entry = made options kind during key before.handles.length before.project
  project : after.project =
    filesAfter ((resolve options kind key).run before.project) during before.project
  own : after.slot? key = some (.cached entry)
  others : ∀ other, other ≠ key → after.slot? other = before.slot? other
  stats : after.stats = before.countCompilation.stats
  handles : after.handles = before.handles ++ [.done entry]

/-- A call that builds over a project in memory. -/
theorem Goes.rebuilt {entry : Entry MemoryToken} {compiled : Bool}
    (goes : Goes options kind { during } cache key (.entry entry compiled) after)
    (outdated : cache.Outdated key) : Rebuilt options kind during key cache after entry := by
  cases goes with
  | hits stands current =>
    rw [outdated _ stands] at current
    cases current
  | builds _ asks issues project shape dependents ends =>
    obtain ⟨-, rfl⟩ := asks.memory
    obtain ⟨tokens, rfl⟩ := issues.memory
    have files : after.project =
        filesAfter ((resolve options kind key).run cache.project) during cache.project := project
    refine ⟨?_, files, ends.own, ends.others, ends.stats, ends.handles⟩
    rw [shape, tokens, files]
    rfl

/-- A call either returns the entry of its key, which is not out of date, and is counted as
a hit, or finds no such entry and builds one. -/
theorem getOrAdd_alone (options : Options) (kind : ImportsKind) (during : Memory → Memory)
    (cache : Cache Memory MemoryToken) (path : Text)
    (alone : ∀ handle, cache.slot? (Logical.stripAppRoot path) ≠ some (.pending handle)) :
    (∃ entry, cache.slot? (Logical.stripAppRoot path) = some (.cached entry) ∧
      entry.isExpired cache.project = false ∧
      cache.getOrAdd options kind { during } path = (.entry entry false, cache.countHit)) ∨
    ((∀ entry, cache.slot? (Logical.stripAppRoot path) = some (.cached entry) →
        entry.isExpired cache.project = true) ∧
      ∃ entry compiled after,
        cache.getOrAdd options kind { during } path = (.entry entry compiled, after) ∧
          Rebuilt options kind during (Logical.stripAppRoot path) cache after entry) := by
  have goes := getOrAdd_goes options kind { during } cache path alone
  generalize call : cache.getOrAdd options kind { during } path = reply at goes
  obtain ⟨reply, after⟩ := reply
  have whole := goes
  cases goes with
  | hits stands current asks =>
    obtain ⟨rfl, rfl⟩ := asks.memory
    refine .inl ⟨_, stands, current, ?_⟩
    simp only [List.append_nil]
    rfl
  | builds outdated => exact .inr ⟨outdated, _, _, after, rfl, whole.rebuilt outdated⟩
  | breaksAtOnce _ breaks => cases breaks
  | breaksLate _ breaks => cases breaks

end Cache

end ViewCompiler
