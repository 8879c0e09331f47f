import ViewCompiler.Cache.Flight

/-!
# The moves of a caller

Everything that a caller can do next, with what it has met: one rule for each way on from a
phase. What is true of every run is proved from these rules, and no proof but the one here
looks into a move.
-/

namespace ViewCompiler.Flight

variable {P Token : Type} [Project P Token]

/-- A caller for a key moves from one phase to another and leaves the cache in this state. -/
inductive Moves (options : Options) (cache : Cache P Token) (key : Text) (kind : ImportsKind) :
    Phase Token → Phase Token → Cache P Token → Prop
  | meets {handle : Nat} (claimed : cache.slot? key = some (.pending handle)) :
      Moves options cache key kind .arriving (.joining handle) cache
  | finds {entry : Entry Token} (stands : cache.slot? key = some (.cached entry)) :
      Moves options cache key kind .arriving (.checking entry entry.tokens) cache
  | misses (empty : cache.slot? key = none) :
      Moves options cache key kind .arriving (.claiming none) cache
  | hits {entry : Entry Token} :
      Moves options cache key kind (.checking entry []) (.returned entry) cache.countHit
  | passes {entry : Entry Token} {token : Token} {left : List Token}
      (quiet : Project.changed cache.project token = false) :
      Moves options cache key kind (.checking entry (token :: left)) (.checking entry left)
        (cache.ask token).2
  | expires {entry : Entry Token} {token : Token} {left : List Token}
      (changed : Project.changed cache.project token = true) :
      Moves options cache key kind (.checking entry (token :: left)) (.claiming (some entry.id))
        ((cache.ask token).2.note [.expired key])
  /-- A key is claimed that has no entry, or the entry that was found out of date. -/
  | claims {stale : Option Nat} (free : cache.slot? key = none ∨
        ∃ entry, cache.slot? key = some (.cached entry) ∧ stale = some entry.id) :
      Moves options cache key kind (.claiming stale) (.starting cache.handles.length)
        { cache with
          slots := cache.slots.put key (.pending cache.handles.length)
          handles := cache.handles ++ [.running] }
  | defers {stale : Option Nat} {handle : Nat}
      (claimed : cache.slot? key = some (.pending handle)) :
      Moves options cache key kind (.claiming stale) (.joining handle) cache
  | returns {stale : Option Nat} {entry : Entry Token}
      (stands : cache.slot? key = some (.cached entry)) (another : stale ≠ some entry.id) :
      Moves options cache key kind (.claiming stale) .arriving cache
  | joins {handle : Nat} :
      Moves options cache key kind (.joining handle) (.waiting handle) cache.countCoalesced
  | receives {handle : Nat} {entry : Entry Token}
      (done : cache.progress? handle = some (.done entry)) :
      Moves options cache key kind (.waiting handle) (.returned entry) cache
  | retries {handle : Nat} (abandoned : cache.progress? handle = some .abandoned) :
      Moves options cache key kind (.waiting handle) .arriving cache
  | starts {handle : Nat} :
      Moves options cache key kind (.starting handle)
        (.resolving handle (TemplateUnit.resolve options kind key)) cache.countCompilation
  | asks {handle : Nat} {left : Inquiry TemplateUnit} (more : ∀ unit, left ≠ .answer unit) :
      Moves options cache key kind (.resolving handle left)
        (.resolving handle (left.step cache.project)) cache
  | resolves {handle : Nat} {unit : TemplateUnit} :
      Moves options cache key kind (.resolving handle (.answer unit))
        (.issuing handle unit (Cache.targets unit) [])
        (cache.note (if unit.item.present then [] else [.absent key]))
  | issues {handle : Nat} {unit : TemplateUnit} {path : Text} {left : List Text}
      {issued : List Token} :
      Moves options cache key kind (.issuing handle unit (path :: left) issued)
        (.issuing handle unit left (issued ++ [(cache.issue path).1])) (cache.issue path).2
  | watches {handle : Nat} {unit : TemplateUnit} {issued : List Token} :
      Moves options cache key kind (.issuing handle unit [] issued)
        (.recording handle unit issued) cache
  | compiles {handle : Nat} {unit : TemplateUnit} {tokens : List Token}
      (present : unit.item.present = true) :
      Moves options cache key kind (.recording handle unit tokens)
        (.compiling handle tokens (CompilationResult.attempt options unit))
        ((cache.record key (Cache.targets unit)).note [.compiling key unit.imports.length])
  | concludes {handle : Nat} {unit : TemplateUnit} {tokens : List Token}
      (absent : unit.item.present = false) :
      Moves options cache key kind (.recording handle unit tokens)
        (.installing handle ⟨handle, key, .notFound, tokens⟩)
        (cache.record key (Cache.targets unit))
  | reads {handle : Nat} {tokens : List Token}
      {left : Inquiry (Except Unreadable CompilationResult)}
      (more : ∀ attempted, left ≠ .answer attempted) :
      Moves options cache key kind (.compiling handle tokens left)
        (.compiling handle tokens (left.step cache.project)) cache
  | settles {handle : Nat} {tokens : List Token}
      {attempted : Except Unreadable CompilationResult} :
      Moves options cache key kind (.compiling handle tokens (.answer attempted))
        (.installing handle ⟨handle, key, .compiled (CompilationResult.settle attempted), tokens⟩)
        (cache.note (CompilationResult.notes attempted))
  | installs {handle : Nat} {entry : Entry Token} :
      Moves options cache key kind (.installing handle entry) (.completing handle entry)
        (cache.install key entry)
  | completes {handle : Nat} {entry : Entry Token} :
      Moves options cache key kind (.completing handle entry) (.returned entry)
        (cache.complete handle entry)
  | releases {handle : Nat} :
      Moves options cache key kind (.releasing handle) (.abandoning handle)
        (cache.release key handle)
  | abandons {handle : Nat} :
      Moves options cache key kind (.abandoning handle) .broken (cache.abandon handle)

variable {options : Options} {cache after : Cache P Token} {caller : Caller Token}
  {next : Phase Token}

/-- A caller that claims a key moves on by what stands under the key. -/
theorem claiming_moves {key : Text} {kind : ImportsKind} {stale : Option Nat}
    (moved : move options cache ⟨key, kind, .claiming stale⟩ = some (next, after)) :
    Moves options cache key kind (.claiming stale) next after := by
  simp only [move, Cache.claim] at moved
  cases stands : cache.slot? key with
  | none =>
    rw [stands] at moved
    cases moved
    exact .claims (.inl stands)
  | some slot =>
    rw [stands] at moved
    cases slot with
    | pending handle =>
      cases moved
      exact .defers stands
    | cached entry =>
      by_cases same : stale = some entry.id
      · simp only [same, if_true] at moved
        cases moved
        exact .claims (.inr ⟨entry, stands, same⟩)
      · simp only [same, if_false] at moved
        cases moved
        exact .returns stands same

/-- Every move is one of these. -/
theorem moves_of_move (moved : move options cache caller = some (next, after)) :
    Moves options cache caller.key caller.kind caller.phase next after := by
  obtain ⟨key, kind, phase⟩ := caller
  cases phase with
  | arriving =>
    simp only [move] at moved
    split at moved <;> cases moved
    · exact .meets ‹_›
    · exact .finds ‹_›
    · exact .misses ‹_›
  | checking entry left =>
    cases left with
    | nil =>
      cases moved
      exact .hits
    | cons token left =>
      simp only [move] at moved
      split at moved <;> cases moved
      · rename_i changed
        exact .expires changed
      · rename_i quiet
        exact .passes (Bool.eq_false_iff.mpr quiet)
  | claiming stale => exact claiming_moves moved
  | joining handle =>
    cases moved
    exact .joins
  | waiting handle =>
    simp only [move] at moved
    split at moved <;> cases moved
    · exact .receives ‹_›
    · exact .retries ‹_›
  | starting handle =>
    cases moved
    exact .starts
  | resolving handle left =>
    cases left with
    | answer unit =>
      cases moved
      exact .resolves
    | item path follow =>
      cases moved
      exact .asks nofun
    | text asked follow =>
      cases moved
      exact .asks nofun
  | issuing handle unit left issued =>
    cases left with
    | nil =>
      cases moved
      exact .watches
    | cons path left =>
      cases moved
      exact .issues
  | recording handle unit tokens =>
    simp only [move] at moved
    split at moved <;> cases moved
    · exact .compiles ‹_›
    · exact .concludes (Bool.eq_false_iff.mpr ‹_›)
  | compiling handle tokens left =>
    cases left with
    | answer attempted =>
      cases moved
      exact .settles
    | item path follow =>
      cases moved
      exact .reads nofun
    | text asked follow =>
      cases moved
      exact .reads nofun
  | installing handle entry =>
    cases moved
    exact .installs
  | completing handle entry =>
    cases moved
    exact .completes
  | releasing handle =>
    cases moved
    exact .releases
  | abandoning handle =>
    cases moved
    exact .abandons
  | returned => simp [move] at moved
  | broken => simp [move] at moved

end ViewCompiler.Flight
