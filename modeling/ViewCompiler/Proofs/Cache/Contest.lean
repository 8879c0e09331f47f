import ViewCompiler.Proofs.Cache.Alone
import ViewCompiler.Proofs.Cache.Ending

/-!
# Many callers of one key

Callers who ask for one key that has no entry that is up to date contend for the build. While
the project does not change, one build wins: the first that installs its entry. Before that,
nobody returns, and whoever finds an entry finds the one that is out of date; the builds that
were begun are those that are on their way and those that broke off. Afterwards, nobody claims
the key again, because the tokens of the new entry report no change, and the entry that was out
of date is told apart from it by its handle. Either no build wins, and all callers break off, or
all who do not break off return the entry of the one that won.
-/

namespace ViewCompiler

/-- A call for this key, a move or a break. -/
def Flight.Action.For {P : Type} (key : Text) : Flight.Action P → Prop
  | .call path _ => Logical.stripAppRoot path = key
  | .advance _ | .breakOff _ => True
  | .edit _ => False

instance {P : Type} (key : Text) : DecidablePred (Flight.Action.For (P := P) key)
  | .call path _ => inferInstanceAs (Decidable (Logical.stripAppRoot path = key))
  | .advance _ | .breakOff _ => .isTrue trivial
  | .edit _ => .isFalse id

namespace Phase

variable {Token : Type}

/-- Whether a build in this phase was counted and has not installed its entry. -/
def begun : Phase Token → Nat
  | .resolving .. | .issuing .. | .recording .. | .compiling .. | .installing .. | .releasing _
  | .abandoning _ | .broken => 1
  | _ => 0

/-- A build that can break off was counted. -/
theorem begun_of_building {phase : Phase Token} {handle : Nat}
    (building : phase.building? = some handle) : phase.begun = 1 := by
  cases phase <;> first | rfl | cases building

/-- When a call is over, a build that was counted has installed its entry or broken off. -/
theorem begun_of_over {phase : Phase Token} (ended : phase.isOver = true) :
    phase.begun = phase.breaking := by
  cases phase <;> first | rfl | cases ended

/-- A call that is over was counted. -/
theorem counted_eq_one_of_over {phase : Phase Token} (ended : phase.isOver = true) :
    phase.counted = 1 := by
  cases phase <;> first | rfl | cases ended

/-- When a call is over, it has no build to end. -/
theorem build?_of_over {phase : Phase Token} (ended : phase.isOver = true) :
    phase.build? = none := by
  cases phase <;> first | rfl | cases ended

/-- Whether a build in this phase is about to install its entry. -/
def winning : Phase Token → Nat
  | .installing .. => 1
  | _ => 0

/-- Whether the call ended because its build broke off. -/
def isBroken : Phase Token → Bool
  | .broken => true
  | _ => false

end Phase

namespace Flight

variable {P Token : Type} [Project P Token]

/-- A build that was counted goes on until it installs its entry. -/
theorem Moves.compilations {options : Options} {cache after : Cache P Token} {key : Text}
    {kind : ImportsKind} {phase next : Phase Token}
    (moves : Moves options cache key kind phase next after) :
    after.stats.compilations + phase.begun =
      cache.stats.compilations + next.begun + phase.winning := by
  cases moves with
  | releases => rw [release_stats]; rfl
  | meets | finds | misses | hits | passes | expires | claims | defers | returns | joins | receives
  | retries | starts | asks | resolves | issues | watches | compiles | concludes | reads | settles
  | installs | completes | abandons => rfl

variable [Project.Discreet P]

section Tokens

variable {before after : P} {tokens : List Token}

/-- These tokens were issued and report no change. -/
def Quiet (project : P) (tokens : List Token) : Prop :=
  ∀ token ∈ tokens, Project.Discreet.Issued project token ∧ Project.changed project token = false

/-- One of these tokens was issued and reports a change. -/
def Stale (project : P) (tokens : List Token) : Prop :=
  ∃ token ∈ tokens, Project.Discreet.Issued project token ∧ Project.changed project token = true

variable [Project.Steady P]

/-- Tokens that report no change still report none when a caller has moved. -/
theorem Quiet.touched (quiet : Quiet before tokens) (touches : Project.Touches before after) :
    Quiet after tokens := by
  intro token member
  obtain ⟨issued, unchanged⟩ := quiet token member
  exact ⟨touches.honest token issued, (touches.changed issued).trans unchanged⟩

/-- A token that reports a change still reports it when a caller has moved. -/
theorem Stale.touched (stale : Stale before tokens) (touches : Project.Touches before after) :
    Stale after tokens := by
  obtain ⟨token, member, issued, reports⟩ := stale
  exact ⟨token, member, touches.honest token issued, (touches.changed issued).trans reports⟩

/-- A token that is issued now joins those that report no change. -/
theorem Quiet.issue (quiet : Quiet before tokens) (path : Text) :
    Quiet (Project.issue before path).2 (tokens ++ [(Project.issue before path).1]) := by
  intro token member
  rcases List.mem_append.mp member with earlier | new
  · exact (quiet.touched (.issues path)) token earlier
  · rw [List.mem_singleton.mp new]
    exact ⟨Project.Discreet.own before path, Project.Discreet.changed_own before path⟩

end Tokens

/-- What stands under the key that callers contend for, when this entry has won, if any has. -/
structure Arena (base : Cache P Token) (key : Text) (winner : Option (Entry Token))
    (cache : Cache P Token) : Prop where
  /-- Before a build has won, only an entry that was there at first stands under the key, and
  it is out of date. -/
  cached : ∀ entry, cache.slot? key = some (.cached entry) → winner = some entry ∨
    (winner = none ∧ base.progress? entry.id ≠ none ∧ Stale cache.project entry.tokens)
  won : ∀ entry, winner = some entry → cache.slot? key = some (.cached entry) ∧
    base.progress? entry.id = none ∧ Quiet cache.project entry.tokens
  done : ∀ handle entry, base.progress? handle = none →
    cache.progress? handle = some (.done entry) → winner = some entry

/-- What a caller in this phase has in hand. -/
def Contends (base : Cache P Token) (winner : Option (Entry Token)) (project : P) :
    Phase Token → Prop
  | .checking entry left => (winner = some entry ∧ Quiet project left) ∨
      (base.progress? entry.id ≠ none ∧ Stale project left)
  | .claiming stale => ∀ id, stale = some id → base.progress? id ≠ none
  | .issuing _ _ _ issued => Quiet project issued
  | .recording _ _ tokens | .compiling _ tokens _ => Quiet project tokens
  | .installing _ entry => Quiet project entry.tokens
  | .completing _ entry | .returned entry => winner = some entry
  | _ => True

variable {base cache after : Cache P Token} {key : Text} {winner : Option (Entry Token)}
  {phase next : Phase Token}

/-- A caller has in hand what it had when an entry wins. -/
theorem Contends.win {project : P} (contends : Contends base none project phase)
    (entry : Entry Token) : Contends base (some entry) project phase := by
  cases phase with
  | checking found left =>
    rcases contends with ⟨won, -⟩ | stale
    · cases won
    · exact .inr stale
  | completing | returned => cases contends
  | claiming | issuing | recording | compiling | installing => exact contends
  | arriving | joining | waiting | starting | resolving | releasing | abandoning | broken =>
    trivial

/-- A key that is claimed has no winner: nobody claims it in the place of an entry that has won. -/
theorem Arena.claims (arena : Arena base key winner cache) {stale : Option Nat}
    (free : cache.slot? key = none ∨
      ∃ entry, cache.slot? key = some (.cached entry) ∧ stale = some entry.id)
    (known : ∀ id, stale = some id → base.progress? id ≠ none)
    (slots : after.slots = cache.slots.put key (.pending cache.handles.length))
    (handles : after.handles = cache.handles ++ [.running]) : Arena base key winner after := by
  have unwon (entry : Entry Token) : winner ≠ some entry := by
    intro won
    obtain ⟨stands, fresh, -⟩ := arena.won entry won
    rcases free with empty | ⟨other, cached, same⟩
    · rw [stands] at empty
      cases empty
    · rw [stands] at cached
      cases cached
      exact known _ same fresh
  refine ⟨?_, fun entry won => absurd won (unwon entry), ?_⟩
  · intro entry stands
    rw [slot?_put slots, if_pos rfl] at stands
    cases stands
  · intro handle entry fresh done
    rw [progress?_append handles] at done
    split at done
    · cases done
    · exact arena.done handle entry fresh done

/-- While a claim of the key is held, no entry has won. -/
theorem Arena.unwon (arena : Arena base key winner cache) {handle : Nat}
    (claimed : cache.slot? key = some (.pending handle)) : winner = none := by
  cases winner with
  | none => rfl
  | some entry =>
    have stands := (arena.won entry rfl).1
    rw [claimed] at stands
    cases stands

/-- An entry that is installed wins. -/
theorem Arena.installs (arena : Arena base key none cache) {entry : Entry Token}
    (fresh : base.progress? entry.id = none) (quiet : Quiet cache.project entry.tokens) :
    Arena base key (some entry) (cache.install key entry) := by
  have own : (cache.install key entry).slot? key = some (.cached entry) := by
    rw [slot?_put rfl, if_pos rfl]
  refine ⟨?_, ?_, ?_⟩
  · intro other stands
    rw [own] at stands
    cases stands
    exact .inl rfl
  · rintro _ ⟨⟩
    exact ⟨own, fresh, quiet⟩
  · intro handle other unknown done
    have before := arena.done handle other unknown done
    cases before

/-- Callers contend for a key. -/
structure Contest (base : Cache P Token) (key : Text) (winner : Option (Entry Token))
    (flight : Flight P Token) : Prop where
  keys : ∀ {index : Nat} {caller : Caller Token}, flight.callers[index]? = some caller →
    caller.key = key
  arena : Arena base key winner flight.cache
  callers : ∀ {index : Nat} {caller : Caller Token}, flight.callers[index]? = some caller →
    Contends base winner flight.cache.project caller.phase
  builds : flight.cache.stats.compilations = base.stats.compilations +
    flight.tally (·.phase.begun) + winner.isSome.toNat

variable {flight : Flight P Token} {options : Options} {marks : List (Mark Token)} {index : Nat}
  {caller : Caller Token}

/-- A caller in another phase has the key that it had. -/
theorem Contest.keys_withPhase (contest : Contest base key winner flight)
    (found : flight.callers[index]? = some caller) {other : Nat} {known : Caller Token}
    (there : (flight.withPhase index phase after).callers[other]? = some known) :
    known.key = key := by
  rcases callers_withPhase found there with ⟨-, rfl⟩ | ⟨-, before⟩
  · have own := contest.keys found
    exact own
  · exact contest.keys before

/-- A caller that installs its entry wins. -/
theorem Contest.install (contest : Contest base key winner flight) (orderly : Orderly flight)
    (recorded : Recorded ⟨options, base, []⟩ flight marks) {kind : ImportsKind} {handle : Nat}
    {entry : Entry Token}
    (found : flight.callers[index]? = some ⟨key, kind, .installing handle entry⟩) :
    Contest base key (some entry)
      (flight.withPhase index (.completing handle entry) (flight.cache.install key entry)) := by
  have holds : flight.Has Phase.claim? index key handle := ⟨_, found, rfl, rfl⟩
  have brings : flight.Has Phase.brings? index key (handle, entry) := ⟨_, found, rfl, rfl⟩
  obtain rfl := contest.arena.unwon ((orderly.pending key handle).mpr ⟨index, holds⟩)
  have fresh : base.progress? entry.id = none := by
    rw [(recorded.brings brings).1]
    exact (recorded.fresh (recorded.claimed holds.build)).1
  have arena := contest.arena.installs fresh (contest.callers found)
  refine ⟨contest.keys_withPhase found, arena, ?_, ?_⟩
  · intro other known there
    rcases callers_withPhase found there with ⟨-, rfl⟩ | ⟨-, before⟩
    · rfl
    · exact (contest.callers before).win entry
  · have begun := tally_withPhase (·.phase.begun) found (.completing handle entry)
      (flight.cache.install key entry)
    have before : (Phase.installing handle entry).begun = 1 := rfl
    have now : (Phase.completing handle entry).begun = 0 := rfl
    have builds := contest.builds
    have stats : (flight.withPhase index (.completing handle entry)
        (flight.cache.install key entry)).cache.stats = flight.cache.stats := rfl
    have nobody : (none : Option (Entry Token)).isSome.toNat = 0 := rfl
    have somebody : (some entry).isSome.toNat = 1 := rfl
    rw [stats]
    dsimp only at begun
    omega

/-- Before the first call, no entry has won. -/
theorem contest_start (grounded : base.Grounded) (outdated : base.Outdated key) :
    Contest base key none ⟨options, base, []⟩ := by
  refine ⟨nofun, ⟨?_, nofun, ?_⟩, nofun, rfl⟩
  · intro entry stands
    obtain ⟨known, issued⟩ := grounded.slots stands
    obtain ⟨token, member, reports⟩ := List.any_eq_true.mp (outdated entry stands)
    exact .inr ⟨rfl, known, token, member, issued token member, reports⟩
  · intro handle entry fresh done
    have finished : base.progress? handle = some (.done entry) := done
    rw [fresh] at finished
    cases finished

section Acting

variable [Project.Steady P]

/-- What a caller has in hand stays so when another one has moved. -/
theorem Contends.touched {before after : P} (contends : Contends base winner before phase)
    (touches : Project.Touches before after) : Contends base winner after phase := by
  cases phase with
  | checking entry left =>
    rcases contends with ⟨won, quiet⟩ | ⟨known, stale⟩
    · exact .inl ⟨won, quiet.touched touches⟩
    · exact .inr ⟨known, stale.touched touches⟩
  | issuing | recording | compiling | installing => exact Quiet.touched contends touches
  | claiming | completing | returned => exact contends
  | arriving | joining | waiting | starting | resolving | releasing | abandoning | broken =>
    trivial

/-- The same slots and builds over a project that was touched. -/
theorem Arena.touched (arena : Arena base key winner cache) (slots : after.slots = cache.slots)
    (handles : after.handles = cache.handles)
    (touches : Project.Touches cache.project after.project) : Arena base key winner after := by
  have slot (other : Text) : after.slot? other = cache.slot? other :=
    congrArg (Table.find? other) slots
  have progress (handle : Nat) : after.progress? handle = cache.progress? handle :=
    congrArg (·[handle]?) handles
  refine ⟨?_, ?_, ?_⟩
  · intro entry stands
    rw [slot] at stands
    rcases arena.cached entry stands with won | ⟨open_, known, stale⟩
    · exact .inl won
    · exact .inr ⟨open_, known, stale.touched touches⟩
  · intro entry won
    obtain ⟨stands, fresh, quiet⟩ := arena.won entry won
    exact ⟨(slot key).trans stands, fresh, quiet.touched touches⟩
  · intro handle entry fresh done
    rw [progress] at done
    exact arena.done handle entry fresh done

/-- A caller has in hand, after any move but an installation, what it may have. -/
theorem Moves.contends {options : Options} {kind : ImportsKind}
    (moves : Moves options cache key kind phase next after) (arena : Arena base key winner cache)
    (contends : Contends base winner cache.project phase)
    (awaits : ∀ handle, phase.awaits? = some handle → base.progress? handle = none)
    (unwinning : phase.winning = 0) : Contends base winner after.project next := by
  cases moves with
  | finds stands =>
    rcases arena.cached _ stands with won | ⟨-, known, stale⟩
    · exact .inl ⟨won, (arena.won _ won).2.2⟩
    · exact .inr ⟨known, stale⟩
  | misses => nofun
  | hits =>
    rcases contends with ⟨won, -⟩ | ⟨-, _, member, -⟩
    · exact won
    · cases member
  | @passes entry token left unchanged =>
    have touches : Project.Touches cache.project (cache.ask token).2.project := .asks token
    rcases contends with ⟨won, quiet⟩ | ⟨known, other, member, issued, reports⟩
    · have rest : Quiet cache.project left := fun other member =>
        quiet other (List.mem_cons_of_mem token member)
      exact .inl ⟨won, rest.touched touches⟩
    · rcases List.mem_cons.mp member with rfl | further
      · rw [unchanged] at reports
        cases reports
      · have stale : Stale cache.project left := ⟨other, further, issued, reports⟩
        exact .inr ⟨known, stale.touched touches⟩
  | expires changed =>
    rcases contends with ⟨-, quiet⟩ | ⟨known, -⟩
    · have unchanged := (quiet _ List.mem_cons_self).2
      rw [changed] at unchanged
      cases unchanged
    · rintro _ ⟨⟩
      exact known
  | receives done => exact arena.done _ _ (awaits _ rfl) done
  | issues => exact Quiet.issue contends _
  | watches | compiles | concludes | settles | completes => exact contends
  | resolves => exact nofun
  | reads => exact contends
  | installs => cases unwinning
  | meets | claims | defers | returns | joins | retries | starts | asks | releases | abandons =>
    trivial

/-- Any other move leaves it at the winner that there is. -/
theorem Moves.arena {options : Options} {kind : ImportsKind}
    (moves : Moves options cache key kind phase next after) (arena : Arena base key winner cache)
    (contends : Contends base winner cache.project phase)
    (holds : ∀ handle, phase.claim? = some handle → cache.slot? key = some (.pending handle))
    (unwinning : phase.winning = 0) : Arena base key winner after := by
  cases moves with
  | claims free => exact arena.claims free contends rfl rfl
  | @completes handle entry =>
    refine ⟨arena.cached, arena.won, ?_⟩
    intro other found fresh done
    have effect : Effect cache key (.completing handle entry) (.returned entry)
        (cache.complete handle entry) := .completes
    rcases effect.done done with before | own
    · exact arena.done other found fresh before
    · cases own
      exact contends
  | @releases handle =>
    have claimed := holds handle rfl
    obtain rfl := arena.unwon claimed
    have released : cache.release key handle = { cache with slots := cache.slots.drop key } := by
      unfold Cache.release
      rw [claimed]
      exact if_pos rfl
    rw [released]
    refine ⟨?_, nofun, arena.done⟩
    intro entry stands
    rw [slot?_drop rfl, if_pos rfl] at stands
    cases stands
  | @abandons handle =>
    refine ⟨arena.cached, arena.won, ?_⟩
    intro other found fresh done
    have effect : Effect cache key (.abandoning handle) .broken (cache.abandon handle) := .abandons
    rcases effect.done done with before | own
    · exact arena.done other found fresh before
    · cases own
  | installs => cases unwinning
  | passes | expires => exact arena.touched rfl rfl (.asks _)
  | issues => exact arena.touched rfl rfl (.issues _)
  | meets | finds | misses | hits | defers | returns | joins | receives | retries | starts | asks
  | resolves | watches | compiles | concludes | reads | settles =>
    exact arena.touched rfl rfl .not

/-- A move of a caller that installs nothing leaves it at the winner that there is. -/
theorem Contest.move (contest : Contest base key winner flight) (orderly : Orderly flight)
    (recorded : Recorded ⟨options, base, []⟩ flight marks)
    (found : flight.callers[index]? = some caller)
    (moves : Moves flight.options flight.cache caller.key caller.kind caller.phase phase after)
    (unwinning : caller.phase.winning = 0) :
    Contest base key winner (flight.withPhase index phase after) := by
  obtain rfl := contest.keys found
  have own := contest.callers found
  have holds (handle : Nat) (claim : caller.phase.claim? = some handle) :
      flight.cache.slot? caller.key = some (.pending handle) :=
    (orderly.pending caller.key handle).mpr ⟨index, caller, found, rfl, claim⟩
  have awaits (handle : Nat) (waits : caller.phase.awaits? = some handle) :
      base.progress? handle = none := by
    obtain ⟨owner, claimed⟩ := recorded.awaits ⟨caller, found, rfl, waits⟩
    exact (recorded.fresh claimed).1
  refine ⟨contest.keys_withPhase found, moves.arena contest.arena own holds unwinning, ?_, ?_⟩
  · intro other known there
    rcases callers_withPhase found there with ⟨-, rfl⟩ | ⟨-, before⟩
    · exact moves.contends contest.arena own awaits unwinning
    · exact (contest.callers before).touched moves.touches
  · have begun := tally_withPhase (·.phase.begun) found phase after
    have counted := moves.compilations
    have builds := contest.builds
    have stats : (flight.withPhase index phase after).cache.stats = after.stats := rfl
    rw [stats]
    dsimp only at begun
    omega

/-- Whatever happens, callers go on to contend. -/
theorem Contest.act {next : Flight P Token} {action : Action P}
    (contest : Contest base key winner flight) (orderly : Orderly flight)
    (recorded : Recorded ⟨options, base, []⟩ flight marks) (plain : action.For key)
    (done : flight.act action = some next) : ∃ winner, Contest base key winner next := by
  cases act_happens done with
  | call path kind =>
    refine ⟨winner, ?_, contest.arena, ?_, ?_⟩
    · intro index caller there
      cases callers_call there with
      | inl before => exact contest.keys before
      | inr new =>
        rw [new]
        exact plain
    · intro index caller there
      cases callers_call there with
      | inl before => exact contest.callers before
      | inr new =>
        rw [new]
        trivial
    · have begun := flight.tally_call (·.phase.begun) path kind
      have arriving : (Phase.arriving : Phase Token).begun = 0 := rfl
      have builds := contest.builds
      have stats : (flight.call path kind).cache.stats = flight.cache.stats := rfl
      rw [stats]
      dsimp only at begun
      omega
  | edit change => exact plain.elim
  | @move index caller phase after found moves =>
    by_cases wins : caller.phase.winning = 0
    · exact ⟨winner, contest.move orderly recorded found moves wins⟩
    · obtain ⟨own, kind, before⟩ := caller
      obtain rfl : own = key := contest.keys found
      cases moves with
      | @installs handle entry => exact ⟨some entry, contest.install orderly recorded found⟩
      | meets | finds | misses | hits | passes | expires | claims | defers | returns | joins
      | receives | retries | starts | asks | resolves | issues | watches | compiles | concludes
      | reads | settles | completes | releases | abandons => exact absurd rfl wins
  | @breaks index handle caller found building =>
    refine ⟨winner, contest.keys_withPhase found, contest.arena.touched rfl rfl .not, ?_, ?_⟩
    · intro other known there
      rcases callers_withPhase found there with ⟨-, rfl⟩ | ⟨-, before⟩
      · trivial
      · exact contest.callers before
    · have begun := tally_withPhase (·.phase.begun) found (.releasing handle)
        (flight.cache.note [.released caller.key])
      have before := Phase.begun_of_building building
      have now : (Phase.releasing handle : Phase Token).begun = 1 := rfl
      have builds := contest.builds
      have stats : (flight.withPhase index (.releasing handle)
          (flight.cache.note [.released caller.key])).cache.stats = flight.cache.stats := rfl
      rw [stats]
      dsimp only at begun
      omega

/-- Callers for a key contend for it all the time. -/
theorem Course.contest {steps : List (Flight P Token × Action P)} (settled : base.Settled)
    (grounded : base.Grounded) (outdated : base.Outdated key)
    (course : Course ⟨options, base, []⟩ steps flight) (plain : ∀ step ∈ steps, step.2.For key) :
    ∃ winner, Contest base key winner flight := by
  induction course with
  | start => exact ⟨none, contest_start grounded outdated⟩
  | act action earlier done inductionHypothesis =>
    obtain ⟨winner, contest⟩ := inductionHypothesis fun step member =>
      plain step (List.mem_append_left _ member)
    obtain ⟨marks, reached⟩ := earlier.reached
    obtain ⟨orderly, recorded⟩ := reached_orderly settled reached
    exact contest.act orderly recorded
      (plain _ (List.mem_append_right _ (List.mem_singleton.mpr rfl))) done

end Acting

section Idle

variable {P Token : Type} {flight : Flight P Token}

/-- When no call is in progress, nothing is claimed and nothing is being built. -/
theorem Orderly.settled (orderly : Orderly flight) (idle : flight.Idle) : flight.cache.Settled := by
  have unowed (index : Nat) (key : Text) (handle : Nat) :
      ¬ flight.Has Phase.build? index key handle := by
    rintro ⟨caller, found, -, builds⟩
    rw [Phase.build?_of_over (idle caller (List.mem_of_getElem? found))] at builds
    cases builds
  constructor
  · intro key handle claimed
    obtain ⟨index, holds⟩ := (orderly.pending key handle).mp claimed
    exact unowed index key handle holds.build
  · intro handle running
    obtain ⟨index, key, owes⟩ := (orderly.running handle).mp running
    exact unowed index key handle owes

/-- When no call is in progress, the builds that broke off are those of the calls that ended so. -/
theorem Idle.broken (idle : flight.Idle) :
    flight.callers.countP (·.phase.isBroken) = flight.tally (·.phase.breaking) := by
  unfold Flight.tally
  unfold Flight.Idle at idle
  generalize flight.callers = callers at idle
  induction callers with
  | nil => rfl
  | cons caller callers inductionHypothesis =>
    have ended := idle caller List.mem_cons_self
    have rest := inductionHypothesis fun other member =>
      idle other (List.mem_cons_of_mem caller member)
    obtain ⟨key, kind, phase⟩ := caller
    rw [List.countP_cons, rest, List.map_cons, List.sum_cons, Nat.add_comm]
    cases phase <;> first | rfl | cases ended

/-- When no call is in progress, each call has returned an entry or has broken off. -/
theorem Idle.length (idle : flight.Idle) :
    flight.callers.length = flight.returned.length + flight.tally (·.phase.breaking) := by
  rw [returned_length, ← idle.tally]
  have counted : flight.callers.map (·.phase.counted) = flight.callers.map fun _ => 1 := by
    apply List.map_congr_left
    intro caller member
    exact Phase.counted_eq_one_of_over (idle caller member)
  unfold Flight.tally
  simp [counted]

/-- When no call is in progress, the builds that were begun and not installed broke off. -/
theorem Idle.begun (idle : flight.Idle) :
    flight.tally (·.phase.begun) = flight.tally (·.phase.breaking) := by
  unfold Flight.tally
  apply congrArg List.sum
  apply List.map_congr_left
  intro caller member
  exact Phase.begun_of_over (idle caller member)

end Idle

/-- What callers of one key have come to. -/
structure Outcomes (base : Cache P Token) (breaks : Nat) (flight : Flight P Token) : Prop where
  /-- As many calls ended because their builds broke off as builds broke off. -/
  broken : flight.callers.countP (·.phase.isBroken) = breaks
  /-- If somebody is left, one more build was begun, and everybody else returned its entry. -/
  shared : breaks < flight.callers.length →
    flight.cache.stats.compilations = base.stats.compilations + breaks + 1 ∧
      ∃ entry, flight.returned = List.replicate (flight.callers.length - breaks) entry
  /-- If all builds that were begun broke off, all calls ended so. -/
  all : flight.cache.stats.compilations = base.stats.compilations + breaks →
    ∀ caller ∈ flight.callers, caller.phase = .broken

/-- Who returned an entry returned the one that won. -/
theorem Contest.returned (contest : Contest base key winner flight) {entry : Entry Token}
    (returned : entry ∈ flight.returned) : winner = some entry := by
  obtain ⟨⟨own, kind, phase⟩, member, same⟩ := List.mem_filterMap.mp returned
  obtain ⟨index, found⟩ := List.mem_iff_getElem?.mp member
  have contends := contest.callers found
  cases phase with
  | returned other =>
    cases same
    exact contends
  | arriving | checking | claiming | joining | waiting | starting | resolving | issuing | recording
  | compiling | installing | completing | releasing | abandoning | broken => cases same

/-- When callers of one key are done, either all broke off or one build has won. -/
theorem Contest.outcomes (contest : Contest base key winner flight) (idle : flight.Idle) :
    Outcomes base (flight.tally (·.phase.breaking)) flight := by
  have builds := contest.builds
  have length := idle.length
  rw [idle.begun] at builds
  refine ⟨idle.broken, ?_, ?_⟩
  · intro left
    have some_returned : flight.returned ≠ [] := by
      intro empty
      rw [empty, List.length_nil] at length
      omega
    obtain ⟨entry, rest, same⟩ := List.exists_cons_of_ne_nil some_returned
    have won : winner = some entry := contest.returned (by simp [same])
    subst won
    refine ⟨builds, entry, List.eq_replicate_iff.mpr ⟨by omega, ?_⟩⟩
    intro other member
    exact Option.some.inj (contest.returned member).symm
  · intro same caller member
    have nobody : flight.returned = [] := by
      apply List.eq_nil_iff_forall_not_mem.mpr
      intro entry returned
      have won := contest.returned returned
      subst won
      rw [same] at builds
      have one : (some entry).isSome.toNat = 1 := rfl
      omega
    rw [nobody, List.length_nil, Nat.zero_add, ← idle.broken] at length
    have broken := List.countP_eq_length.mp length.symm caller member
    obtain ⟨key, kind, phase⟩ := caller
    cases phase <;> first | rfl | cases broken

/-- Whenever no call is in progress, as many calls have returned as were counted as hits, as builds,
or as waits, less the builds that broke off and the waits that ended in vain. And if from then on
there are only calls for one key that has no entry that is up to date, whatever builds break off:
the calls come to an end, in every order of their moves, and then as many ended by their builds as
builds broke off. If calls are left, one more build was begun, and they all returned one entry; if
no build did anything but break off, no call is left. -/
theorem calls_counted [Project.Steady P] {cache : Cache P Token} (created : cache.Created)
    {past : List (Flight P Token × Action P)} (course : Course ⟨options, cache, []⟩ past flight)
    (idle : flight.Idle) :
    (flight.returned.length : Int) = flight.cache.stats.hits +
        (flight.cache.stats.compilations - broke past) +
        (flight.cache.stats.coalesced - retried past) ∧
      (HonestAll past → ∀ key, flight.cache.Outdated key →
        ∀ steps last, Course ⟨options, flight.cache, []⟩ steps last →
          (∀ step ∈ steps, step.2.For key) →
            Acc Stirs last ∧
              (¬ last.Idle → ∃ index, (last.act (.advance index)).isSome = true) ∧
              (last.Idle → Outcomes flight.cache (broke steps) last)) := by
  refine ⟨course.returned_length created idle, ?_⟩
  intro honest key outdated steps last further plain
  have settled := (course.orderly created.settled).settled idle
  have grounded := (course.grounded created.settled created.grounded honest).cache
  refine ⟨(further.orderly settled).acc, further.stirs settled, ?_⟩
  intro done
  obtain ⟨winner, contest⟩ := further.contest settled grounded outdated plain
  have breaks : last.tally (·.phase.breaking) = broke steps := by
    rw [further.accounted.breaks]
    exact Nat.zero_add _
  rw [← breaks]
  exact contest.outcomes done

/-- Two callers for a template that is not there: the build of one breaks off while the other one
waits, and builds in the end. Another one calls when there is an entry. -/
def relieved : List (Action Memory) :=
  .call "/a.cshtml" .views :: .call "/a.cshtml" .views :: List.replicate 3 (.advance 0) ++
    List.replicate 2 (.advance 1) ++ .breakOff 0 :: List.replicate 2 (.advance 0) ++
    List.replicate 12 (.advance 1) ++ .call "/a.cshtml" .views :: List.replicate 3 (.advance 2)

/-- One call is broken, the other two return one entry, and the counts are what they should be. -/
theorem calls_counted_relieved : ({ project := {} } : Cache Memory MemoryToken).Created ∧
    ∃ past entry, ∃ flight : Flight Memory MemoryToken,
      Course ⟨{}, { project := {} }, []⟩ past flight ∧ flight.Idle ∧
      flight.callers.countP (·.phase.isBroken) = 1 ∧ flight.returned = [entry, entry] ∧
      flight.cache.stats.compilations = 2 ∧
      flight.cache.stats.hits + flight.cache.stats.coalesced = 2 := by
  have created : ({ project := {} } : Cache Memory MemoryToken).Created := .empty _
  refine ⟨created, ?_⟩
  have follows : ((⟨{}, { project := {} }, []⟩ : Flight Memory MemoryToken).follow relieved).any
      (fun course => decide (course.2.Idle ∧ (∀ step ∈ course.1, step.2.For "/a.cshtml") ∧
        course.2.callers.length = 3 ∧ broke course.1 = 1 ∧ retried course.1 = 1)) = true := by
    decide +kernel
  obtain ⟨⟨past, flight⟩, followed, comes⟩ := (Option.any_eq_true _ _).mp follows
  obtain ⟨idle, plain, three, one, vain⟩ := of_decide_eq_true comes
  have course := course_of_follow followed
  dsimp only at idle plain three one vain
  have begins : Course (⟨{}, { project := {} }, []⟩ : Flight Memory MemoryToken) []
      ⟨{}, { project := {} }, []⟩ := .start
  obtain ⟨-, ends⟩ := calls_counted created begins nofun
  obtain ⟨-, -, outcomes⟩ := ends nofun "/a.cshtml" nofun past flight course plain
  obtain ⟨broken, shared, -⟩ := outcomes idle
  obtain ⟨builds, entry, returned⟩ := shared (by omega)
  have both : flight.returned = [entry, entry] := by
    rw [returned, three, one]
    rfl
  have two : flight.cache.stats.compilations = 2 := by
    rw [builds, one]
  obtain ⟨counted, -⟩ := calls_counted created course idle
  rw [both, two, one, vain, List.length_cons, List.length_singleton] at counted
  exact ⟨past, entry, flight, course, idle, broken.trans one, both, two, by omega⟩

end Flight

end ViewCompiler
