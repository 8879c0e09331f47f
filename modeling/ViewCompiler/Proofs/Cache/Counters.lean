import Mathlib.Algebra.BigOperators.Group.List.Basic
import Mathlib.Algebra.GroupWithZero.Nat
import ViewCompiler.Proofs.Cache.Course

/-!
# What the counters of a cache count

A call can raise the counters more than once: it is counted again each time it comes to wait,
and a call that waited in vain may build in the end. What the counters come to is therefore
told by the callers and the course together. Each caller has an account, of the count that its
last move left open, and the sum of these accounts with the waits that ended in vain is the sum
of the counters, after every move. When no call is in progress, the only accounts that are
open are those of calls that returned and of builds that broke off.
-/

namespace ViewCompiler

/-- The counts of a cache taken together. -/
def Stats.total (stats : Stats) : Nat := stats.hits + stats.compilations + stats.coalesced

/-- A cache that was just made has counted nothing. -/
theorem Cache.Created.stats {P Token : Type} {cache : Cache P Token} (created : cache.Created) :
    cache.stats = {} := by
  cases created with
  | empty project => rfl
  | precompiled project views =>
    have seeded : (views.foldl Cache.seed ({ project } : Cache P Token)).stats = {} :=
      List.foldlRecOn (motive := fun cache : Cache P Token => cache.stats = {}) views Cache.seed rfl
        fun _ none _ _ => none
    exact seeded

namespace Phase

variable {Token : Type}

/-- Whether a caller in this phase was counted and has not been found to wait in vain. -/
def counted : Phase Token → Nat
  | .arriving | .checking .. | .claiming _ | .joining _ | .starting _ => 0
  | _ => 1

/-- Whether the build of a caller in this phase broke off. -/
def breaking : Phase Token → Nat
  | .releasing _ | .abandoning _ | .broken => 1
  | _ => 0

/-- Whether a call has returned. -/
def returning : Phase Token → Nat
  | .returned _ => 1
  | _ => 0

/-- A call that is over has returned, or its build broke off. -/
theorem counted_of_over {phase : Phase Token} (ended : phase.isOver = true) :
    phase.counted = phase.returning + phase.breaking := by
  cases phase <;> first | rfl | cases ended

end Phase

namespace Flight

variable {P Token : Type} {flight : Flight P Token} {index : Nat} {caller : Caller Token}

/-- The sum of a number of each caller. -/
def tally (what : Caller Token → Nat) (flight : Flight P Token) : Nat :=
  (flight.callers.map what).sum

/-- A call adds the number of its caller to the sum. -/
theorem tally_call (what : Caller Token → Nat) (path : Text) (kind : ImportsKind) :
    (flight.call path kind).tally what =
      flight.tally what + what ⟨Logical.stripAppRoot path, kind, .arriving⟩ := by
  simp [tally, call]

/-- The number of a caller that moves makes way for another one. -/
theorem tally_withPhase (what : Caller Token → Nat) (found : flight.callers[index]? = some caller)
    (phase : Phase Token) (cache : Cache P Token) :
    (flight.withPhase index phase cache).tally what + what caller =
      flight.tally what + what { caller with phase } := by
  obtain ⟨below, same⟩ := List.getElem?_eq_some_iff.mp found
  have callers : flight.callers =
      flight.callers.take index ++ caller :: flight.callers.drop (index + 1) := by
    rw [← same, List.getElem_cons_drop, List.take_append_drop]
  have modified : (flight.withPhase index phase cache).callers = flight.callers.take index ++
      { caller with phase } :: flight.callers.drop (index + 1) := by
    rw [← same]
    exact List.modify_eq_take_cons_drop below
  unfold tally
  rw [modified]
  conv_rhs => rw [callers]
  simp only [List.map_append, List.map_cons, List.sum_append, List.sum_cons]
  omega

/-- When no call is in progress, every call has returned or broken off. -/
theorem Idle.tally (idle : flight.Idle) : flight.tally (·.phase.counted) =
    flight.tally (·.phase.returning) + flight.tally (·.phase.breaking) := by
  unfold Flight.tally
  rw [← List.sum_map_add]
  apply congrArg List.sum
  apply List.map_congr_left
  intro caller member
  exact Phase.counted_of_over (idle caller member)

/-- The entries that calls returned are as many as the calls that returned. -/
theorem returned_length (flight : Flight P Token) :
    flight.returned.length = flight.tally (·.phase.returning) := by
  unfold returned Flight.tally
  induction flight.callers with
  | nil => rfl
  | cons caller callers inductionHypothesis =>
    obtain ⟨key, kind, phase⟩ := caller
    rw [List.map_cons, List.sum_cons, ← inductionHypothesis]
    cases phase <;> simp [Phase.returning, Nat.add_comm]

/-- Whether a caller waits on a build that broke off. -/
def inVain (cache : Cache P Token) : Phase Token → Bool
  | .waiting handle =>
    match cache.progress? handle with
    | some .abandoned => true
    | _ => false
  | _ => false

/-- Whether a wait ends in vain by what happens next. -/
def retries (flight : Flight P Token) : Action P → Bool
  | .advance index => flight.callers[index]?.any fun caller => inVain flight.cache caller.phase
  | _ => false

/-- How many waits ended in vain in a course. -/
def retried (past : List (Flight P Token × Action P)) : Nat :=
  past.countP fun step => step.1.retries step.2

/-- Whether this is a build that breaks off. -/
def Action.isBreak : Action P → Bool
  | .breakOff _ => true
  | _ => false

/-- How many builds broke off in a course. -/
def broke (past : List (Flight P Token × Action P)) : Nat :=
  past.countP fun step => step.2.isBreak

/-- Giving a claim back counts nothing. -/
theorem release_stats (cache : Cache P Token) (key : Text) (handle : Nat) :
    (cache.release key handle).stats = cache.stats := by
  unfold Cache.release
  split
  · split <;> rfl
  · rfl

variable [Project P Token] {start next : Flight P Token} {past : List (Flight P Token × Action P)}
  {action : Action P}

/-- What a move counts is on the account of the mover, or it is a wait that ended in vain. -/
theorem Moves.counted {options : Options} {key : Text} {kind : ImportsKind}
    {before after : Cache P Token} {earlier later : Phase Token}
    (moves : Moves options before key kind earlier later after) :
    after.stats.total + earlier.counted =
      before.stats.total + later.counted + (inVain before earlier).toNat := by
  cases moves with
  | hits | starts | joins =>
    simp only [Stats.total, Cache.countHit, Cache.countCompilation, Cache.countCoalesced,
      Phase.counted, inVain, Bool.toNat_false]
    omega
  | receives done => simp only [inVain, done, Phase.counted, Bool.toNat_false]
  | retries abandoned => simp only [inVain, abandoned, Phase.counted, Bool.toNat_true]
  | releases =>
    rw [release_stats]
    rfl
  | meets | finds | misses | passes | expires | claims | defers | returns | asks | resolves
  | issues | watches | compiles | concludes | reads | settles | installs | completes
  | abandons => rfl

/-- A build that breaks off was counted and had not ended. -/
theorem counted_of_building {phase : Phase Token} {handle : Nat}
    (building : phase.building? = some handle) : phase.counted = 1 ∧ phase.breaking = 0 := by
  cases phase <;> first | exact ⟨rfl, rfl⟩ | cases building

/-- A move does not make a build break off. -/
theorem Moves.breaking {options : Options} {key : Text} {kind : ImportsKind}
    {before after : Cache P Token} {earlier later : Phase Token}
    (moves : Moves options before key kind earlier later after) :
    later.breaking = earlier.breaking := by
  cases moves <;> rfl

/-- What happens counts what is on the accounts of callers afterwards, and waits that ended in
vain; and as many builds are broken off as broke off. -/
theorem Happens.accounts (happens : Happens flight action next) :
    next.cache.stats.total + flight.tally (·.phase.counted) =
        flight.cache.stats.total + next.tally (·.phase.counted) + (flight.retries action).toNat ∧
      next.tally (·.phase.breaking) = flight.tally (·.phase.breaking) + action.isBreak.toNat := by
  cases happens with
  | call path kind =>
    have counted := flight.tally_call (·.phase.counted) path kind
    have breaking := flight.tally_call (·.phase.breaking) path kind
    exact ⟨congrArg (flight.cache.stats.total + ·) counted.symm, breaking⟩
  | edit change => exact ⟨rfl, rfl⟩
  | @move index caller phase cache found moves =>
    have counted := tally_withPhase (·.phase.counted) found phase cache
    have breaking := tally_withPhase (·.phase.breaking) found phase cache
    have stats : (flight.withPhase index phase cache).cache.stats = cache.stats := rfl
    have vain : flight.retries (.advance index) = inVain flight.cache caller.phase := by
      rw [retries, found, Option.any_some]
    have account := moves.counted
    have same := moves.breaking
    have moved : (Action.advance index : Action P).isBreak = false := rfl
    rw [stats, vain, moved, Bool.toNat_false]
    dsimp only at counted breaking
    omega
  | @breaks index handle caller found building =>
    have counted := tally_withPhase (·.phase.counted) found (.releasing handle)
      (flight.cache.note [.released caller.key])
    have breaking := tally_withPhase (·.phase.breaking) found (.releasing handle)
      (flight.cache.note [.released caller.key])
    obtain ⟨before, unbroken⟩ := counted_of_building building
    have stats : (flight.withPhase index (.releasing handle)
        (flight.cache.note [.released caller.key])).cache.stats = flight.cache.stats := rfl
    have waits : flight.retries (.breakOff index) = false := rfl
    have breaks : (Action.breakOff index : Action P).isBreak = true := rfl
    rw [stats, waits, breaks, Bool.toNat_false, Bool.toNat_true]
    have now : (Phase.releasing handle : Phase Token).counted = 1 ∧
        (Phase.releasing handle : Phase Token).breaking = 1 := ⟨rfl, rfl⟩
    dsimp only at counted breaking
    omega

/-- The counters, the accounts of the callers, and what ended in vain or broke off. -/
structure Accounted (start : Flight P Token) (past : List (Flight P Token × Action P))
    (flight : Flight P Token) : Prop where
  total : flight.cache.stats.total + start.tally (·.phase.counted) =
    start.cache.stats.total + retried past + flight.tally (·.phase.counted)
  breaks : flight.tally (·.phase.breaking) = start.tally (·.phase.breaking) + broke past

/-- They agree after every move. -/
theorem Course.accounted (course : Course start past flight) : Accounted start past flight := by
  induction course with
  | start => exact ⟨by simp [retried], by simp [broke]⟩
  | @act past flight next action earlier done inductionHypothesis =>
    obtain ⟨total, breaks⟩ := inductionHypothesis
    obtain ⟨counted, broken⟩ := (act_happens done).accounts
    have vain : retried (past ++ [(flight, action)]) =
        retried past + (flight.retries action).toNat := by
      unfold retried
      rw [List.countP_append, List.countP_singleton]
      cases flight.retries action <;> rfl
    have further : broke (past ++ [(flight, action)]) = broke past + action.isBreak.toNat := by
      unfold broke
      rw [List.countP_append, List.countP_singleton]
      cases action.isBreak <;> rfl
    constructor
    · rw [vain]
      omega
    · rw [further]
      omega

/-- When no call is in progress, as many calls have returned as were counted, less the builds that
broke off and the waits that ended in vain. -/
theorem Course.returned_length {options : Options} {cache : Cache P Token}
    (created : cache.Created) (course : Course ⟨options, cache, []⟩ past flight)
    (idle : flight.Idle) :
    (flight.returned.length : Int) = flight.cache.stats.hits +
      (flight.cache.stats.compilations - broke past) +
      (flight.cache.stats.coalesced - retried past) := by
  obtain ⟨total, breaks⟩ := course.accounted
  have counters : cache.stats.total = 0 := by
    rw [created.stats]
    rfl
  have counted := idle.tally
  have returned := flight.returned_length
  simp only [counters, Flight.tally, List.map_nil, List.sum_nil] at total breaks
  unfold Flight.tally at counted returned
  unfold Stats.total at total
  omega

end Flight

end ViewCompiler
