import ViewCompiler.Proofs.Cache.Counters
import ViewCompiler.Proofs.Cache.Grounded
import ViewCompiler.Proofs.Inquiry.Within

/-!
# Calls come to an end

While the project does not change and nobody else calls, callers cannot move forever, in
whatever order they move and whichever builds break off. A call that tries again does so
because somebody else has claimed the key, installed an entry or given the claim back, and each
caller does this once. So the callers have a stake in what is still to be done to slots and
builds, which never grows; and as long as it stays the same, each move brings its caller nearer
to the next one that lowers it. Of an inquiry, what is left are the questions that the project
as it is will make it ask.

Nor do callers get stuck. Who waits, waits on a build that has an owner, and the owner can move.
-/

namespace ViewCompiler

namespace Inquiry

variable {α P Token : Type} [Project P Token]

/-- How many questions are left to ask, if the project stays as it is. -/
def questions (project : P) : Inquiry α → Nat
  | .answer _ => 0
  | .item path follow => (follow (Project.item project path)).questions project + 1
  | .text asked follow => (follow (Project.text project asked)).questions project + 1

/-- An answer leaves one question less. -/
theorem questions_step (project : P) {inquiry : Inquiry α}
    (more : ∀ value, inquiry ≠ .answer value) :
    inquiry.questions project = (inquiry.step project).questions project + 1 := by
  cases inquiry with
  | answer value => exact absurd rfl (more value)
  | item path follow => rfl
  | text asked follow => rfl

/-- Asking and issuing tokens changes neither the questions nor the answer. -/
theorem run_touched [Project.Discreet P] {before after : P}
    (touches : Project.Touches before after) (inquiry : Inquiry α) :
    inquiry.run after = inquiry.run before ∧
      inquiry.questions after = inquiry.questions before := by
  induction inquiry with
  | answer value => exact ⟨rfl, rfl⟩
  | item path follow inductionHypothesis =>
    simp only [run, questions, touches.item path]
    obtain ⟨answer, left⟩ := inductionHypothesis (Project.item before path)
    exact ⟨answer, congrArg (· + 1) left⟩
  | text asked follow inductionHypothesis =>
    simp only [run, questions, touches.text asked]
    obtain ⟨answer, left⟩ := inductionHypothesis (Project.text before asked)
    exact ⟨answer, congrArg (· + 1) left⟩

end Inquiry

/-- What a caller may still do to slots and builds: claim a key, end the claim, end the build. -/
def Phase.stake {Token : Type} : Phase Token → Nat
  | .arriving | .checking .. | .claiming _ | .joining _ | .waiting _ => 3
  | .starting _ | .resolving .. | .issuing .. | .recording .. | .compiling .. | .installing ..
  | .releasing _ => 2
  | .completing .. | .abandoning _ => 1
  | .returned _ | .broken => 0

namespace Flight

section Rank

variable {P Token : Type}

/-- How many moves a caller that looks at the slot of a key is from the next one that matters. -/
def fromArriving (cache : Cache P Token) (key : Text) : Nat :=
  match cache.slot? key with
  | none => 1
  | some (.pending _) => 2
  | some (.cached entry) => entry.tokens.length + 2

/-- How many a caller is that claims a key in the place of an entry found out of date. -/
def fromClaiming (cache : Cache P Token) (key : Text) (stale : Option Nat) : Nat :=
  match cache.slot? key with
  | none => 0
  | some (.pending _) => 2
  | some (.cached entry) => if stale = some entry.id then 0 else fromArriving cache key + 1

/-- How many a caller is that waits on a build. -/
def fromWaiting (cache : Cache P Token) (key : Text) (handle : Nat) : Nat :=
  match cache.progress? handle with
  | some .abandoned => fromArriving cache key + 1
  | _ => 0

variable [Project P Token]

/-- How many a caller is that is about to record what its unit depends on. -/
def fromRecording (options : Options) (project : P) (unit : TemplateUnit) : Nat :=
  (CompilationResult.attempt options unit).questions project + 2

/-- How many a caller is that resolves its unit. -/
def fromResolving (options : Options) (project : P) (left : Inquiry TemplateUnit) : Nat :=
  left.questions project + (Cache.targets (left.run project)).length +
    fromRecording options project (left.run project) + 2

/-- How many moves a caller is at most from the next one that matters to others, or from none. -/
def rank (options : Options) (cache : Cache P Token) (key : Text) (kind : ImportsKind) :
    Phase Token → Nat
  | .arriving => fromArriving cache key
  | .checking entry left => left.length + fromClaiming cache key (some entry.id) + 1
  | .claiming stale => fromClaiming cache key stale
  | .joining handle => fromWaiting cache key handle + 1
  | .waiting handle => fromWaiting cache key handle
  | .starting _ =>
      fromResolving options cache.project (TemplateUnit.resolve options kind key) + 1
  | .resolving _ left => fromResolving options cache.project left
  | .issuing _ unit left _ => left.length + fromRecording options cache.project unit + 1
  | .recording _ unit _ => fromRecording options cache.project unit
  | .compiling _ _ left => left.questions cache.project + 1
  | _ => 0

/-- It is the same in caches with the same slots and builds, over projects that show the same. -/
theorem rank_touched [Project.Discreet P] {before after : Cache P Token}
    (slots : after.slots = before.slots) (handles : after.handles = before.handles)
    (touches : Project.Touches before.project after.project) (options : Options) (key : Text)
    (kind : ImportsKind) (phase : Phase Token) :
    rank options after key kind phase = rank options before key kind phase := by
  have slot : after.slot? = before.slot? := by
    funext other
    unfold Cache.slot?
    rw [slots]
  have progress : after.progress? = before.progress? := by
    funext handle
    unfold Cache.progress?
    rw [handles]
  have units (left : Inquiry TemplateUnit) := Inquiry.run_touched touches left
  have attempts (unit : TemplateUnit) :=
    Inquiry.run_touched touches (CompilationResult.attempt options unit)
  cases phase with
  | compiling handle tokens left =>
    simp only [rank, (Inquiry.run_touched touches left).2]
  | arriving | checking | claiming | joining | waiting | starting | resolving | issuing | recording
  | installing | completing | releasing | abandoning | returned | broken =>
    simp only [rank, fromArriving, fromClaiming, fromWaiting, fromResolving, fromRecording, slot,
      progress, units, attempts]

/-- A move that leaves slots and builds alone brings its caller nearer to one that does not. -/
theorem Moves.descends {options : Options} {cache after : Cache P Token} {key : Text}
    {kind : ImportsKind} {phase next : Phase Token}
    (moves : Moves options cache key kind phase next after)
    (running : ∀ handle, cache.slot? key = some (.pending handle) →
      cache.progress? handle = some .running) :
    next.stake < phase.stake ∨ (next.stake = phase.stake ∧ after.slots = cache.slots ∧
      after.handles = cache.handles ∧
      rank options cache key kind next < rank options cache key kind phase) := by
  cases moves with
  | hits | claims | receives | installs | completes | releases | abandons =>
    exact .inl (by simp [Phase.stake])
  | meets claimed =>
    refine .inr ⟨rfl, rfl, rfl, ?_⟩
    simp [rank, fromWaiting, fromArriving, claimed, running _ claimed]
  | finds stands =>
    refine .inr ⟨rfl, rfl, rfl, ?_⟩
    simp [rank, fromArriving, fromClaiming, stands]
  | misses empty =>
    refine .inr ⟨rfl, rfl, rfl, ?_⟩
    simp [rank, fromArriving, fromClaiming, empty]
  | passes quiet =>
    refine .inr ⟨rfl, rfl, rfl, ?_⟩
    simp only [rank, List.length_cons]
    omega
  | expires changed =>
    refine .inr ⟨rfl, rfl, rfl, ?_⟩
    simp only [rank, List.length_cons]
    omega
  | defers claimed =>
    refine .inr ⟨rfl, rfl, rfl, ?_⟩
    simp [rank, fromWaiting, fromClaiming, claimed, running _ claimed]
  | returns stands another =>
    refine .inr ⟨rfl, rfl, rfl, ?_⟩
    simp [rank, fromClaiming, stands, another]
  | joins => exact .inr ⟨rfl, rfl, rfl, Nat.lt_succ_self _⟩
  | retries abandoned =>
    refine .inr ⟨rfl, rfl, rfl, ?_⟩
    simp [rank, fromWaiting, abandoned]
  | starts => exact .inr ⟨rfl, rfl, rfl, Nat.lt_succ_self _⟩
  | asks more =>
    refine .inr ⟨rfl, rfl, rfl, ?_⟩
    have fewer := Inquiry.questions_step cache.project more
    simp only [rank, fromResolving, Inquiry.run_step]
    omega
  | resolves =>
    refine .inr ⟨rfl, rfl, rfl, ?_⟩
    simp only [rank, fromResolving, Inquiry.run, Inquiry.questions]
    omega
  | issues =>
    refine .inr ⟨rfl, rfl, rfl, ?_⟩
    simp only [rank, List.length_cons]
    omega
  | watches =>
    refine .inr ⟨rfl, rfl, rfl, ?_⟩
    simp only [rank, List.length_nil]
    omega
  | compiles present => exact .inr ⟨rfl, rfl, rfl, Nat.lt_succ_self _⟩
  | concludes absent => exact .inr ⟨rfl, rfl, rfl, Nat.succ_pos _⟩
  | reads more =>
    refine .inr ⟨rfl, rfl, rfl, ?_⟩
    have fewer := Inquiry.questions_step cache.project more
    simp only [rank]
    omega
  | settles => exact .inr ⟨rfl, rfl, rfl, Nat.succ_pos _⟩

/-- A build that breaks off has as much at stake and is nearer to giving the claim back. -/
theorem breaks_descends {phase : Phase Token} {handle : Nat}
    (building : phase.building? = some handle) (options : Options) (cache : Cache P Token)
    (key : Text) (kind : ImportsKind) :
    phase.stake = 2 ∧ 0 < rank options cache key kind phase := by
  cases phase with
  | resolving | issuing | recording | compiling =>
    refine ⟨rfl, ?_⟩
    simp [rank, fromResolving, fromRecording]
  | arriving | checking | claiming | joining | waiting | starting | installing | completing
  | releasing | abandoning | returned | broken => cases building

end Rank

variable {P Token : Type} [Project P Token] {flight next : Flight P Token}

/-- What callers may still do to slots and builds. -/
def stake (flight : Flight P Token) : Nat := flight.tally (·.phase.stake)

/-- How far callers are from the next moves that matter, all together. -/
def distance (flight : Flight P Token) : Nat :=
  flight.tally fun caller => rank flight.options flight.cache caller.key caller.kind caller.phase

/-- A caller moves, or its build breaks off. -/
def Stirs (next flight : Flight P Token) : Prop :=
  ∃ index, flight.act (.advance index) = some next ∨ flight.act (.breakOff index) = some next

/-- A caller in another phase, with the same slots and builds, is nearer if its phase is. -/
theorem distance_withPhase [Project.Discreet P] {index : Nat} {caller : Caller Token}
    {phase : Phase Token} {cache : Cache P Token} (found : flight.callers[index]? = some caller)
    (slots : cache.slots = flight.cache.slots) (handles : cache.handles = flight.cache.handles)
    (touches : Project.Touches flight.cache.project cache.project)
    (nearer : rank flight.options flight.cache caller.key caller.kind phase <
      rank flight.options flight.cache caller.key caller.kind caller.phase) :
    (flight.withPhase index phase cache).distance < flight.distance := by
  have moved := tally_withPhase
    (fun caller => rank flight.options flight.cache caller.key caller.kind caller.phase) found
    phase cache
  have same : (flight.withPhase index phase cache).distance =
      (flight.withPhase index phase cache).tally fun caller =>
        rank flight.options flight.cache caller.key caller.kind caller.phase := by
    unfold distance tally
    apply congrArg List.sum
    apply List.map_congr_left
    intro other _
    exact rank_touched slots handles touches flight.options other.key other.kind other.phase
  rw [same]
  unfold distance
  dsimp only at moved
  omega

/-- Whoever stirs lowers the stake, or keeps it and comes nearer to lowering it. -/
theorem Orderly.descends [Project.Discreet P] (orderly : Orderly flight)
    (stirs : Stirs next flight) :
    next.stake < flight.stake ∨ (next.stake = flight.stake ∧ next.distance < flight.distance) := by
  obtain ⟨index, advanced | broken⟩ := stirs
  · cases act_happens advanced with
    | @move _ caller phase cache found moves =>
      have moved := tally_withPhase (·.phase.stake) found phase cache
      dsimp only at moved
      have running (handle : Nat)
          (claimed : flight.cache.slot? caller.key = some (.pending handle)) :
          flight.cache.progress? handle = some .running := by
        obtain ⟨owner, holds⟩ := (orderly.pending caller.key handle).mp claimed
        exact (orderly.running handle).mpr ⟨owner, caller.key, holds.build⟩
      rcases moves.descends running with lower | ⟨same, slots, handles, nearer⟩
      · left
        unfold stake
        omega
      · right
        refine ⟨?_, distance_withPhase found slots handles moves.touches nearer⟩
        unfold stake
        omega
  · cases act_happens broken with
    | @breaks _ handle caller found building =>
      have moved := tally_withPhase (·.phase.stake) found (.releasing handle)
        (flight.cache.note [.released caller.key])
      obtain ⟨two, near⟩ := breaks_descends building flight.options flight.cache caller.key
        caller.kind
      have releasing : (Phase.releasing handle : Phase Token).stake = 2 := rfl
      dsimp only at moved
      right
      refine ⟨?_, distance_withPhase found rfl rfl .not near⟩
      unfold stake
      omega

/-- Every order of moves and breaks ends. -/
theorem Orderly.acc [Project.Discreet P] (orderly : Orderly flight) : Acc Stirs flight := by
  have bounded (measure : Nat × Nat) : ∀ flight : Flight P Token, Orderly flight →
      (flight.stake, flight.distance) = measure → Acc Stirs flight := by
    induction measure using (Prod.lex Nat.lt_wfRel Nat.lt_wfRel).wf.induction with
    | _ measure inductionHypothesis =>
      rintro flight orderly rfl
      constructor
      intro next stirs
      have still : Orderly next := by
        obtain ⟨index, done | done⟩ := stirs
        · exact orderly.turn ((act_change done).turn orderly)
        · exact orderly.turn ((act_change done).turn orderly)
      have lower : Prod.Lex (· < ·) (· < ·) (next.stake, next.distance)
          (flight.stake, flight.distance) := by
        rcases orderly.descends stirs with less | ⟨same, nearer⟩
        · exact .left _ _ less
        · rw [same]
          exact .right _ nearer
      exact inductionHypothesis _ lower next still rfl
  exact bounded _ flight orderly rfl

/-- A caller that neither waits nor is done can move. -/
theorem act_of_unwaiting {index : Nat} {caller : Caller Token}
    (found : flight.callers[index]? = some caller) (unfinished : caller.phase.isOver = false)
    (unwaiting : ∀ handle, caller.phase ≠ .waiting handle) :
    (flight.act (.advance index)).isSome = true := by
  obtain ⟨key, kind, phase⟩ := caller
  cases builds : phase.build? with
  | some handle => exact act_of_build ⟨_, found, rfl, builds⟩
  | none =>
    simp only [act, advance, found, Option.bind_eq_bind, Option.bind_some]
    cases phase with
    | arriving =>
      simp only [move]
      split <;> rfl
    | checking entry left =>
      cases left with
      | nil => rfl
      | cons token left =>
        simp only [move]
        split <;> rfl
    | claiming stale =>
      simp only [move]
      split <;> rfl
    | joining handle => rfl
    | waiting handle => exact absurd rfl (unwaiting handle)
    | returned | broken => cases unfinished
    | starting | resolving | issuing | recording | compiling | installing | completing | releasing
    | abandoning => cases builds

/-- As long as a call is in progress, some caller can move. -/
theorem Course.stirs {options : Options} {cache : Cache P Token} (settled : cache.Settled)
    {past : List (Flight P Token × Action P)} (course : Course ⟨options, cache, []⟩ past flight)
    (busy : ¬ flight.Idle) : ∃ index, (flight.act (.advance index)).isSome = true := by
  unfold Idle at busy
  push Not at busy
  obtain ⟨caller, member, unfinished⟩ := busy
  obtain ⟨index, found⟩ := List.mem_iff_getElem?.mp member
  obtain ⟨key, kind, phase⟩ := caller
  by_cases waits : ∃ handle, phase = .waiting handle
  · obtain ⟨handle, rfl⟩ := waits
    obtain ⟨marks, reached⟩ := course.reached
    obtain ⟨orderly, recorded⟩ := reached_orderly settled reached
    cases recorded.waits orderly found with
    | returns installed done next => exact ⟨index, by rw [next, Option.isSome_some]⟩
    | retries abandoned next => exact ⟨index, by rw [next, Option.isSome_some]⟩
    | @waits owner running claimed owes next => exact ⟨owner, next⟩
  · push Not at waits
    exact ⟨index, act_of_unwaiting found (Bool.eq_false_iff.mpr unfinished) waits⟩

end Flight

end ViewCompiler
