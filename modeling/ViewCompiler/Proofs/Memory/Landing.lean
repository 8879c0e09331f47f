import ViewCompiler.Proofs.Memory.Tally

/-!
# Changes that land out of order

Writers may share a project. Each of them takes the tick of its change and lands later, and in
between the others take ticks and land too, so that the generation of a path can fall as well
as rise. It never comes back to what it was: no tick is taken twice, and a tick lands once at
most. A token therefore reports a change exactly if its path was reached since the token was
issued, and it reports it for good.
-/

namespace ViewCompiler.Memory

/-- A change that took its tick and has not landed. -/
structure Pending where
  change : Edit
  tick : Nat
deriving DecidableEq, Repr

/-- A project that writers share. -/
structure Traffic where
  memory : Memory := {}
  /-- The changes that have not landed, in the order of their ticks. -/
  pending : List Pending := []
deriving Repr

/-- What one of the writers does next. -/
inductive Move
  /-- Takes a tick for a change. A change that names no path under the root takes none. -/
  | take (change : Edit)
  /-- Lands the change that stands at this place among those that have not landed. -/
  | land (index : Nat)
deriving DecidableEq, Repr

namespace Traffic

/-- The project after a move. -/
def move (traffic : Traffic) : Move → Traffic
  | .take change =>
    if (Logical.normalize change.path).isSome then
      ⟨traffic.memory.tick.2, traffic.pending ++ [⟨change, traffic.memory.tick.1⟩]⟩
    else traffic
  | .land index =>
    match traffic.pending[index]? with
    | some pending =>
      ⟨traffic.memory.land pending.change pending.tick, traffic.pending.eraseIdx index⟩
    | none => traffic

/-- The project after moves, made in order. -/
def run (traffic : Traffic) (moves : List Move) : Traffic := moves.foldl move traffic

/-- The canonical path whose record a move replaces, if there is one. Taking a tick replaces
none. -/
def reached? (traffic : Traffic) : Move → Option Text
  | .take _ => none
  | .land index =>
    traffic.pending[index]?.bind fun pending => traffic.memory.reached? pending.change

/-- The canonical paths whose records are replaced in the course of moves. -/
def reachedAll (traffic : Traffic) : List Move → List Text
  | [] => []
  | move :: moves => (traffic.reached? move).toList ++ (traffic.move move).reachedAll moves

/-- A change that lands at once is the change as it is made by a single writer. -/
theorem run_alone (memory : Memory) (change : Edit) :
    (run ⟨memory, []⟩ [.take change, .land 0]).memory = memory.edit change := by
  cases normal : Logical.normalize change.path with
  | none => simp [run, move, normal, edit_outside normal]
  | some canonical =>
    have inside : (Logical.normalize change.path).isSome := by rw [normal]; rfl
    simp [run, move, inside, edit_eq_land inside]

variable {traffic : Traffic} {generation : Nat} {path : Text}

/-- No change will land with this tick: the clock has reached it, and whoever took it has
landed. -/
def Spent (traffic : Traffic) (generation : Nat) : Prop :=
  generation ≤ traffic.memory.clock ∧ ∀ pending ∈ traffic.pending, pending.tick ≠ generation

/-- Every tick was taken once, and those that stand on paths have landed. -/
structure Sound (traffic : Traffic) : Prop where
  distinct : traffic.pending.Pairwise fun one other => one.tick ≠ other.tick
  ticked : ∀ pending ∈ traffic.pending, pending.tick ≤ traffic.memory.clock
  spent : ∀ path, traffic.Spent (traffic.memory.generation path)

/-- What a move can do, and the path that it reaches: nothing, a tick is taken, or one of the
changes that have not landed lands. -/
inductive Moved (traffic : Traffic) : Option Text → Traffic → Prop
  | idle : Moved traffic none traffic
  | taken (change : Edit) : Moved traffic none
      ⟨traffic.memory.tick.2, traffic.pending ++ [⟨change, traffic.memory.tick.1⟩]⟩
  | landed (front back : List Pending) (landing : Pending)
      (shape : traffic.pending = front ++ landing :: back) :
      Moved traffic (traffic.memory.reached? landing.change)
        ⟨traffic.memory.land landing.change landing.tick, front ++ back⟩

/-- A move is one of these, and reaches the path that is told of it. -/
theorem moved (traffic : Traffic) (move : Move) :
    traffic.Moved (traffic.reached? move) (traffic.move move) := by
  cases move with
  | take change =>
    simp only [Traffic.move]
    split
    · exact .taken change
    · exact .idle
  | land index =>
    simp only [Traffic.move, reached?]
    cases found : traffic.pending[index]? with
    | none => exact .idle
    | some landing =>
      obtain ⟨below, same⟩ := List.getElem?_eq_some_iff.mp found
      have shape : traffic.pending =
          traffic.pending.take index ++ landing :: traffic.pending.drop (index + 1) := by
        rw [← same, List.getElem_cons_drop, List.take_append_drop]
      simp only [List.eraseIdx_eq_take_drop_succ]
      exact .landed _ _ landing shape

/-- A landing leaves the clock alone. -/
theorem clock_land (memory : Memory) (change : Edit) (tick : Nat) :
    (memory.land change tick).clock = memory.clock := by
  unfold land
  cases Logical.normalize change.path with
  | none => rfl
  | some canonical =>
    cases change with
    | write spelled content => rfl
    | remove spelled =>
      simp only [landRemoval]
      split <;> rfl

variable {after : Traffic} {reached : Option Text}

/-- What is spent stays so. -/
theorem Spent.moved (spent : traffic.Spent generation) (moved : traffic.Moved reached after) :
    after.Spent generation := by
  obtain ⟨known, landed⟩ := spent
  cases moved with
  | idle => exact ⟨known, landed⟩
  | taken change =>
    refine ⟨Nat.le_succ_of_le known, ?_⟩
    intro pending member
    rcases List.mem_append.mp member with earlier | new
    · exact landed pending earlier
    · obtain rfl := List.mem_singleton.mp new
      exact Nat.ne_of_gt (Nat.lt_succ_of_le known)
  | landed front back landing shape =>
    refine ⟨Nat.le_trans known (Nat.le_of_eq (clock_land _ _ _).symm), ?_⟩
    intro pending member
    apply landed
    rw [shape, List.mem_append, List.mem_cons]
    exact (List.mem_append.mp member).imp_right .inr

/-- After a move, a path has another generation than a spent one if the move reached it, or if
it had another one before. -/
theorem Spent.generation_moved (spent : traffic.Spent generation)
    (moved : traffic.Moved reached after) :
    after.memory.generation path ≠ generation ↔
      reached = some path ∨ traffic.memory.generation path ≠ generation := by
  cases moved with
  | idle => simp
  | taken change => exact (or_iff_right nofun).symm
  | landed front back landing shape =>
    by_cases reaches : traffic.memory.reached? landing.change = some path
    · have differs := spent.2 landing (by simp [shape])
      simp [generation_land_reached _ reaches, reaches, differs]
    · rw [generation_congr (file?_land_unreached _ reaches)]
      simp [reaches]

/-- Moves keep the ticks in order. -/
theorem Sound.moved (sound : traffic.Sound) (moved : traffic.Moved reached after) :
    after.Sound := by
  have known := moved
  cases moved with
  | idle => exact sound
  | taken change =>
    refine ⟨?_, ?_, fun path => (sound.spent path).moved known⟩
    · refine List.pairwise_append.mpr ⟨sound.distinct, List.pairwise_singleton _ _, ?_⟩
      intro pending member new same
      obtain rfl := List.mem_singleton.mp same
      exact Nat.ne_of_lt (Nat.lt_succ_of_le (sound.ticked pending member))
    · intro pending member
      rcases List.mem_append.mp member with earlier | new
      · exact Nat.le_succ_of_le (sound.ticked pending earlier)
      · obtain rfl := List.mem_singleton.mp new
        exact Nat.le_refl _
  | landed front back landing shape =>
    have among {pending : Pending} (member : pending ∈ landing :: (front ++ back)) :
        pending ∈ traffic.pending := by
      rw [shape]
      exact List.perm_middle.symm.mem_iff.mp member
    have distinct := sound.distinct
    rw [shape, List.pairwise_middle fun differ => Ne.symm differ] at distinct
    obtain ⟨apart, others⟩ := List.pairwise_cons.mp distinct
    refine ⟨others, ?_, ?_⟩
    · intro pending member
      rw [clock_land]
      exact sound.ticked pending (among (List.mem_cons_of_mem _ member))
    · intro path
      by_cases reaches : traffic.memory.reached? landing.change = some path
      · rw [generation_land_reached _ reaches]
        refine ⟨?_, fun pending member => Ne.symm (apart pending member)⟩
        rw [clock_land]
        exact sound.ticked landing (among List.mem_cons_self)
      · rw [generation_congr (file?_land_unreached _ reaches)]
        exact (sound.spent path).moved known

/-- Writers who begin with an empty project keep the ticks in order. -/
theorem run_sound (moves : List Move) : (run {} moves).Sound := by
  have empty : ({} : Traffic).Sound :=
    ⟨List.Pairwise.nil, by simp, fun _ => ⟨Nat.le_refl 0, by simp⟩⟩
  apply List.foldlRecOn moves move empty
  intro traffic sound move _
  exact sound.moved (traffic.moved move)

/-- After many moves, it has another one if any of them reached it. -/
theorem Spent.generation_run (spent : traffic.Spent generation) (moves : List Move) :
    (traffic.run moves).memory.generation path ≠ generation ↔
      path ∈ traffic.reachedAll moves ∨ traffic.memory.generation path ≠ generation := by
  induction moves generalizing traffic with
  | nil => simp [run, reachedAll]
  | cons move moves inductionHypothesis =>
    have step := traffic.moved move
    have first : traffic.run (move :: moves) = (traffic.move move).run moves := rfl
    rw [first, inductionHypothesis (spent.moved step), spent.generation_moved step, reachedAll,
      List.mem_append, Option.mem_toList]
    simp only [or_assoc, or_left_comm]

/-- The paths that are reached in the course of moves and of further moves. -/
theorem reachedAll_append (moves further : List Move) :
    traffic.reachedAll (moves ++ further) =
      traffic.reachedAll moves ++ (traffic.run moves).reachedAll further := by
  induction moves generalizing traffic with
  | nil => rfl
  | cons move moves inductionHypothesis =>
    rw [List.cons_append, reachedAll, inductionHypothesis, ← List.append_assoc]
    rfl

/-- A token that was issued at some moment reports a change exactly if its path was reached since. -/
theorem Sound.token_changed_iff (sound : traffic.Sound) (path : Text) (moves : List Move) :
    (traffic.run moves).memory.changed (traffic.memory.token path) = true ↔
      ∃ canonical, Logical.normalize path = some canonical ∧
        canonical ∈ traffic.reachedAll moves := by
  cases normal : Logical.normalize path with
  | none => simp [token, normal, Memory.changed]
  | some canonical =>
    have differs : (traffic.run moves).memory.generation canonical ≠
          traffic.memory.generation canonical ↔ canonical ∈ traffic.reachedAll moves ∨
        traffic.memory.generation canonical ≠ traffic.memory.generation canonical :=
      (sound.spent canonical).generation_run moves
    simpa [token, normal, Memory.changed] using differs

/-- However the moves of writers are mixed, a token reports a change exactly if a write, or a
removal that found a record, landed on its path since the token was issued. Once it reports the
change it reports it for good, and moves that reach other paths make no difference to it. -/
theorem token_exact (before after : List Move) (path : Text) :
    let issued := ({} : Traffic).run before
    let now := issued.run after
    let token := issued.memory.token path
    (now.memory.changed token = true ↔
      ∃ canonical, Logical.normalize path = some canonical ∧ canonical ∈ issued.reachedAll after) ∧
    ∀ further,
      (now.memory.changed token = true → (now.run further).memory.changed token = true) ∧
      ((∀ canonical ∈ now.reachedAll further, Logical.normalize path ≠ some canonical) →
        (now.run further).memory.changed token = now.memory.changed token) := by
  intro issued now token
  have sound : issued.Sound := run_sound before
  have exact_ := sound.token_changed_iff path after
  refine ⟨exact_, ?_⟩
  intro further
  have later : issued.run (after ++ further) = now.run further := List.foldl_append
  have whole := sound.token_changed_iff path (after ++ further)
  rw [later, reachedAll_append] at whole
  refine ⟨?_, ?_⟩
  · intro reports
    obtain ⟨canonical, normal, reached⟩ := exact_.mp reports
    exact whole.mpr ⟨canonical, normal, List.mem_append_left _ reached⟩
  · intro aside
    rw [Bool.eq_iff_iff, whole, exact_]
    constructor
    · rintro ⟨canonical, normal, member⟩
      rcases List.mem_append.mp member with reached | beyond
      · exact ⟨canonical, normal, reached⟩
      · exact absurd normal (aside canonical beyond)
    · rintro ⟨canonical, normal, reached⟩
      exact ⟨canonical, normal, List.mem_append_left _ reached⟩

/-- Two writes of a path land in the other order, and the generation of the path falls. -/
theorem token_exact_falling :
    let issued := ({} : Traffic).run
      [.take (.write "/a.cshtml" []), .take (.write "~/a.cshtml" [0]), .land 1]
    let now := issued.run [.land 0]
    issued.memory.generation "/a.cshtml" = 2 ∧ now.memory.generation "/a.cshtml" = 1 ∧
      now.memory.changed (issued.memory.token "/a.cshtml") = true := by
  refine ⟨by decide, by decide, ?_⟩
  exact (token_exact [.take (.write "/a.cshtml" []), .take (.write "~/a.cshtml" [0]), .land 1]
    [.land 0] "/a.cshtml").1.mpr ⟨"/a.cshtml", by decide, by decide⟩

end Traffic

end ViewCompiler.Memory
