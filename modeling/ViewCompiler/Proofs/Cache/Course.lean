import ViewCompiler.Proofs.Cache.SingleFlight

/-!
# The course of a flight

Marks tell what became of claims. What a call met while it was in progress is told by the
course of the flight: everything that happened, in order, each with the state in which it
happened. The states in which a call was in progress are those of the course in which its
caller was there and not done.

A course can be followed from its actions, so that courses of closed actions are computed.
-/

namespace ViewCompiler.Flight

variable {P Token : Type}

/-- Whether a call is in progress. -/
def calls (flight : Flight P Token) (index : Nat) : Bool :=
  flight.callers[index]?.any fun caller => !caller.phase.isOver

/-- The states in which a call was in progress, in order. -/
def during (index : Nat) (past : List (Flight P Token × Action P)) : List (Flight P Token) :=
  (past.map Prod.fst).filter fun flight => flight.calls index

/-- No call is in progress. -/
def Idle (flight : Flight P Token) : Prop :=
  ∀ caller ∈ flight.callers, caller.phase.isOver = true

instance (flight : Flight P Token) : Decidable flight.Idle :=
  inferInstanceAs (Decidable (∀ caller ∈ flight.callers, caller.phase.isOver = true))

section During

variable {past : List (Flight P Token × Action P)} {flight : Flight P Token} {action : Action P}
  {index : Nat}

/-- One more state in which a call is in progress. -/
theorem during_snoc (calls : flight.calls index = true) :
    during index (past ++ [(flight, action)]) = during index past ++ [flight] := by
  simp [during, calls]

/-- A call whose caller is not done is in progress. -/
theorem calls_of_found {caller : Caller Token} (found : flight.callers[index]? = some caller) :
    flight.calls index = !caller.phase.isOver := by
  rw [calls, found, Option.any_some]

end During

section Callers

variable {flight : Flight P Token} {index other : Nat} {caller found : Caller Token}
  {phase : Phase Token} {cache : Cache P Token}

/-- A caller who is there when another one has called is this one or was there before. -/
theorem callers_call {path : Text} {kind : ImportsKind}
    (there : (flight.call path kind).callers[index]? = some caller) :
    flight.callers[index]? = some caller ∨
      caller = ⟨Logical.stripAppRoot path, kind, .arriving⟩ := by
  unfold call at there
  by_cases before : index < flight.callers.length
  · rw [List.getElem?_append_left before] at there
    exact .inl there
  · rw [List.getElem?_append_right (Nat.le_of_not_lt before)] at there
    exact .inr (List.mem_singleton.mp (List.mem_of_getElem? there))

/-- A caller who is there when one caller has moved is this one, in its new phase, or another one
as it was. -/
theorem callers_withPhase (mover : flight.callers[index]? = some found)
    (there : (flight.withPhase index phase cache).callers[other]? = some caller) :
    (other = index ∧ caller = { found with phase }) ∨
      (other ≠ index ∧ flight.callers[other]? = some caller) := by
  unfold withPhase at there
  rw [List.getElem?_modify] at there
  by_cases same : index = other
  · subst same
    simp only [mover, ↓reduceIte, Option.map_eq_map, Option.map_some, Option.some.injEq] at there
    exact .inl ⟨rfl, there.symm⟩
  · simp only [same, ↓reduceIte, Option.map_eq_map, Option.map_id'] at there
    exact .inr ⟨Ne.symm same, there⟩

end Callers

variable [Project P Token] {start flight next : Flight P Token}
  {past : List (Flight P Token × Action P)} {action : Action P}

/-- What can happen, with what it does to the flight. -/
inductive Happens (flight : Flight P Token) : Action P → Flight P Token → Prop
  | call (path : Text) (kind : ImportsKind) :
      Happens flight (.call path kind) (flight.call path kind)
  | edit (change : P → P) : Happens flight (.edit change) (flight.edit change)
  | move {index : Nat} {caller : Caller Token} {phase : Phase Token} {cache : Cache P Token}
      (found : flight.callers[index]? = some caller)
      (moves : Moves flight.options flight.cache caller.key caller.kind caller.phase phase cache) :
      Happens flight (.advance index) (flight.withPhase index phase cache)
  | breaks {index handle : Nat} {caller : Caller Token}
      (found : flight.callers[index]? = some caller)
      (building : caller.phase.building? = some handle) :
      Happens flight (.breakOff index)
        (flight.withPhase index (.releasing handle) (flight.cache.note [.released caller.key]))

/-- What is done is something that can happen. -/
theorem act_happens (done : flight.act action = some next) : Happens flight action next := by
  cases action with
  | call path kind =>
    cases done
    exact .call path kind
  | edit change =>
    cases done
    exact .edit change
  | advance index =>
    simp only [act, advance, Option.bind_eq_bind, Option.bind_eq_some_iff] at done
    obtain ⟨caller, found, ⟨phase, cache⟩, moved, same⟩ := done
    cases same
    exact .move found (moves_of_move moved)
  | breakOff index =>
    simp only [act, breakOff, Option.bind_eq_bind, Option.bind_eq_some_iff] at done
    obtain ⟨caller, found, handle, building, same⟩ := done
    cases same
    exact .breaks found building

/-- Who moves is not done. -/
theorem Moves.isOver_eq_false {options : Options} {cache after : Cache P Token} {key : Text}
    {kind : ImportsKind} {phase later : Phase Token}
    (moves : Moves options cache key kind phase later after) : phase.isOver = false := by
  cases moves <;> rfl

/-- The call of a caller that moves is in progress. -/
theorem Moves.calls {options : Options} {cache after : Cache P Token} {key : Text}
    {kind : ImportsKind} {caller : Caller Token} {later : Phase Token} {index : Nat}
    (moves : Moves options cache key kind caller.phase later after)
    (found : flight.callers[index]? = some caller) : flight.calls index = true := by
  rw [calls_of_found found, moves.isOver_eq_false]
  rfl

/-- What happened to a flight, in order, each with the state in which it happened. -/
inductive Course (start : Flight P Token) :
    List (Flight P Token × Action P) → Flight P Token → Prop
  | start : Course start [] start
  | act {past : List (Flight P Token × Action P)} {flight next : Flight P Token}
      (action : Action P) (course : Course start past flight)
      (done : flight.act action = some next) : Course start (past ++ [(flight, action)]) next

/-- Every state of a course is reached, with the marks left on the way. -/
theorem Course.reached (course : Course start past flight) :
    ∃ marks, Reached start flight marks := by
  induction course with
  | start => exact ⟨[], .start⟩
  | act action earlier done inductionHypothesis =>
    obtain ⟨marks, reached⟩ := inductionHypothesis
    exact ⟨_, reached.act action done⟩

/-- Each state of a course has a course of its own, which is the beginning of the whole. -/
theorem Course.beginning (course : Course start past flight) {moment : Flight P Token}
    (member : (moment, action) ∈ past) :
    ∃ before, before <+: past ∧ Course start before moment := by
  induction course with
  | start => cases member
  | @act past flight next latest earlier done inductionHypothesis =>
    rcases List.mem_append.mp member with among | last
    · obtain ⟨before, begins, course⟩ := inductionHypothesis among
      exact ⟨before, begins.trans (List.prefix_append _ _), course⟩
    · cases List.mem_singleton.mp last
      exact ⟨past, List.prefix_append _ _, earlier⟩

/-- Slots and builds are in order in every state of a course. -/
theorem Course.orderly {options : Options} {cache : Cache P Token} (settled : cache.Settled)
    (course : Course ⟨options, cache, []⟩ past flight) : Orderly flight := by
  obtain ⟨marks, reached⟩ := course.reached
  exact (reached_orderly settled reached).1

/-- The course that actions take, if each can happen. -/
def follow (flight : Flight P Token) :
    List (Action P) → Option (List (Flight P Token × Action P) × Flight P Token)
  | [] => some ([], flight)
  | action :: actions => do
    let next ← flight.act action
    let (past, last) ← next.follow actions
    return ((flight, action) :: past, last)

/-- A course that goes on from where another one stopped. -/
theorem Course.append {further : List (Flight P Token × Action P)}
    (course : Course start past flight) (later : Course flight further next) :
    Course start (past ++ further) next := by
  induction later with
  | start => rwa [List.append_nil]
  | act action earlier done inductionHypothesis =>
    rw [← List.append_assoc]
    exact inductionHypothesis.act action done

/-- What is followed are the actions. -/
theorem actions_of_follow {actions : List (Action P)}
    (followed : start.follow actions = some (past, flight)) : past.map Prod.snd = actions := by
  induction actions generalizing start past with
  | nil =>
    cases followed
    rfl
  | cons action actions inductionHypothesis =>
    simp only [follow, Option.bind_eq_bind, Option.bind_eq_some_iff] at followed
    obtain ⟨next, done, ⟨further, last⟩, rest, same⟩ := followed
    cases same
    rw [List.map_cons, inductionHypothesis rest]

/-- What is followed is a course. -/
theorem course_of_follow {actions : List (Action P)}
    (followed : start.follow actions = some (past, flight)) : Course start past flight := by
  induction actions generalizing start past with
  | nil =>
    cases followed
    exact .start
  | cons action actions inductionHypothesis =>
    simp only [follow, Option.bind_eq_bind, Option.bind_eq_some_iff] at followed
    obtain ⟨next, done, ⟨further, last⟩, rest, same⟩ := followed
    cases same
    have first : Course start [(start, action)] next := Course.start.act action done
    exact first.append (inductionHypothesis rest)

end ViewCompiler.Flight
