import ViewCompiler.Proofs.Cache.Moves

/-!
# What a move of a caller does

Of a move of a caller, others see little: a key is claimed, an entry is installed, a claim
is given back, or a build is ended, with its entry or without. Every other move leaves the
slots and the builds as they are, and the caller keeps what it holds. `Effect` is this
list; what is true of every run is proved from it, move by move.

A run of callers in turns is written down as the marks that it leaves: which caller claimed
a key under which handle, and what became of the claim.
-/

namespace ViewCompiler

namespace Phase

variable {Token : Type}

/-- The handle under which a caller in this phase holds the claim of its key. -/
def claim? : Phase Token → Option Nat
  | .starting handle | .resolving handle _ | .issuing handle .. | .recording handle ..
  | .compiling handle .. | .installing handle _ | .releasing handle => some handle
  | _ => none

/-- The handle of a build that a caller in this phase has yet to end. -/
def build? : Phase Token → Option Nat
  | .completing handle _ | .abandoning handle => some handle
  | phase => phase.claim?

/-- The handle that a caller in this phase waits on. -/
def awaits? : Phase Token → Option Nat
  | .joining handle | .waiting handle => some handle
  | _ => none

/-- The entry that a caller in this phase is about to install or to hand out, with its handle. -/
def brings? : Phase Token → Option (Nat × Entry Token)
  | .installing handle entry | .completing handle entry => some (handle, entry)
  | _ => none

/-- The entry that a caller in this phase has installed and is to hand out, with its handle. -/
def hands? : Phase Token → Option (Nat × Entry Token)
  | .completing handle entry => some (handle, entry)
  | _ => none

/-- A phase that neither waits nor has an entry to install or to hand out. -/
def isPlain : Phase Token → Bool
  | .joining _ | .waiting _ | .installing .. | .completing .. => false
  | _ => true

/-- Who holds a claim has a build to end. -/
theorem build?_of_claim? {phase : Phase Token} {handle : Nat} (holds : phase.claim? = some handle) :
    phase.build? = some handle := by
  cases phase <;> first | exact holds | cases holds

end Phase

/-- What a move leaves behind of a claim, with the caller that made it. -/
inductive Mark (Token : Type)
  | claimed (index : Nat) (key : Text) (handle : Nat)
  | installed (index : Nat) (key : Text) (handle : Nat) (entry : Entry Token)
  | released (index : Nat) (key : Text) (handle : Nat)

/-- The mark of a move from one phase to another. -/
def Mark.of? {Token : Type} (index : Nat) (key : Text) :
    Phase Token → Phase Token → Option (Mark Token)
  | .claiming _, .starting handle => some (.claimed index key handle)
  | .installing handle entry, _ => some (.installed index key handle entry)
  | .releasing handle, _ => some (.released index key handle)
  | _, _ => none

namespace Flight

variable {P Token : Type}

section Running

variable [Project P Token]

/-- The mark of what happens next. -/
def mark? (flight : Flight P Token) : Action P → Option (Mark Token)
  | .advance index => do
    let caller ← flight.callers[index]?
    let (phase, _) ← move flight.options flight.cache caller
    Mark.of? index caller.key caller.phase phase
  | _ => none

/-- The states that a flight can come to, in any order of moves, with any changes of the
project and any builds breaking off, and the marks left on the way. -/
inductive Reached (start : Flight P Token) : Flight P Token → List (Mark Token) → Prop
  | start : Reached start start []
  | act {flight next : Flight P Token} {marks : List (Mark Token)} (action : Action P)
      (reached : Reached start flight marks) (done : flight.act action = some next) :
      Reached start next (marks ++ (flight.mark? action).toList)

end Running

/-- The effect of a move of a caller for a key, on the cache and on the caller's phase. -/
inductive Effect (cache : Cache P Token) (key : Text) :
    Phase Token → Phase Token → Cache P Token → Prop
  /-- A move that leaves slots and builds alone. A caller comes to wait only on the claim
  of its key, and only an entry of its key, made under its handle, is about to be installed. -/
  | quiet {phase next : Phase Token} {after : Cache P Token} (slots : after.slots = cache.slots)
      (handles : after.handles = cache.handles) (claim : next.claim? = phase.claim?)
      (build : next.build? = phase.build?)
      (awaits : ∀ handle, next.awaits? = some handle →
        phase.awaits? = some handle ∨ cache.slot? key = some (.pending handle))
      (brings : ∀ handle entry, next.brings? = some (handle, entry) →
        entry.id = handle ∧ entry.path = key)
      (hands : next.hands? = none)
      (unmarked : ∀ index, Mark.of? index key phase next = none) : Effect cache key phase next after
  | claims {stale : Option Nat} {after : Cache P Token}
      (free : ∀ handle, cache.slot? key ≠ some (.pending handle))
      (slots : after.slots = cache.slots.put key (.pending cache.handles.length))
      (handles : after.handles = cache.handles ++ [.running]) :
      Effect cache key (.claiming stale) (.starting cache.handles.length) after
  | installs {handle : Nat} {entry : Entry Token} :
      Effect cache key (.installing handle entry) (.completing handle entry)
        (cache.install key entry)
  | completes {handle : Nat} {entry : Entry Token} :
      Effect cache key (.completing handle entry) (.returned entry) (cache.complete handle entry)
  | releases {handle : Nat} :
      Effect cache key (.releasing handle) (.abandoning handle) (cache.release key handle)
  | abandons {handle : Nat} : Effect cache key (.abandoning handle) .broken (cache.abandon handle)

variable {cache after : Cache P Token} {key : Text}

/-- A quiet move to a phase that neither waits nor has an entry to install or to hand out. -/
theorem Effect.still {phase next : Phase Token} (plain : next.isPlain = true)
    (slots : after.slots = cache.slots) (handles : after.handles = cache.handles)
    (claim : next.claim? = phase.claim?) (build : next.build? = phase.build?)
    (unmarked : ∀ index, Mark.of? index key phase next = none) :
    Effect cache key phase next after := by
  have waits : next.awaits? = none := by cases next <;> first | rfl | cases plain
  have brings : next.brings? = none := by cases next <;> first | rfl | cases plain
  have hands : next.hands? = none := by cases next <;> first | rfl | cases plain
  exact .quiet slots handles claim build (by simp [waits]) (by simp [brings]) hands unmarked

/-- Every move has one of these effects. -/
theorem Moves.effect [Project P Token] {options : Options} {kind : ImportsKind}
    {phase next : Phase Token} (moves : Moves options cache key kind phase next after) :
    Effect cache key phase next after := by
  cases moves with
  | meets claimed | defers claimed =>
    refine .quiet rfl rfl rfl rfl ?_ nofun rfl fun _ => rfl
    rintro _ ⟨⟩
    exact .inr claimed
  | joins => exact .quiet rfl rfl rfl rfl (fun _ same => .inl same) nofun rfl fun _ => rfl
  | claims free =>
    refine .claims ?_ rfl rfl
    rcases free with empty | ⟨entry, stands, -⟩
    · simp [empty]
    · simp [stands]
  | concludes | settles =>
    refine .quiet rfl rfl rfl rfl nofun ?_ rfl fun _ => rfl
    rintro _ _ ⟨⟩
    exact ⟨rfl, rfl⟩
  | installs => exact .installs
  | completes => exact .completes
  | releases => exact .releases
  | abandons => exact .abandons
  | finds | misses | hits | passes | expires | returns | receives | retries | starts | asks
  | resolves | issues | watches | compiles | reads =>
    exact .still rfl rfl rfl rfl rfl fun _ => rfl

/-- One thing that happens to a flight, as far as claims and builds are concerned, and the
mark that it leaves. -/
inductive Change (flight : Flight P Token) : Flight P Token → Option (Mark Token) → Prop
  | call (path : Text) (kind : ImportsKind) : Change flight (flight.call path kind) none
  | move {index : Nat} {caller : Caller Token} {phase : Phase Token} {cache : Cache P Token}
      (found : flight.callers[index]? = some caller)
      (effect : Effect flight.cache caller.key caller.phase phase cache) :
      Change flight (flight.withPhase index phase cache)
        (Mark.of? index caller.key caller.phase phase)
  | edit (change : P → P) : Change flight (flight.edit change) none

variable {flight next : Flight P Token}

/-- Whatever happens is one of these things. A build that breaks off is a quiet move. -/
theorem act_change [Project P Token] {action : Action P} (done : flight.act action = some next) :
    Change flight next (flight.mark? action) := by
  cases action with
  | call path kind =>
    cases done
    exact .call path kind
  | edit change =>
    cases done
    exact .edit change
  | advance index =>
    simp only [act, advance, Option.bind_eq_bind, Option.bind_eq_some_iff] at done
    obtain ⟨caller, found, ⟨phase, cache⟩, moved, same⟩ := done
    cases same
    have mark : flight.mark? (.advance index) = Mark.of? index caller.key caller.phase phase := by
      simp only [mark?, found, Option.bind_eq_bind, Option.bind_some, moved]
    rw [mark]
    exact .move found (moves_of_move moved).effect
  | breakOff index =>
    simp only [act, breakOff, Option.bind_eq_bind, Option.bind_eq_some_iff] at done
    obtain ⟨⟨key, kind, phase⟩, found, handle, building, same⟩ := done
    cases same
    have unmarked : Mark.of? index key phase (.releasing handle) = none := by
      cases phase <;> first | rfl | cases building
    have effect : Effect flight.cache key phase (.releasing handle)
        (flight.cache.note [.released key]) := by
      cases phase <;> cases building <;> exact .still rfl rfl rfl rfl rfl fun _ => rfl
    have change := Change.move found effect
    rw [unmarked] at change
    exact change

/-! ## What callers have -/

/-- The caller with this index, who asks for this key, has something in its phase. -/
def Has {α : Type} (what : Phase Token → Option α) (flight : Flight P Token) (index : Nat)
    (key : Text) (value : α) : Prop :=
  ∃ caller, flight.callers[index]? = some caller ∧ caller.key = key ∧ what caller.phase = some value

variable {α : Type} {what : Phase Token → Option α} {index other : Nat} {caller : Caller Token}
  {phase : Phase Token} {value : α}

/-- A caller has one thing of a kind. -/
theorem Has.unique {key another : Text} {value alike : α} (has : flight.Has what index key value)
    (also : flight.Has what index another alike) : key = another ∧ value = alike := by
  obtain ⟨caller, found, rfl, known⟩ := has
  obtain ⟨same, again, rfl, likewise⟩ := also
  obtain rfl := Option.some.inj (found.symm.trans again)
  exact ⟨rfl, Option.some.inj (known.symm.trans likewise)⟩

/-- A caller that is known has what its phase says. -/
theorem has_of_found (found : flight.callers[index]? = some caller) :
    flight.Has what index key value ↔ key = caller.key ∧ what caller.phase = some value := by
  constructor
  · rintro ⟨same, again, rfl, known⟩
    obtain rfl := Option.some.inj (found.symm.trans again)
    exact ⟨rfl, known⟩
  · rintro ⟨rfl, known⟩
    exact ⟨caller, found, rfl, known⟩

/-- A caller in another phase has what that phase says; the others have what they had. -/
theorem has_withPhase (found : flight.callers[index]? = some caller) :
    (flight.withPhase index phase cache).Has what other key value ↔
      if other = index then key = caller.key ∧ what phase = some value
      else flight.Has what other key value := by
  have look : (flight.withPhase index phase cache).callers[other]? =
      if other = index then some { caller with phase } else flight.callers[other]? := by
    unfold withPhase
    rw [List.getElem?_modify]
    by_cases same : other = index
    · subst same
      simp [found]
    · simp [same, Ne.symm same]
  by_cases same : other = index
  · rw [if_pos same] at look
    rw [has_of_found look, if_pos same]
  · rw [if_neg same] at look
    unfold Has
    rw [look, if_neg same]

/-- Callers have afterwards what they had before. -/
def Keeps (what : Phase Token → Option α) (flight next : Flight P Token) : Prop :=
  ∀ {index key value}, next.Has what index key value ↔ flight.Has what index key value

/-- All callers but one have afterwards what they had before, and the one has nothing. -/
def Loses (what : Phase Token → Option α) (index : Nat) (flight next : Flight P Token) : Prop :=
  ∀ {other key value},
    next.Has what other key value ↔ flight.Has what other key value ∧ other ≠ index

/-- One caller has something afterwards, and all have what they had before. -/
def Gains (what : Phase Token → Option α) (index : Nat) (key : Text) (value : α)
    (flight next : Flight P Token) : Prop :=
  ∀ {other another thing}, next.Has what other another thing ↔
    flight.Has what other another thing ∨ (other = index ∧ another = key ∧ thing = value)

/-- A phase that says the same keeps what callers have. -/
theorem keeps_withPhase (what : Phase Token → Option α)
    (found : flight.callers[index]? = some caller) (same : what phase = what caller.phase) :
    Keeps what flight (flight.withPhase index phase cache) := by
  intro other key value
  rw [has_withPhase found]
  split
  · rename_i own
    rw [own, has_of_found found, same]
  · exact Iff.rfl

/-- A phase that says nothing loses what the caller had. -/
theorem loses_withPhase (what : Phase Token → Option α)
    (found : flight.callers[index]? = some caller) (lost : what phase = none) :
    Loses what index flight (flight.withPhase index phase cache) := by
  intro other key value
  rw [has_withPhase found]
  split
  · rename_i own
    simp [own, lost]
  · rename_i differs
    simp [differs]

/-- A phase that says more gains it for the caller. -/
theorem gains_withPhase (what : Phase Token → Option α)
    (found : flight.callers[index]? = some caller) {gained : α} (before : what caller.phase = none)
    (after : what phase = some gained) :
    Gains what index caller.key gained flight (flight.withPhase index phase cache) := by
  intro other another thing
  rw [has_withPhase found]
  split
  · rename_i own
    rw [own, has_of_found found, before, after]
    simp [eq_comm]
  · rename_i differs
    simp [differs]

/-- A new caller has nothing yet. -/
theorem keeps_call (what : Phase Token → Option α) {path : Text} {kind : ImportsKind}
    (nothing : what .arriving = none) : Keeps what flight (flight.call path kind) := by
  intro other key value
  unfold Has call
  by_cases last : other < flight.callers.length
  · rw [List.getElem?_append_left last]
  · have beyond : flight.callers[other]? = none := List.getElem?_eq_none (Nat.le_of_not_lt last)
    rw [List.getElem?_append_right (Nat.le_of_not_lt last), beyond]
    constructor
    · rintro ⟨caller, found, _, known⟩
      obtain rfl := List.mem_singleton.mp (List.mem_of_getElem? found)
      rw [nothing] at known
      cases known
    · rintro ⟨caller, found, _⟩
      cases found

end Flight

end ViewCompiler
