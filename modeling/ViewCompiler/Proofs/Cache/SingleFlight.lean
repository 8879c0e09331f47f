import ViewCompiler.Memory
import ViewCompiler.Proofs.Cache.Orderly

/-!
# One build for each key

However callers move in turns, at most one of them builds the entry of a key, and the slot
of the key shows it for exactly as long. Who waits gets the entry that was installed, or
tries again when the build broke off; nobody waits for a build that nobody has yet to end.

Beside the order of slots and builds, this takes what is known of the run: the marks tell
who claimed each build, that each was installed or released at most once and by no other
caller, and that a build is done only with the entry that was installed.
-/

namespace ViewCompiler

/-- Whether a mark is the end of the claim under a handle. -/
def Mark.Ends {Token : Type} (handle : Nat) : Mark Token → Prop
  | .claimed .. => False
  | .installed _ _ other _ => other = handle
  | .released _ _ other => other = handle

/-- Whether a mark ends the claim of this caller, and if with an entry, then with one of the
key that was made under the handle. -/
def Mark.EndsClaim {Token : Type} (index : Nat) (key : Text) (handle : Nat) (mark : Mark Token) :
    Prop :=
  mark = .released index key handle ∨
    ∃ entry, mark = .installed index key handle entry ∧ entry.id = handle ∧ entry.path = key

namespace Flight

variable {P Token : Type} {start flight next : Flight P Token} {marks : List (Mark Token)}

/-- Callers, slots and builds are as the marks of the run tell. -/
structure Recorded (start flight : Flight P Token) (marks : List (Mark Token)) : Prop where
  /-- Who has a build to end has claimed it. -/
  claimed : ∀ {index key handle}, flight.Has Phase.build? index key handle →
    .claimed index key handle ∈ marks
  /-- A claim that is held was not ended. -/
  held : ∀ {index key handle}, flight.Has Phase.claim? index key handle →
    ∀ mark ∈ marks, ¬ mark.Ends handle
  /-- A claim that was not ended is held. -/
  kept : ∀ {index key handle}, .claimed index key handle ∈ marks →
    flight.Has Phase.claim? index key handle ∨ ∃ mark ∈ marks, mark.Ends handle
  once : ∀ {index other key another handle}, .claimed index key handle ∈ marks →
    .claimed other another handle ∈ marks → index = other ∧ key = another
  /-- Handles are claimed when they are new. -/
  fresh : ∀ {index key handle}, .claimed index key handle ∈ marks →
    start.cache.progress? handle = none ∧ flight.cache.progress? handle ≠ none
  /-- A claim is ended by the caller that made it. -/
  ended : ∀ {mark handle}, mark ∈ marks → mark.Ends handle →
    ∃ index key, .claimed index key handle ∈ marks ∧ mark.EndsClaim index key handle
  grown : ∀ {handle}, start.cache.progress? handle ≠ none → flight.cache.progress? handle ≠ none
  /-- Under one handle, one entry is installed. -/
  installed : ∀ {index other key another handle entry twin},
    .installed index key handle entry ∈ marks →
    .installed other another handle twin ∈ marks → twin = entry
  /-- Who waits, waits for a build of its key. -/
  awaits : ∀ {index key handle}, flight.Has Phase.awaits? index key handle →
    ∃ owner, .claimed owner key handle ∈ marks
  brings : ∀ {index key handle entry}, flight.Has Phase.brings? index key (handle, entry) →
    entry.id = handle ∧ entry.path = key
  hands : ∀ {index key handle entry}, flight.Has Phase.hands? index key (handle, entry) →
    .installed index key handle entry ∈ marks
  /-- A build is done with an entry that was installed. -/
  done : ∀ {handle entry}, flight.cache.progress? handle = some (.done entry) →
    start.cache.progress? handle = some (.done entry) ∨
      ∃ index key, .installed index key handle entry ∈ marks

/-- A turn that leaves no mark keeps the record. -/
theorem Recorded.unmarked (recorded : Recorded start flight marks) (orderly : Orderly flight)
    (claim : Keeps Phase.claim? flight next)
    (build : ∀ {index key handle}, next.Has Phase.build? index key handle →
      flight.Has Phase.build? index key handle)
    (awaits : ∀ {index key handle}, next.Has Phase.awaits? index key handle →
      flight.Has Phase.awaits? index key handle ∨ flight.cache.slot? key = some (.pending handle))
    (brings : ∀ {index key handle entry}, next.Has Phase.brings? index key (handle, entry) →
      flight.Has Phase.brings? index key (handle, entry) ∨ (entry.id = handle ∧ entry.path = key))
    (hands : ∀ {index key value}, next.Has Phase.hands? index key value →
      flight.Has Phase.hands? index key value)
    (known : ∀ {handle}, flight.cache.progress? handle ≠ none → next.cache.progress? handle ≠ none)
    (done : ∀ {handle entry}, next.cache.progress? handle = some (.done entry) →
      flight.cache.progress? handle = some (.done entry) ∨
      ∃ index key, .installed index key handle entry ∈ marks) :
    Recorded start next marks where
  claimed has := recorded.claimed (build has)
  held has := recorded.held (claim.mp has)
  kept member := (recorded.kept member).imp_left claim.mpr
  once := recorded.once
  fresh member := (recorded.fresh member).imp_right known
  ended := recorded.ended
  grown before := known (recorded.grown before)
  installed := recorded.installed
  awaits has := by
    rcases awaits has with before | pending
    · exact recorded.awaits before
    · obtain ⟨owner, holds⟩ := (orderly.pending _ _).mp pending
      exact ⟨owner, recorded.claimed holds.build⟩
  brings has := (brings has).elim recorded.brings id
  hands has := recorded.hands (hands has)
  done finished := (done finished).elim recorded.done .inr

/-- So does a claim, with its mark. -/
theorem Recorded.claims (recorded : Recorded start flight marks) {index handle : Nat} {key : Text}
    (new : flight.cache.progress? handle = none)
    (builds : ∀ other, next.cache.progress? other =
      if other = handle then some .running else flight.cache.progress? other)
    (claim : Gains Phase.claim? index key handle flight next)
    (build : Gains Phase.build? index key handle flight next)
    (awaits : Keeps Phase.awaits? flight next) (brings : Keeps Phase.brings? flight next)
    (hands : Keeps Phase.hands? flight next) :
    Recorded start next (marks ++ [.claimed index key handle]) := by
  have known {other : Nat} (before : flight.cache.progress? other ≠ none) :
      other ≠ handle ∧ next.cache.progress? other ≠ none := by
    have differs : other ≠ handle := fun same => before (same ▸ new)
    rw [builds, if_neg differs]
    exact ⟨differs, before⟩
  have added {other number : Nat} {another : Text}
      (member : .claimed other another number ∈ marks ++ [.claimed index key handle]) :
      .claimed other another number ∈ marks ∨ other = index ∧ another = key ∧ number = handle := by
    simpa using member
  have unended (mark : Mark Token) (member : mark ∈ marks ++ [.claimed index key handle])
      {number : Nat} (ends : mark.Ends number) : mark ∈ marks := by
    rcases List.mem_append.mp member with before | last
    · exact before
    · rw [List.mem_singleton.mp last] at ends
      exact ends.elim
  exact {
    claimed := by
      intro other another number has
      rcases build.mp has with before | ⟨rfl, rfl, rfl⟩
      · exact List.mem_append_left _ (recorded.claimed before)
      · exact List.mem_append_right _ (List.mem_singleton.mpr rfl)
    held := by
      intro other another number has mark member ends
      rcases claim.mp has with before | ⟨rfl, rfl, rfl⟩
      · exact recorded.held before mark (unended mark member ends) ends
      · obtain ⟨_, _, claimed, _⟩ := recorded.ended (unended mark member ends) ends
        exact (recorded.fresh claimed).2 new
    kept := by
      intro other another number member
      rcases added member with before | ⟨rfl, rfl, rfl⟩
      · exact (recorded.kept before).imp (fun holds => claim.mpr (.inl holds))
          fun ⟨mark, among, ends⟩ => ⟨mark, List.mem_append_left _ among, ends⟩
      · exact .inl (claim.mpr (.inr ⟨rfl, rfl, rfl⟩))
    once := by
      intro first second one another number member again
      rcases added member with before | ⟨rfl, rfl, rfl⟩
      · rcases added again with alike | ⟨rfl, rfl, rfl⟩
        · exact recorded.once before alike
        · exact absurd new (recorded.fresh before).2
      · rcases added again with alike | ⟨rfl, rfl, -⟩
        · exact absurd new (recorded.fresh alike).2
        · exact ⟨rfl, rfl⟩
    fresh := by
      intro other another number member
      rcases added member with before | ⟨rfl, rfl, rfl⟩
      · exact (recorded.fresh before).imp_right fun present => (known present).2
      · refine ⟨?_, by simp [builds]⟩
        cases origin : start.cache.progress? number with
        | none => rfl
        | some progress => exact absurd new (recorded.grown (by simp [origin]))
    ended := by
      intro past number member ends
      obtain ⟨other, another, claimed, ending⟩ := recorded.ended (unended past member ends) ends
      exact ⟨other, another, List.mem_append_left _ claimed, ending⟩
    grown := fun before => (known (recorded.grown before)).2
    installed := fun member again => recorded.installed (unended _ member rfl) (unended _ again rfl)
    awaits := by
      intro other another number has
      obtain ⟨owner, claimed⟩ := recorded.awaits (awaits.mp has)
      exact ⟨owner, List.mem_append_left _ claimed⟩
    brings := fun has => recorded.brings (brings.mp has)
    hands := fun has => List.mem_append_left _ (recorded.hands (hands.mp has))
    done := by
      intro number entry finished
      rw [builds] at finished
      split at finished
      · cases finished
      · exact (recorded.done finished).imp_right fun ⟨other, another, member⟩ =>
          ⟨other, another, List.mem_append_left _ member⟩ }

/-- So does the end of a claim, with its mark. -/
theorem Recorded.ends (recorded : Recorded start flight marks) (orderly : Orderly flight)
    {index handle : Nat} {key : Text} (holds : flight.Has Phase.claim? index key handle)
    {mark : Mark Token}
    (ending : mark.EndsClaim index key handle)
    (builds : ∀ other, next.cache.progress? other = flight.cache.progress? other)
    (claim : Loses Phase.claim? index flight next) (build : Keeps Phase.build? flight next)
    (awaits : Keeps Phase.awaits? flight next) (brings : Keeps Phase.brings? flight next)
    (hands : ∀ {other another number entry}, next.Has Phase.hands? other another (number, entry) →
      flight.Has Phase.hands? other another (number, entry) ∨
        mark = .installed other another number entry) :
    Recorded start next (marks ++ [mark]) := by
  have ends : mark.Ends handle := by
    rcases ending with rfl | ⟨_, rfl, -⟩ <;> rfl
  have unclaimed {other number : Nat} {another : Text}
      (member : .claimed other another number ∈ marks ++ [mark]) :
      .claimed other another number ∈ marks := by
    rcases ending with rfl | ⟨_, rfl, -⟩ <;> simpa using member
  have single {number : Nat} (also : mark.Ends number) : number = handle := by
    rcases ending with rfl | ⟨_, rfl, -⟩ <;> exact also.symm
  exact {
    claimed := fun has => List.mem_append_left _ (recorded.claimed (build.mp has))
    held := by
      intro other another number has past member likewise
      obtain ⟨before, differs⟩ := claim.mp has
      rcases List.mem_append.mp member with among | last
      · exact recorded.held before past among likewise
      · rw [List.mem_singleton.mp last] at likewise
        obtain rfl := single likewise
        exact differs (orderly.alone before.build holds.build).1
    kept := by
      intro other another number member
      have claimed := unclaimed member
      rcases recorded.kept claimed with before | ⟨past, among, likewise⟩
      · by_cases own : other = index
        · subst own
          obtain ⟨-, rfl⟩ := before.unique holds
          exact .inr ⟨mark, List.mem_append_right _ (List.mem_singleton.mpr rfl), ends⟩
        · exact .inl (claim.mpr ⟨before, own⟩)
      · exact .inr ⟨past, List.mem_append_left _ among, likewise⟩
    once := fun member again => recorded.once (unclaimed member) (unclaimed again)
    fresh := by
      intro other another number member
      rw [builds]
      exact recorded.fresh (unclaimed member)
    ended := by
      intro past number member likewise
      rcases List.mem_append.mp member with among | last
      · obtain ⟨other, another, claimed, ended⟩ := recorded.ended among likewise
        exact ⟨other, another, List.mem_append_left _ claimed, ended⟩
      · obtain rfl := List.mem_singleton.mp last
        obtain rfl := single likewise
        exact ⟨index, key, List.mem_append_left _ (recorded.claimed holds.build), ending⟩
    grown := by
      intro number before
      rw [builds]
      exact recorded.grown before
    installed := by
      intro first second one another number entry twin member again
      rcases List.mem_append.mp member with among | last
      · rcases List.mem_append.mp again with twice | last
        · exact recorded.installed among twice
        · obtain rfl := single (List.mem_singleton.mp last ▸ rfl : mark.Ends number)
          exact absurd rfl (recorded.held holds (.installed first one number entry) among)
      · rcases List.mem_append.mp again with twice | also
        · obtain rfl := single (List.mem_singleton.mp last ▸ rfl : mark.Ends number)
          exact absurd rfl (recorded.held holds (.installed second another number twin) twice)
        · cases (List.mem_singleton.mp last).trans (List.mem_singleton.mp also).symm
          rfl
    awaits := by
      intro other another number has
      obtain ⟨owner, claimed⟩ := recorded.awaits (awaits.mp has)
      exact ⟨owner, List.mem_append_left _ claimed⟩
    brings := fun has => recorded.brings (brings.mp has)
    hands := by
      intro other another number entry has
      rcases hands has with before | rfl
      · exact List.mem_append_left _ (recorded.hands before)
      · exact List.mem_append_right _ (List.mem_singleton.mpr rfl)
    done := by
      intro number entry finished
      rw [builds] at finished
      exact (recorded.done finished).imp_right fun ⟨other, another, member⟩ =>
        ⟨other, another, List.mem_append_left _ member⟩ }

/-- Every turn keeps the record, with the mark that it leaves. -/
theorem Recorded.turn {mark : Option (Mark Token)} (recorded : Recorded start flight marks)
    (orderly : Orderly flight) (turn : Turn flight next mark) :
    Recorded start next (marks ++ mark.toList) := by
  cases turn with
  | quiet slots builds claim build awaits brings hands =>
    rw [Option.toList_none, List.append_nil]
    refine recorded.unmarked orderly claim build.mp awaits brings hands ?_ ?_
    · intro handle before
      rwa [builds]
    · intro handle entry finished
      rw [builds] at finished
      exact .inl finished
  | claims free fresh slots builds claim build awaits brings hands =>
    exact recorded.claims fresh builds claim build awaits brings hands
  | installs holds brought slots builds claim build awaits brings hands =>
    refine recorded.ends orderly holds (.inr ⟨_, rfl, recorded.brings brought⟩) builds claim build
      awaits brings ?_
    intro other another number entry has
    rcases hands.mp has with before | ⟨rfl, rfl, same⟩
    · exact .inl before
    · cases same
      exact .inr rfl
  | completes owes handed brought slots builds claim build awaits brings hands =>
    rw [Option.toList_none, List.append_nil]
    refine recorded.unmarked orderly claim (fun has => (build.mp has).1)
      (fun has => .inl (awaits.mp has)) (fun has => .inl (brings.mp has).1)
      (fun has => (hands.mp has).1) ?_ ?_
    · intro handle before
      rw [builds]
      split
      · simp
      · exact before
    · intro handle entry finished
      rw [builds] at finished
      split at finished
      · rename_i same
        cases finished
        exact .inr ⟨_, _, same ▸ recorded.hands handed⟩
      · exact .inl finished
  | releases holds slots builds claim build awaits brings hands =>
    exact recorded.ends orderly holds (.inl rfl) builds claim build awaits brings fun has =>
      .inl (hands.mp has)
  | abandons owes slots builds claim build awaits brings hands =>
    rw [Option.toList_none, List.append_nil]
    refine recorded.unmarked orderly claim (fun has => (build.mp has).1)
      (fun has => .inl (awaits.mp has)) (fun has => .inl (brings.mp has)) hands.mp ?_ ?_
    · intro handle before
      rw [builds]
      split
      · simp
      · exact before
    · intro handle entry finished
      rw [builds] at finished
      split at finished
      · cases finished
      · exact .inl finished

/-- An entry is installed by the caller that has claimed its build. -/
theorem Recorded.claimed_of_installed (recorded : Recorded start flight marks) {index handle : Nat}
    {key : Text} {entry : Entry Token} (installed : .installed index key handle entry ∈ marks) :
    .claimed index key handle ∈ marks := by
  obtain ⟨_, _, claimed, same | ⟨_, same, -⟩⟩ := recorded.ended installed rfl
  · cases same
  · cases same
    exact claimed

/-- A build that was claimed is done with the entry that its caller has installed. -/
theorem Recorded.installed_of_done (recorded : Recorded start flight marks) {index handle : Nat}
    {key : Text} {entry : Entry Token} (claimed : .claimed index key handle ∈ marks)
    (done : flight.cache.progress? handle = some (.done entry)) :
    .installed index key handle entry ∈ marks := by
  rcases recorded.done done with before | ⟨other, another, installed⟩
  · rw [(recorded.fresh claimed).1] at before
    cases before
  · obtain ⟨rfl, rfl⟩ := recorded.once claimed (recorded.claimed_of_installed installed)
    exact installed

end Flight

/-- A cache as it is when it is made: empty, or with types that were compiled beforehand. -/
inductive Cache.Created {P Token : Type} : Cache P Token → Prop
  | empty (project : P) : Created { project }
  | precompiled (project : P) (views : List (Text × Text)) : Created (withPrecompiled project views)

/-- Nothing is claimed and nothing is being built. -/
def Cache.Settled {P Token : Type} (cache : Cache P Token) : Prop :=
  (∀ key handle, cache.slot? key ≠ some (.pending handle)) ∧
    ∀ handle, cache.progress? handle ≠ some .running

/-- A cache that was just made is settled. -/
theorem Cache.Created.settled {P Token : Type} {cache : Cache P Token} (created : cache.Created) :
    cache.Settled := by
  cases created with
  | empty project => exact ⟨nofun, by simp [progress?]⟩
  | precompiled project views =>
    -- One more type beforehand puts an entry under its key, with a build that is done.
    suffices seeded : ∀ (cache : Cache P Token), cache.Settled → (views.foldl _ cache).Settled from
      seeded _ ⟨nofun, by simp [progress?]⟩
    induction views with
    | nil =>
      intro cache settled
      exact settled
    | cons view views inductionHypothesis =>
      intro cache settled
      refine inductionHypothesis _ ⟨fun key handle => ?_, fun handle => ?_⟩
      · rw [Flight.slot?_put rfl]
        split
        · simp
        · exact settled.1 key handle
      · rw [Flight.progress?_append rfl]
        split
        · simp
        · exact settled.2 handle

namespace Flight

variable {P Token : Type} {options : Options} {cache : Cache P Token}

/-- Before the first call, slots and builds are in order. -/
theorem orderly_start (settled : cache.Settled) : Orderly ⟨options, cache, []⟩ where
  pending key handle := by
    constructor
    · intro pending
      exact absurd pending (settled.1 key handle)
    · nofun
  running handle := by
    constructor
    · intro running
      exact absurd running (settled.2 handle)
    · nofun
  alone := nofun

/-- Before the first call, there is nothing to tell. -/
theorem recorded_start :
    Recorded (⟨options, cache, []⟩ : Flight P Token) ⟨options, cache, []⟩ [] where
  claimed := nofun
  held := nofun
  kept := nofun
  once := nofun
  fresh := nofun
  ended := nofun
  grown := id
  installed := nofun
  awaits := nofun
  brings := nofun
  hands := nofun
  done := .inl

section Running

variable [Project P Token] {flight : Flight P Token} {marks : List (Mark Token)}

/-- Whatever state callers come to, slots and builds are in order and as the marks tell. -/
theorem reached_orderly (settled : cache.Settled)
    (reached : Reached ⟨options, cache, []⟩ flight marks) :
    Orderly flight ∧ Recorded ⟨options, cache, []⟩ flight marks := by
  induction reached with
  | start => exact ⟨orderly_start settled, recorded_start⟩
  | act action _ done inductionHypothesis =>
    obtain ⟨orderly, recorded⟩ := inductionHypothesis
    have turn := (act_change done).turn orderly
    exact ⟨orderly.turn turn, recorded.turn orderly turn⟩

/-- Who has a build to end can move. -/
theorem act_of_build {index handle : Nat} {key : Text}
    (owes : flight.Has Phase.build? index key handle) : (flight.act (.advance index)).isSome := by
  obtain ⟨⟨_, kind, phase⟩, found, rfl, known⟩ := owes
  simp only [act, advance, found, Option.bind_eq_bind, Option.bind_some]
  cases phase with
  | arriving | checking | claiming | joining | waiting | returned | broken => cases known
  | starting | installing | completing | releasing | abandoning => rfl
  | resolving handle left => cases left <;> rfl
  | issuing handle unit left issued => cases left <;> rfl
  | recording handle unit tokens =>
    simp only [move]
    split <;> rfl
  | compiling handle tokens left => cases left <;> rfl

/-- What is ahead of a caller that waits. -/
inductive Waits (flight : Flight P Token) (marks : List (Mark Token)) (index : Nat) (key : Text)
    (handle : Nat) : Prop
  /-- It returns the entry that was installed. -/
  | returns {owner : Nat} {entry : Entry Token}
      (installed : .installed owner key handle entry ∈ marks)
      (done : flight.cache.progress? handle = some (.done entry))
      (next : flight.act (.advance index) =
        some (flight.withPhase index (.returned entry) flight.cache))
  /-- The build broke off, and it tries again. -/
  | retries (abandoned : flight.cache.progress? handle = some .abandoned)
      (next : flight.act (.advance index) = some (flight.withPhase index .arriving flight.cache))
  /-- The caller that has claimed the key has not ended the build, and can go on with it. -/
  | waits {owner : Nat} (running : flight.cache.progress? handle = some .running)
      (claimed : .claimed owner key handle ∈ marks)
      (owes : flight.Has Phase.build? owner key handle)
      (next : (flight.act (.advance owner)).isSome)

/-- Each key has one build at a time, and everybody gets its entry. -/
structure SingleFlight (flight : Flight P Token) (marks : List (Mark Token)) : Prop where
  /-- A claim is held from when it was made until it was ended. -/
  held : ∀ {index key handle}, flight.Has Phase.claim? index key handle ↔
    .claimed index key handle ∈ marks ∧ ∀ mark ∈ marks, ¬ mark.Ends handle
  /-- It is ended by the caller that made it, which installs an entry of the key or gives the
  claim back. -/
  ended : ∀ {mark handle}, mark ∈ marks → mark.Ends handle →
    ∃ index key, .claimed index key handle ∈ marks ∧ mark.EndsClaim index key handle
  /-- No two callers hold a claim of one key. -/
  single : ∀ {index other key handle another}, flight.Has Phase.claim? index key handle →
    flight.Has Phase.claim? other key another → index = other ∧ handle = another
  /-- The slot of a key shows the claim for as long as it is held. -/
  pending : ∀ {key handle}, flight.cache.slot? key = some (.pending handle) ↔
    ∃ index, flight.Has Phase.claim? index key handle
  /-- A build is done with the entry that its caller has installed. -/
  done : ∀ {index key handle entry}, .claimed index key handle ∈ marks →
    flight.cache.progress? handle = some (.done entry) → .installed index key handle entry ∈ marks
  /-- Under one handle, one entry is installed. -/
  installed : ∀ {index other key another handle entry twin},
    .installed index key handle entry ∈ marks →
    .installed other another handle twin ∈ marks → twin = entry
  /-- A build is running only as long as a caller has yet to end it. -/
  running : ∀ {handle}, flight.cache.progress? handle = some .running ↔
    ∃ index key, flight.Has Phase.build? index key handle
  waiting : ∀ {index key kind handle}, flight.callers[index]? = some ⟨key, kind, .waiting handle⟩ →
    Waits flight marks index key handle

/-- What is ahead of a caller that waits depends on the build, which is known. -/
theorem Recorded.waits {start : Flight P Token} (recorded : Recorded start flight marks)
    (orderly : Orderly flight) {index handle : Nat} {key : Text} {kind : ImportsKind}
    (found : flight.callers[index]? = some ⟨key, kind, .waiting handle⟩) :
    Waits flight marks index key handle := by
  obtain ⟨owner, claimed⟩ := recorded.awaits ⟨_, found, rfl, rfl⟩
  cases progress : flight.cache.progress? handle with
  | none => exact absurd progress (recorded.fresh claimed).2
  | some known =>
    cases known with
    | done entry =>
      refine .returns (recorded.installed_of_done claimed progress) progress ?_
      simp [act, advance, found, move, progress]
    | abandoned =>
      refine .retries progress ?_
      simp [act, advance, found, move, progress]
    | running =>
      obtain ⟨other, another, owes⟩ := (orderly.running handle).mp progress
      obtain ⟨rfl, rfl⟩ := recorded.once claimed (recorded.claimed owes)
      exact .waits progress claimed owes (act_of_build owes)

/-- Whatever callers do, in any order, with any changes of the project and any builds
breaking off: each key has one build at a time, and everybody gets its entry. -/
theorem single_flight (created : cache.Created)
    (reached : Reached ⟨options, cache, []⟩ flight marks) : SingleFlight flight marks := by
  obtain ⟨orderly, recorded⟩ := reached_orderly created.settled reached
  exact {
    held := by
      intro index key handle
      constructor
      · intro holds
        exact ⟨recorded.claimed holds.build, recorded.held holds⟩
      · rintro ⟨claimed, unended⟩
        rcases recorded.kept claimed with holds | ⟨mark, member, ends⟩
        · exact holds
        · exact absurd ends (unended mark member)
    ended := recorded.ended
    single := by
      intro index other key handle another holds also
      have shown := (orderly.pending key handle).mpr ⟨index, holds⟩
      rw [(orderly.pending key another).mpr ⟨other, also⟩] at shown
      cases shown
      exact ⟨(orderly.alone holds.build also.build).1, rfl⟩
    pending := orderly.pending _ _
    done := recorded.installed_of_done
    installed := recorded.installed
    running := orderly.running _
    waiting := recorded.waits orderly }

/-- Two callers of one key: one of them builds, and the other one waits for its entry. -/
theorem single_flight_two_callers :
    let cache : Cache Memory MemoryToken := { project := {} }
    let key := Logical.stripAppRoot "/a.cshtml"
    let marks : List (Mark MemoryToken) := [.claimed 0 key 0, .released 0 key 0]
    cache.Created ∧ ∃ flight, Reached ⟨{}, cache, []⟩ flight marks ∧ SingleFlight flight marks ∧
      Waits flight marks 1 key 0 := by
  intro cache key marks
  have created : cache.Created := .empty _
  have called : Reached ⟨{}, cache, []⟩ _ [] :=
    (Reached.start.act (.call "/a.cshtml" .views) rfl).act (.call "/a.cshtml" .views) rfl
  have claimed : Reached ⟨{}, cache, []⟩ _ [.claimed 0 key 0] :=
    (called.act (.advance 0) rfl).act (.advance 0) rfl
  have counted : Reached ⟨{}, cache, []⟩ _ [.claimed 0 key 0] := claimed.act (.advance 0) rfl
  have waiting : Reached ⟨{}, cache, []⟩ _ [.claimed 0 key 0] :=
    (counted.act (.advance 1) rfl).act (.advance 1) rfl
  have released : Reached ⟨{}, cache, []⟩ _ marks :=
    (waiting.act (.breakOff 0) rfl).act (.advance 0) rfl
  have reached : SingleFlight _ marks := single_flight created released
  exact ⟨created, _, released, reached, reached.waiting rfl⟩

end Running

end Flight

end ViewCompiler
