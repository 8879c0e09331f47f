import ViewCompiler.Directory
import ViewCompiler.Proofs.Cache.Grounded
import ViewCompiler.Proofs.Disk.Edits

/-!
# What a call returns is no older than the call

A call reads the slot of its key and asks the tokens of the entry it found one after the
other, and holds no lock while it does. Whatever others do in between, what it returns was
there while it was in progress. Either the entry was being built then, under its own handle,
or it stood under the key, and each of its tokens was asked at that moment or later and
reported no change.

That no token reports a change at one and the same moment is more than this. It follows if a
token that would report a change during the call still does so when it is asked. Tokens that
count generations and tokens that are told of changes do; a probe compares a file with what it
remembers, and a file that was restored before anybody asked does not differ from it.

An entry is installed in the place of the claim that its own build holds, and of nothing else.
-/

namespace ViewCompiler.Flight

variable {P Token : Type} {flight next start : Flight P Token}
  {marks : List (Mark Token)} {seen : List (Flight P Token)} {key : Text} {entry : Entry Token}
  {handle : Nat}

/-- The build of a handle was running for a key in one of these states. -/
def Underway (seen : List (Flight P Token)) (key : Text) (handle : Nat) : Prop :=
  ∃ moment ∈ seen, (∃ owner, moment.Has Phase.build? owner key handle) ∧
    moment.cache.progress? handle = some .running

/-- A build that was running in one of some states was running in one of more. -/
theorem Underway.append (underway : Underway seen key handle) (more : List (Flight P Token)) :
    Underway (seen ++ more) key handle := by
  obtain ⟨moment, member, builds⟩ := underway
  exact ⟨moment, List.mem_append_left more member, builds⟩

/-- A build that is done stays done. -/
theorem Turn.done {mark : Option (Mark Token)} (orderly : Orderly flight)
    (turn : Turn flight next mark) (done : flight.cache.progress? handle = some (.done entry)) :
    next.cache.progress? handle = some (.done entry) := by
  have unowed {index : Nat} {key : Text} {other : Nat}
      (owes : flight.Has Phase.build? index key other) : handle ≠ other := by
    rintro rfl
    have running := (orderly.running handle).mpr ⟨index, key, owes⟩
    rw [done] at running
    cases running
  cases turn with
  | quiet slots builds => rwa [builds]
  | claims free fresh slots builds =>
    have known : handle ≠ _ := fun same => by
      rw [same, fresh] at done
      cases done
    rwa [builds, if_neg known]
  | installs holds brought slots builds => rwa [builds]
  | completes owes handed brought slots builds => rwa [builds, if_neg (unowed owes)]
  | releases holds slots builds => rwa [builds]
  | abandons owes slots builds => rwa [builds, if_neg (unowed owes)]

/-- A key that is claimed is being built by who has claimed it. -/
theorem Orderly.underway (orderly : Orderly flight)
    (claimed : flight.cache.slot? key = some (.pending handle)) :
    Underway (seen ++ [flight]) key handle := by
  obtain ⟨owner, holds⟩ := (orderly.pending key handle).mp claimed
  have running := (orderly.running handle).mpr ⟨owner, key, holds.build⟩
  have last : flight ∈ seen ++ [flight] := List.mem_append_right seen (List.mem_singleton.mpr rfl)
  exact ⟨flight, last, ⟨owner, holds.build⟩, running⟩

/-- An entry has the handle that a caller waited on for it. -/
theorem Recorded.id_of_done (recorded : Recorded start flight marks) {index : Nat}
    (awaits : flight.Has Phase.awaits? index key handle)
    (done : flight.cache.progress? handle = some (.done entry)) : entry.id = handle := by
  obtain ⟨owner, claimed⟩ := recorded.awaits awaits
  have installed := recorded.installed_of_done claimed done
  obtain ⟨_, _, -, same | ⟨_, same, id, -⟩⟩ := recorded.ended installed rfl
  · cases same
  · cases same
    exact id

section Asking

variable [Project P Token]

/-- An entry stood under a key in one of these states, and of its tokens all but those that are
left reported no change in this state or in a later one. -/
def Looked (seen : List (Flight P Token)) (key : Text) (entry : Entry Token) (left : List Token) :
    Prop :=
  ∃ before moment after, seen = before ++ moment :: after ∧
    moment.cache.slot? key = some (.cached entry) ∧
    ∃ asked, asked ++ left = entry.tokens ∧
      ∀ token ∈ asked, ∃ later ∈ moment :: after, Project.changed later.cache.project token = false

/-- What a call has met in the states in which it was in progress. -/
def Met (cache : Cache P Token) (seen : List (Flight P Token)) (key : Text) :
    Phase Token → Prop
  | .checking entry left => Looked seen key entry left
  | .joining handle | .waiting handle => Underway seen key handle
  | .returned entry =>
      (Underway seen key entry.id ∧ cache.progress? entry.id = some (.done entry)) ∨
        Looked seen key entry []
  | _ => True

/-- A look that was made in some states was made in more of them. -/
theorem Looked.append {left : List Token} (looked : Looked seen key entry left)
    (more : List (Flight P Token)) : Looked (seen ++ more) key entry left := by
  obtain ⟨before, moment, after, rfl, stands, asked, whole, quiet⟩ := looked
  refine ⟨before, moment, after ++ more, ?_, stands, asked, whole, ?_⟩
  · rw [List.append_assoc, List.cons_append]
  · intro token member
    obtain ⟨later, among, unchanged⟩ := quiet token member
    exact ⟨later, List.mem_append_left more among, unchanged⟩

/-- What a call has met it has met for good, if results of builds are kept. -/
theorem Met.append {cache after : Cache P Token} {phase : Phase Token}
    (met : Met cache seen key phase) (more : List (Flight P Token))
    (done : ∀ handle entry, cache.progress? handle = some (.done entry) →
      after.progress? handle = some (.done entry)) : Met after (seen ++ more) key phase := by
  cases phase with
  | checking entry left => exact Looked.append met more
  | joining handle | waiting handle => exact Underway.append met more
  | returned entry =>
    cases met with
    | inl built => exact .inl ⟨built.1.append more, done _ _ built.2⟩
    | inr looked => exact .inr (looked.append more)
  | arriving | claiming | starting | resolving | issuing | recording | compiling | installing
  | completing | releasing | abandoning | broken => trivial

/-- A caller has met, after its move, what it stands for. -/
theorem Moves.met {index : Nat} {caller : Caller Token} {phase : Phase Token}
    {after : Cache P Token} (orderly : Orderly flight) (recorded : Recorded start flight marks)
    (found : flight.callers[index]? = some caller)
    (moves : Moves flight.options flight.cache caller.key caller.kind caller.phase phase after)
    (met : Met flight.cache seen caller.key caller.phase) :
    Met after (seen ++ [flight]) caller.key phase := by
  obtain ⟨key, kind, before⟩ := caller
  dsimp only at moves met ⊢
  have last : flight ∈ seen ++ [flight] := List.mem_append_right seen (List.mem_singleton.mpr rfl)
  cases moves with
  | meets claimed | defers claimed => exact orderly.underway claimed
  | finds stands => exact ⟨seen, flight, [], rfl, stands, [], rfl, nofun⟩
  | hits => exact .inr (Looked.append met [flight])
  | @passes entry token left quiet =>
    obtain ⟨before, moment, after, rfl, stands, asked, whole, unchanged⟩ := met
    refine ⟨before, moment, after ++ [flight], by simp, stands, asked ++ [token], by simpa, ?_⟩
    intro other member
    rcases List.mem_append.mp member with earlier | own
    · obtain ⟨later, among, reports⟩ := unchanged other earlier
      exact ⟨later, List.mem_append_left [flight] among, reports⟩
    · rw [List.mem_singleton.mp own]
      exact ⟨flight, by simp, quiet⟩
  | joins => exact Underway.append met [flight]
  | @receives handle entry done =>
    have id : entry.id = handle := recorded.id_of_done ⟨_, found, rfl, rfl⟩ done
    subst id
    exact .inl ⟨Underway.append met [flight], done⟩
  | @completes handle entry =>
    have owes : flight.Has Phase.build? index key handle := ⟨_, found, rfl, rfl⟩
    have running := (orderly.running handle).mpr ⟨index, key, owes⟩
    have brings : flight.Has Phase.brings? index key (handle, entry) := ⟨_, found, rfl, rfl⟩
    obtain ⟨rfl, -⟩ := recorded.brings brings
    refine .inl ⟨⟨flight, last, ⟨index, owes⟩, running⟩, ?_⟩
    rw [progress?_set running rfl, if_pos rfl]
  | misses | expires | claims | returns | retries | starts | asks | resolves | issues | watches
  | compiles | concludes | reads | settles | installs | releases | abandons => trivial

/-- Each call has met what its caller stands for. -/
theorem Course.met {options : Options} {cache : Cache P Token}
    {past : List (Flight P Token × Action P)} (settled : cache.Settled)
    (course : Course ⟨options, cache, []⟩ past flight) {index : Nat} {caller : Caller Token}
    (found : flight.callers[index]? = some caller) :
    Met flight.cache (during index past) caller.key caller.phase := by
  induction course generalizing index caller with
  | start => cases found
  | @act past flight next action earlier done inductionHypothesis =>
    obtain ⟨marks, reached⟩ := earlier.reached
    obtain ⟨orderly, recorded⟩ := reached_orderly settled reached
    have turn := (act_change done).turn orderly
    -- Who does not move has met what it had met before.
    have kept {index : Nat} {caller : Caller Token}
        (found : flight.callers[index]? = some caller) :
        Met next.cache (during index (past ++ [(flight, action)])) caller.key caller.phase := by
      obtain ⟨more, longer⟩ : ∃ more,
          during index (past ++ [(flight, action)]) = during index past ++ more := by
        unfold during
        rw [List.map_append, List.filter_append]
        exact ⟨_, rfl⟩
      rw [longer]
      exact (inductionHypothesis found).append more fun _ _ => turn.done orderly
    cases act_happens done with
    | call path kind =>
      cases callers_call found with
      | inl before => exact kept before
      | inr new =>
        rw [new]
        trivial
    | edit change => exact kept found
    | move mover moves =>
      rcases callers_withPhase mover found with ⟨rfl, rfl⟩ | ⟨-, other⟩
      · rw [during_snoc (moves.calls mover)]
        have moved := moves.met orderly recorded mover (inductionHypothesis mover)
        exact moved
      · exact kept other
    | breaks breaker building =>
      rcases callers_withPhase breaker found with ⟨rfl, rfl⟩ | ⟨-, other⟩
      · trivial
      · exact kept other

/-- No token of an entry that would report a change in one of these states would report none in a
later one. -/
def Lasting (seen : List (Flight P Token)) (entry : Entry Token) : Prop :=
  seen.Pairwise fun earlier later => ∀ token ∈ entry.tokens,
    Project.changed earlier.cache.project token = true →
      Project.changed later.cache.project token = true

/-- Each token of an entry that was looked at reported no change then or later; so the entry was not
out of date at that moment if its tokens last. -/
theorem Looked.moment (looked : Looked seen key entry []) :
    ∃ before moment after, seen = before ++ moment :: after ∧
      moment.cache.slot? key = some (.cached entry) ∧
      (∀ token ∈ entry.tokens,
        ∃ later ∈ moment :: after, Project.changed later.cache.project token = false) ∧
      (Lasting (moment :: after) entry → entry.isExpired moment.cache.project = false) := by
  obtain ⟨before, moment, after, same, stands, asked, whole, quiet⟩ := looked
  rw [List.append_nil] at whole
  rw [whole] at quiet
  refine ⟨before, moment, after, same, stands, quiet, ?_⟩
  intro lasting
  unfold Entry.isExpired
  rw [List.any_eq_false]
  intro token member reports
  obtain ⟨later, among, unchanged⟩ := quiet token member
  have still : Project.changed later.cache.project token = true := by
    rcases List.mem_cons.mp among with rfl | further
    · exact reports
    · exact (List.pairwise_cons.mp lasting).1 later further token member reports
  rw [unchanged] at still
  cases still

/-- The entry that a caller is about to install goes in the place of the claim of its own build. -/
theorem installing_own {options : Options} {cache : Cache P Token} (settled : cache.Settled)
    {past : List (Flight P Token × Action P)} (course : Course ⟨options, cache, []⟩ past flight)
    {index : Nat} {kind : ImportsKind}
    (found : flight.callers[index]? = some ⟨key, kind, .installing handle entry⟩) :
    flight.cache.slot? key = some (.pending handle) ∧ entry.id = handle ∧ entry.path = key ∧
      ∀ other another, flight.Has Phase.build? other another handle → other = index := by
  obtain ⟨marks, reached⟩ := course.reached
  obtain ⟨orderly, recorded⟩ := reached_orderly settled reached
  have holds : flight.Has Phase.claim? index key handle := ⟨_, found, rfl, rfl⟩
  have brings : flight.Has Phase.brings? index key (handle, entry) := ⟨_, found, rfl, rfl⟩
  obtain ⟨id, path⟩ := recorded.brings brings
  refine ⟨(orderly.pending key handle).mpr ⟨index, holds⟩, id, path, ?_⟩
  intro other another builds
  exact (orderly.alone builds holds.build).1

/-- Whatever callers do, in any order, with any changes of the project and any builds breaking
off. What a call returned was, while the call was in progress, either being built for its key,
by the build of its handle, which is done with it, or it stood under the key, and each of its
tokens was asked then or later and reported no change; it was not out of date at that moment
if no token that would report a change from then on would later report none. And what is about
to be installed goes in the place of the claim of its own build, which nobody else has, and of
nothing else. -/
theorem returned_timely {options : Options} {cache : Cache P Token} (created : cache.Created)
    {past : List (Flight P Token × Action P)} (course : Course ⟨options, cache, []⟩ past flight) :
    (∀ index key kind entry, flight.callers[index]? = some ⟨key, kind, .returned entry⟩ →
      (Underway (during index past) key entry.id ∧
        flight.cache.progress? entry.id = some (.done entry)) ∨
      ∃ before moment after, during index past = before ++ moment :: after ∧
        moment.cache.slot? key = some (.cached entry) ∧
        (∀ token ∈ entry.tokens,
          ∃ later ∈ moment :: after, Project.changed later.cache.project token = false) ∧
        (Lasting (moment :: after) entry → entry.isExpired moment.cache.project = false)) ∧
    ∀ index key kind handle entry,
      flight.callers[index]? = some ⟨key, kind, .installing handle entry⟩ →
        flight.cache.slot? key = some (.pending handle) ∧ entry.id = handle ∧ entry.path = key ∧
          (∀ other another, flight.Has Phase.build? other another handle → other = index) ∧
          ∀ next, flight.act (.advance index) = some next → ∀ other, next.cache.slot? other =
            if other = key then some (.cached entry) else flight.cache.slot? other := by
  constructor
  · intro index key kind entry found
    cases course.met created.settled found with
    | inl built => exact .inl built
    | inr looked => exact .inr looked.moment
  · intro index key kind handle entry found
    obtain ⟨pending, id, path, single⟩ := installing_own created.settled course found
    refine ⟨pending, id, path, single, ?_⟩
    intro next done other
    have installed : next = flight.withPhase index (.completing handle entry)
        (flight.cache.install key entry) := by
      simpa [act, advance, found, move] using done.symm
    rw [installed]
    exact slot?_put rfl other

end Asking

/-! ## A file that comes and goes during a call -/

/-- A template that is not text, alone in a directory that is probed. -/
def unreadable : Cache Directory DirectoryToken where
  project := { disk := ⟨[(["a.cshtml"], .file [255] 0)]⟩, root := "/" }

/-- A call builds the entry of the template. Then an import file is written, and another call
finds the entry and asks the token of the template; the template is removed and then the import
file, and the call asks the token of the import file, which is as it was in the beginning. -/
def restoring : List (Action Directory) :=
  let edit (change : Disk.Edit) : Action Directory :=
    .edit fun directory => { directory with disk := directory.disk.edit change }
  .call "/a.cshtml" .views :: List.replicate 14 (.advance 0) ++
    [edit (.write ["_ViewImports.cshtml"] [] 0), .call "/a.cshtml" .views, .advance 1, .advance 1,
      edit (.remove ["a.cshtml"]), edit (.remove ["_ViewImports.cshtml"]), .advance 1, .advance 1]

/-- Whether a call has returned an entry that was out of date, with nothing being built, in every
state in which the call was in progress. -/
def returnsOutdated (index : Nat)
    (course : List (Flight Directory DirectoryToken × Action Directory) ×
      Flight Directory DirectoryToken) : Bool :=
  match course.2.callers[index]? with
  | some ⟨_, _, .returned entry⟩ => (during index course.1).all fun moment =>
      entry.isExpired moment.cache.project && moment.callers.all (·.phase.build?.isNone)
  | _ => false

/-- A file that is restored between two questions lets a call return an entry that was out of date
all the while and that nobody was building. -/
theorem restoring_outdated : ∃ past flight key kind entry,
    follow ⟨{}, unreadable, []⟩ restoring = some (past, flight) ∧
      Course ⟨{}, unreadable, []⟩ past flight ∧
      flight.callers[1]? = some ⟨key, kind, .returned entry⟩ ∧
      ∀ moment ∈ during 1 past, entry.isExpired moment.cache.project = true ∧
        ∀ owner another handle, ¬ moment.Has Phase.build? owner another handle := by
  have outdated : ((⟨{}, unreadable, []⟩ : Flight Directory DirectoryToken).follow restoring).any
      (returnsOutdated 1) = true := by
    decide +kernel
  obtain ⟨⟨past, flight⟩, followed, returns⟩ := (Option.any_eq_true _ _).mp outdated
  unfold returnsOutdated at returns
  split at returns
  · rename_i key kind entry found
    refine ⟨past, flight, key, kind, entry, followed, course_of_follow followed, found, ?_⟩
    intro moment member
    have both := List.all_eq_true.mp returns moment member
    rw [Bool.and_eq_true] at both
    refine ⟨both.1, ?_⟩
    rintro owner _ handle ⟨caller, there, -, builds⟩
    have idle := List.all_eq_true.mp both.2 caller (List.mem_of_getElem? there)
    rw [builds] at idle
    cases idle
  · cases returns

/-- The other call found its entry and asked each token when it reported no change. -/
theorem returned_timely_restoring : unreadable.Created ∧ ∃ past flight key kind entry,
    Course ⟨{}, unreadable, []⟩ past flight ∧
      flight.callers[1]? = some ⟨key, kind, .returned entry⟩ ∧
      ∃ moment ∈ during 1 past, moment.cache.slot? key = some (.cached entry) ∧
        ∀ token ∈ entry.tokens,
          ∃ later ∈ during 1 past, Project.changed later.cache.project token = false := by
  have created : unreadable.Created := .empty _
  obtain ⟨past, flight, key, kind, entry, -, course, found, outdated⟩ := restoring_outdated
  refine ⟨created, past, flight, key, kind, entry, course, found, ?_⟩
  obtain ⟨returned, -⟩ := returned_timely created course
  rcases returned 1 key kind entry found with
    ⟨underway, -⟩ | ⟨before, moment, after, whole, stands, quiet, -⟩
  · obtain ⟨moment, member, ⟨owner, builds⟩, -⟩ := underway
    exact absurd builds ((outdated moment member).2 owner key entry.id)
  · rw [whole]
    refine ⟨moment, by simp, stands, ?_⟩
    intro token member
    obtain ⟨later, among, unchanged⟩ := quiet token member
    exact ⟨later, List.mem_append_right before among, unchanged⟩

/-- What the other call returned was out of date in every state in which this call was in progress,
and was not being built in any. -/
theorem returned_outdated : unreadable.Created ∧ ∃ past flight key kind entry,
    follow ⟨{}, unreadable, []⟩ restoring = some (past, flight) ∧
      Course ⟨{}, unreadable, []⟩ past flight ∧
      flight.callers[1]? = some ⟨key, kind, .returned entry⟩ ∧
      ¬ Underway (during 1 past) key entry.id ∧
      ¬ ∃ moment ∈ during 1 past, moment.cache.slot? key = some (.cached entry) ∧
        entry.isExpired moment.cache.project = false := by
  obtain ⟨past, flight, key, kind, entry, followed, course, found, outdated⟩ := restoring_outdated
  refine ⟨.empty _, past, flight, key, kind, entry, followed, course, found, ?_, ?_⟩
  · rintro ⟨moment, member, ⟨owner, builds⟩, -⟩
    exact (outdated moment member).2 owner key entry.id builds
  · rintro ⟨moment, member, -, unexpired⟩
    rw [(outdated moment member).1] at unexpired
    cases unexpired

/-! ## Tokens that last -/

section Lasting

variable {P Token : Type} [Project P Token] [Project.Discreet P] {flight : Flight P Token}
  {past : List (Flight P Token × Action P)}

/-- After every change of the project in a course, a token that reported a change still does. -/
def LatchingAll (past : List (Flight P Token × Action P)) : Prop :=
  ∀ flight change, (flight, .edit change) ∈ past →
    Project.Latching flight.cache.project (change flight.cache.project)

/-- What tokens that were issued in one state report in a later one. -/
def Reports (earlier later : Flight P Token) : Prop :=
  Project.Honest earlier.cache.project later.cache.project ∧
    Project.Latching earlier.cache.project later.cache.project

/-- Reports of tokens carry over from one state to the next and on to a third. -/
theorem Reports.trans {first second third : Flight P Token} (before : Reports first second)
    (after : Reports second third) : Reports first third := by
  constructor
  · intro token issued
    exact after.1 token (before.1 token issued)
  · intro token issued reports
    exact after.2 token (before.1 token issued) (before.2 token issued reports)

/-- Whatever happens but a change of the project stops no report. -/
theorem Happens.reports [Project.Steady P] {next : Flight P Token} {action : Action P}
    (happens : Happens flight action next)
    (edits : ∀ change, action = .edit change →
      Project.Honest flight.cache.project (change flight.cache.project) ∧
        Project.Latching flight.cache.project (change flight.cache.project)) :
    Reports flight next := by
  cases happens with
  | call path kind => exact ⟨fun _ issued => issued, fun _ _ reports => reports⟩
  | edit change => exact edits change rfl
  | move found moves =>
    have touches := moves.touches
    refine ⟨touches.honest, ?_⟩
    intro token issued reports
    exact (touches.changed issued).trans reports
  | breaks found building => exact ⟨fun _ issued => issued, fun _ _ reports => reports⟩

/-- In every state of such a course, tokens report what they reported in the states before. -/
theorem Course.reports [Project.Steady P] {start : Flight P Token}
    (course : Course start past flight) (honest : HonestAll past) (latching : LatchingAll past) :
    (past.map Prod.fst).Pairwise Reports ∧
      ∀ earlier ∈ past.map Prod.fst, Reports earlier flight := by
  induction course with
  | start => exact ⟨.nil, nofun⟩
  | @act past flight next action earlier done inductionHypothesis =>
    obtain ⟨ordered, sofar⟩ := inductionHypothesis
      (fun flight change member => honest flight change (List.mem_append_left _ member))
      (fun flight change member => latching flight change (List.mem_append_left _ member))
    have last : (flight, action) ∈ past ++ [(flight, action)] :=
      List.mem_append_right _ (List.mem_singleton.mpr rfl)
    have step : Reports flight next := by
      apply (act_happens done).reports
      rintro change rfl
      exact ⟨honest flight change last, latching flight change last⟩
    rw [List.map_append, List.map_singleton]
    constructor
    · rw [List.pairwise_append]
      refine ⟨ordered, List.pairwise_singleton _ _, ?_⟩
      intro before member after same
      rw [List.mem_singleton.mp same]
      exact sofar before member
    · intro before member
      rcases List.mem_append.mp member with among | same
      · exact (sofar before among).trans step
      · rw [List.mem_singleton.mp same]
        exact step

/-- In every state in which a call was in progress, what is cached is grounded. -/
theorem Course.grounded_moment {options : Options} {cache : Cache P Token}
    (created : cache.Created) (course : Course ⟨options, cache, []⟩ past flight)
    (honest : HonestAll past) {index : Nat} {moment : Flight P Token}
    (within : moment ∈ during index past) : Grounded moment := by
  obtain ⟨⟨_, action⟩, member, rfl⟩ := List.mem_map.mp (List.mem_filter.mp within).1
  obtain ⟨before, begins, beginning⟩ := course.beginning member
  apply beginning.grounded created.settled created.grounded
  intro flight change among
  exact honest flight change (begins.subset among)

/-- If no change of the project takes back a token or stops one that reported a change, what a call
returned was being built while the call was in progress, or it stood under the key at some
moment of the call and was not out of date. -/
theorem Course.returned_current [Project.Steady P] {options : Options} {cache : Cache P Token}
    (created : cache.Created) (course : Course ⟨options, cache, []⟩ past flight)
    (honest : HonestAll past) (latching : LatchingAll past) {index : Nat} {key : Text}
    {kind : ImportsKind} {entry : Entry Token}
    (found : flight.callers[index]? = some ⟨key, kind, .returned entry⟩) :
    Underway (during index past) key entry.id ∨
      ∃ moment ∈ during index past, moment.cache.slot? key = some (.cached entry) ∧
        entry.isExpired moment.cache.project = false := by
  rcases course.met created.settled found with ⟨underway, -⟩ | looked
  · exact .inl underway
  · obtain ⟨before, moment, after, whole, stands, -, unexpired⟩ := looked.moment
    have within : moment ∈ during index past := by simp [whole]
    refine .inr ⟨moment, within, stands, unexpired ?_⟩
    have issued := (course.grounded_moment created honest within).cache.slots stands
    have ordered : (during index past).Pairwise Reports :=
      (course.reports honest latching).1.filter _
    rw [whole, List.pairwise_append] at ordered
    obtain ⟨further, pairs⟩ := List.pairwise_cons.mp ordered.2.1
    refine List.pairwise_cons.mpr ⟨?_, pairs.imp_of_mem ?_⟩
    · intro later member token known
      exact (further later member).2 token (issued.issued token known)
    · intro earlier later member _ reports token known
      exact reports.2 token ((further earlier member).1 token (issued.issued token known))

end Lasting

/-- What holds of the project, and what its changes are allowed to do because it holds, in a course
in which moves and changes keep it. -/
theorem Course.allowed {P Token : Type} [Project P Token] {start flight : Flight P Token}
    {past : List (Flight P Token × Action P)} {holds : P → Prop}
    (course : Course start past flight) (allows : P → P → Prop)
    (begins : holds start.cache.project)
    (touched : ∀ before after, Project.Touches before after → holds before → holds after)
    (changed : ∀ moment change, (moment, .edit change) ∈ past → holds moment.cache.project →
      holds (change moment.cache.project) ∧
        allows moment.cache.project (change moment.cache.project)) :
    holds flight.cache.project ∧ ∀ moment change, (moment, .edit change) ∈ past →
      allows moment.cache.project (change moment.cache.project) := by
  induction course with
  | start => exact ⟨begins, nofun⟩
  | @act past flight next action earlier done inductionHypothesis =>
    obtain ⟨still, allowed⟩ := inductionHypothesis
      fun moment change member => changed moment change (List.mem_append_left _ member)
    have last : (flight, action) ∈ past ++ [(flight, action)] :=
      List.mem_append_right _ (List.mem_singleton.mpr rfl)
    constructor
    · cases act_happens done with
      | call path kind => exact still
      | edit change => exact (changed flight change last still).1
      | move found moves => exact touched _ _ moves.touches still
      | breaks found building => exact still
    · intro moment change member
      rcases List.mem_append.mp member with among | same
      · exact allowed moment change among
      · cases List.mem_singleton.mp same
        exact (changed flight change last still).2

/-- Over a project in memory, writing and removing files takes back no token and stops none. -/
theorem Course.memory_latching {start flight : Flight Memory MemoryToken}
    {past : List (Flight Memory MemoryToken × Action Memory)} (course : Course start past flight)
    (dated : start.cache.project.Dated)
    (plain : ∀ moment change, (moment, .edit change) ∈ past →
      ∃ edit : Memory.Edit, change = fun memory => memory.edit edit) :
    HonestAll past ∧ LatchingAll past := by
  have touched (before after : Memory) (touches : Project.Touches before after)
      (dated : before.Dated) : after.Dated := by
    rwa [Memory.eq_of_touches touches]
  let lasts (before after : Memory) := Project.Honest before after ∧ Project.Latching before after
  obtain ⟨-, allowed⟩ := course.allowed lasts dated touched fun moment change member dated => by
    obtain ⟨edit, rfl⟩ := plain moment change member
    exact ⟨(Memory.edit_since dated edit).2, Memory.edit_latching dated edit⟩
  exact ⟨fun moment change member => (allowed moment change member).1,
    fun moment change member => (allowed moment change member).2⟩

end ViewCompiler.Flight
