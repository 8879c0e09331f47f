import ViewCompiler.Proofs.Cache.Calls
import ViewCompiler.Proofs.Cache.Course
import ViewCompiler.Proofs.Compilation.Sight
import ViewCompiler.Proofs.Memory.Since

/-!
# Tokens that were issued, under handles that are known

A token that nobody issued may report anything, and may report something else as soon as
another one is issued. No such token gets into a cache: whatever callers do, the tokens of
every entry that stands under a key, that a build is done with or that a caller has in hand
were issued, and its handle is known. So moves of callers make no difference to what tokens
report, and two entries under different handles are never mistaken for each other.

What the project's own changes do to tokens is for the project to say. A change that takes back
none of the tokens leaves all this as it is.
-/

namespace ViewCompiler

namespace Project

/-- A project that shows the same whatever tokens are asked and issued. A token reports no change
when it is new, and reports what it reports whatever others are issued. -/
class Discreet (P : Type) {Token : outParam Type} [Project P Token] extends Sighted P where
  /-- The token was issued. -/
  Issued : P → Token → Prop
  own (project : P) (path : Text) :
    Issued (Project.issue project path).2 (Project.issue project path).1
  issued {project : P} {token : Token} (path : Text) (known : Issued project token) :
    Issued (Project.issue project path).2 token
  asked {project : P} {token : Token} (other : Token) (known : Issued project token) :
    Issued (Project.asked project other).1 token
  changed_own (project : P) (path : Text) :
    Project.changed (Project.issue project path).2 (Project.issue project path).1 = false
  changed_issued {project : P} {token : Token} (path : Text) (known : Issued project token) :
    Project.changed (Project.issue project path).2 token = Project.changed project token
  octets_asked (project : P) (token : Token) (item : Item) :
    Project.octets (Project.asked project token).1 item = Project.octets project item
  octets_issued (project : P) (path : Text) (item : Item) :
    Project.octets (Project.issue project path).2 item = Project.octets project item

variable {P Token : Type} [Project P Token]

/-- What a caller can do to a project in one move. -/
inductive Touches (before : P) : P → Prop
  | not : Touches before before
  | asks (token : Token) : Touches before (Project.asked before token).1
  | issues (path : Text) : Touches before (Project.issue before path).2

/-- A change that takes back no token. -/
def Honest [Discreet P] (before after : P) : Prop :=
  ∀ token : Token, Discreet.Issued before token → Discreet.Issued after token

/-- A change after which every token that reported a change still does. -/
def Latching [Discreet P] (before after : P) : Prop :=
  ∀ token : Token, Discreet.Issued before token → Project.changed before token = true →
    Project.changed after token = true

variable [Discreet P] {before after : P} {token : Token}

/-- No move of a caller takes back a token. -/
theorem Touches.honest (touches : Touches before after) : Honest before after := by
  intro token known
  cases touches with
  | not => exact known
  | asks other => exact Discreet.asked other known
  | issues path => exact Discreet.issued path known

/-- No move makes a token that was issued report otherwise. -/
theorem Touches.changed [Steady P] (touches : Touches before after)
    (known : Discreet.Issued before token) :
    Project.changed after token = Project.changed before token := by
  cases touches with
  | not => rfl
  | asks other => exact Steady.changed_asked before other token
  | issues path => exact Discreet.changed_issued path known

/-- No move makes an item come or go. -/
theorem Touches.item (touches : Touches before after) (path : Text) :
    Project.item after path = Project.item before path := by
  cases touches with
  | not => rfl
  | asks other => exact Sighted.item_asked before other path
  | issues other => exact Sighted.item_issued before other path

/-- No move makes an item read otherwise. -/
theorem Touches.text (touches : Touches before after) (item : Item) :
    Project.text after item = Project.text before item := by
  unfold Project.text
  cases touches with
  | not => rfl
  | asks other => rw [Discreet.octets_asked]
  | issues path => rw [Discreet.octets_issued]

end Project

/-- A generation that a path has reached. -/
instance : Project.Discreet Memory where
  Issued
    | _, .never => True
    | memory, .generation path issued => issued ≤ memory.generation path
  own memory path := by
    have issued : Project.issue memory path = (memory.token path, memory) := rfl
    rw [issued, Memory.token]
    cases Logical.normalize path with
    | none => trivial
    | some canonical => exact Nat.le_refl _
  issued _ known := known
  asked _ known := known
  changed_own memory path := by
    have issued : Project.issue memory path = (memory.token path, memory) := rfl
    have reports (token : MemoryToken) : Project.changed memory token = memory.changed token := rfl
    rw [issued, reports, Memory.token]
    cases Logical.normalize path with
    | none => rfl
    | some canonical => exact bne_self_eq_false _
  changed_issued _ _ := rfl
  octets_asked _ _ _ := rfl
  octets_issued _ _ _ := rfl

/-- Asking and issuing tokens leaves a project in memory as it is. -/
theorem Memory.eq_of_touches {memory after : Memory} (touches : Project.Touches memory after) :
    after = memory := by
  cases touches <;> rfl

/-- Writing and removing files in memory takes back no token and stops none. -/
theorem Memory.edit_latching {memory : Memory} (dated : memory.Dated) (edit : Memory.Edit) :
    Project.Honest memory (memory.edit edit) ∧ Project.Latching memory (memory.edit edit) := by
  obtain ⟨since, -⟩ := Memory.edit_since dated edit
  have grows (path : Text) : memory.generation path ≤ (memory.edit edit).generation path := by
    rcases since.files path with same | ahead
    · exact Nat.le_of_eq (Memory.generation_congr same).symm
    · exact Nat.le_of_lt (Nat.lt_of_le_of_lt (dated path) ahead)
  constructor
  · intro token known
    cases token with
    | never => trivial
    | generation path issued => exact Nat.le_trans known (grows path)
  · intro token known reports
    cases token with
    | never => cases reports
    | generation path issued =>
      have reached : issued ≤ memory.generation path := known
      have differs : memory.generation path ≠ issued := bne_iff_ne.mp reports
      have further := grows path
      have still : (memory.edit edit).generation path ≠ issued := by omega
      exact bne_iff_ne.mpr still

namespace Phase

variable {Token : Type}

/-- The entry that a caller in this phase has in hand. -/
def entry? : Phase Token → Option (Entry Token)
  | .checking entry _ | .installing _ entry | .completing _ entry | .returned entry => some entry
  | _ => none

/-- The tokens that a build in this phase was issued. -/
def tokens : Phase Token → List Token
  | .issuing _ _ _ issued => issued
  | .recording _ _ tokens | .compiling _ tokens _ => tokens
  | _ => []

end Phase

variable {P Token : Type} [Project P Token] [Project.Discreet P]

/-- The handle of an entry is known, and its tokens were issued. -/
structure Entry.Grounded (cache : Cache P Token) (entry : Entry Token) : Prop where
  known : cache.progress? entry.id ≠ none
  issued : ∀ token ∈ entry.tokens, Project.Discreet.Issued cache.project token

/-- It stays so when handles are added and no token is taken back. -/
theorem Entry.Grounded.kept {cache after : Cache P Token} {entry : Entry Token}
    (grounded : entry.Grounded cache) (honest : Project.Honest cache.project after.project)
    (grown : ∀ handle, cache.progress? handle ≠ none → after.progress? handle ≠ none) :
    entry.Grounded after :=
  ⟨grown _ grounded.known, fun token member => honest token (grounded.issued token member)⟩

/-- So it is with the entries that stand under keys or that builds are done with. -/
structure Cache.Grounded (cache : Cache P Token) : Prop where
  slots : ∀ {key entry}, cache.slot? key = some (.cached entry) → entry.Grounded cache
  done : ∀ {handle entry}, cache.progress? handle = some (.done entry) → entry.Grounded cache

/-- The same slots and builds over a project in which no token was taken back. -/
theorem Cache.Grounded.kept {cache after : Cache P Token} (grounded : cache.Grounded)
    (slots : after.slots = cache.slots) (handles : after.handles = cache.handles)
    (honest : Project.Honest cache.project after.project) : after.Grounded := by
  have grown (handle : Nat) (known : cache.progress? handle ≠ none) :
      after.progress? handle ≠ none := by
    unfold Cache.progress? at known ⊢
    rwa [handles]
  constructor
  · intro key entry stands
    unfold Cache.slot? at stands
    rw [slots] at stands
    exact (grounded.slots stands).kept honest grown
  · intro handle entry done
    unfold Cache.progress? at done
    rw [handles] at done
    exact (grounded.done done).kept honest grown

/-- One more entry, under a handle of its own and without tokens, is grounded. -/
theorem Cache.Grounded.seed {cache : Cache P Token} (grounded : cache.Grounded)
    (view : Text × Text) : (cache.seed view).Grounded := by
  let entry : Entry Token := ⟨cache.handles.length, Logical.stripAppRoot view.1,
    .compiled (.success (.named view.2) true), []⟩
  have handles (handle : Nat) : (cache.seed view).progress? handle =
      if handle = cache.handles.length then some (.done entry) else cache.progress? handle :=
    Flight.progress?_append rfl handle
  have slots (key : Text) : (cache.seed view).slot? key =
      if key = Logical.stripAppRoot view.1 then some (.cached entry) else cache.slot? key :=
    Flight.slot?_put rfl key
  have own : entry.Grounded (cache.seed view) := by
    refine ⟨?_, nofun⟩
    rw [handles, if_pos rfl]
    exact Option.some_ne_none _
  have kept {other : Entry Token} (known : other.Grounded cache) :
      other.Grounded (cache.seed view) := by
    have honest : Project.Honest cache.project (cache.seed view).project := fun _ issued => issued
    apply known.kept honest
    intro handle present
    rw [handles]
    split
    · exact Option.some_ne_none _
    · exact present
  constructor
  · intro key other stands
    rw [slots] at stands
    split at stands
    · cases stands
      exact own
    · exact kept (grounded.slots stands)
  · intro handle other done
    rw [handles] at done
    split at done
    · cases done
      exact own
    · exact kept (grounded.done done)

/-- A cache that was just made is grounded. -/
theorem Cache.Created.grounded {cache : Cache P Token} (created : cache.Created) :
    cache.Grounded := by
  have empty (project : P) : ({ project } : Cache P Token).Grounded :=
    ⟨nofun, fun done => by simp [progress?] at done⟩
  cases created with
  | empty project => exact empty project
  | precompiled project views =>
    have seeded : (views.foldl Cache.seed ({ project } : Cache P Token)).Grounded :=
      List.foldlRecOn views Cache.seed (empty project) fun _ grounded view _ => grounded.seed view
    exact seeded.kept rfl rfl fun _ issued => issued

namespace Flight

section Effects

variable {P Token : Type} {cache after : Cache P Token} {key : Text} {phase next : Phase Token}

/-- No move makes a handle unknown. -/
theorem Effect.known (effect : Effect cache key phase next after) {handle : Nat}
    (known : cache.progress? handle ≠ none) : after.progress? handle ≠ none := by
  have below := List.getElem?_eq_none_iff.not.mp known
  have still : cache.handles.length ≤ after.handles.length := by
    cases effect with
    | quiet slots handles => exact Nat.le_of_eq (congrArg List.length handles).symm
    | claims free slots handles =>
      rw [handles, List.length_append]
      exact Nat.le_add_right _ _
    | installs => exact Nat.le_refl _
    | completes => exact Nat.le_of_eq List.length_set.symm
    | abandons => exact Nat.le_of_eq List.length_set.symm
    | releases =>
      unfold Cache.release
      split
      · split <;> exact Nat.le_refl _
      · exact Nat.le_refl _
  apply List.getElem?_eq_none_iff.not.mpr
  omega

/-- An entry that stands under a key after a move stood there before, or is the mover's. -/
theorem Effect.cached (effect : Effect cache key phase next after) {other : Text}
    {entry : Entry Token} (stands : after.slot? other = some (.cached entry)) :
    cache.slot? other = some (.cached entry) ∨ phase.entry? = some entry := by
  cases effect with
  | quiet slots =>
    unfold Cache.slot? at stands ⊢
    rw [slots] at stands
    exact .inl stands
  | claims free slots =>
    rw [slot?_put slots] at stands
    split at stands
    · cases stands
    · exact .inl stands
  | installs =>
    rw [slot?_put rfl] at stands
    split at stands
    · cases stands
      exact .inr rfl
    · exact .inl stands
  | completes => exact .inl stands
  | abandons => exact .inl stands
  | releases =>
    unfold Cache.release at stands
    split at stands
    · split at stands
      · rw [slot?_drop rfl] at stands
        split at stands
        · cases stands
        · exact .inl stands
      · exact .inl stands
    · exact .inl stands

/-- An entry that a build is done with after a move was its entry before, or is the mover's. -/
theorem Effect.done (effect : Effect cache key phase next after) {handle : Nat}
    {entry : Entry Token} (done : after.progress? handle = some (.done entry)) :
    cache.progress? handle = some (.done entry) ∨ phase.entry? = some entry := by
  cases effect with
  | quiet slots handles =>
    unfold Cache.progress? at done ⊢
    rw [handles] at done
    exact .inl done
  | claims free slots handles =>
    rw [progress?_append handles] at done
    split at done
    · cases done
    · exact .inl done
  | installs => exact .inl done
  | completes =>
    unfold Cache.progress? Cache.complete at done
    rw [List.getElem?_set] at done
    split at done
    · split at done
      · cases done
        exact .inr rfl
      · cases done
    · exact .inl done
  | abandons =>
    unfold Cache.progress? Cache.abandon at done
    rw [List.getElem?_set] at done
    split at done
    · split at done
      · cases done
      · cases done
    · exact .inl done
  | releases =>
    unfold Cache.release at done
    split at done
    · split at done <;> exact .inl done
    · exact .inl done

end Effects

/-- What a move does to the project. -/
theorem Moves.touches {P Token : Type} [Project P Token] {options : Options}
    {cache after : Cache P Token} {key : Text} {kind : ImportsKind} {phase next : Phase Token}
    (moves : Moves options cache key kind phase next after) :
    Project.Touches cache.project after.project := by
  cases moves with
  | passes | expires => exact .asks _
  | issues => exact .issues _
  | releases =>
    unfold Cache.release
    split
    · split <;> exact .not
    · exact .not
  | meets | finds | misses | hits | claims | defers | returns | joins | receives | retries | starts
  | asks | resolves | watches | compiles | concludes | reads | settles | installs | completes
  | abandons => exact .not

/-- What a caller has in hand is grounded. -/
structure Holding (cache : Cache P Token) (phase : Phase Token) : Prop where
  entry : ∀ entry, phase.entry? = some entry → entry.Grounded cache
  tokens : ∀ token ∈ phase.tokens, Project.Discreet.Issued cache.project token

/-- What a caller has in hand stays grounded while tokens are kept and handles only become more. -/
theorem Holding.kept {cache after : Cache P Token} {phase : Phase Token}
    (holding : Holding cache phase) (honest : Project.Honest cache.project after.project)
    (grown : ∀ handle, cache.progress? handle ≠ none → after.progress? handle ≠ none) :
    Holding after phase :=
  ⟨fun entry known => (holding.entry entry known).kept honest grown,
    fun token member => honest token (holding.tokens token member)⟩

/-- What nobody has in hand is grounded. -/
theorem holding_nothing (cache : Cache P Token) {phase : Phase Token} (entry : phase.entry? = none)
    (tokens : phase.tokens = []) : Holding cache phase := by
  constructor
  · intro known same
    rw [entry] at same
    cases same
  · intro token member
    rw [tokens] at member
    cases member

/-- After a move, the cache and what the mover has in hand are grounded. -/
theorem Moves.grounded {options : Options} {cache after : Cache P Token} {key : Text}
    {kind : ImportsKind} {phase next : Phase Token}
    (moves : Moves options cache key kind phase next after) (grounded : cache.Grounded)
    (holding : Holding cache phase)
    (built : ∀ handle, phase.build? = some handle → cache.progress? handle ≠ none) :
    after.Grounded ∧ Holding after next := by
  have honest := moves.touches.honest
  have grown (handle : Nat) (known : cache.progress? handle ≠ none) :
      after.progress? handle ≠ none := moves.effect.known known
  constructor
  · constructor
    · intro key entry stands
      rcases moves.effect.cached stands with before | own
      · exact (grounded.slots before).kept honest grown
      · exact (holding.entry entry own).kept honest grown
    · intro handle entry done
      rcases moves.effect.done done with before | own
      · exact (grounded.done before).kept honest grown
      · exact (holding.entry entry own).kept honest grown
  · have kept := holding.kept honest grown
    cases moves with
    | finds stands =>
      refine ⟨?_, nofun⟩
      rintro _ ⟨⟩
      exact grounded.slots stands
    | receives done =>
      refine ⟨?_, nofun⟩
      rintro _ ⟨⟩
      exact grounded.done done
    | hits | passes | installs | completes => exact ⟨kept.entry, nofun⟩
    | @issues handle unit path left issued =>
      refine ⟨nofun, ?_⟩
      intro token member
      rcases List.mem_append.mp member with before | new
      · exact kept.tokens token before
      · rw [List.mem_singleton.mp new]
        exact Project.Discreet.own cache.project path
    | watches | compiles | reads => exact ⟨nofun, kept.tokens⟩
    | concludes | settles =>
      refine ⟨?_, nofun⟩
      rintro _ ⟨⟩
      exact ⟨grown _ (built _ rfl), kept.tokens⟩
    | meets | misses | expires | claims | defers | returns | joins | retries | starts | asks
    | resolves | releases | abandons => exact holding_nothing _ rfl rfl

/-- The cache and what callers have in hand are grounded. -/
structure Grounded (flight : Flight P Token) : Prop where
  cache : flight.cache.Grounded
  callers : ∀ {index : Nat} {caller : Caller Token}, flight.callers[index]? = some caller →
    Holding flight.cache caller.phase

variable {flight next : Flight P Token} {action : Action P}

/-- Whatever happens leaves a flight grounded, if a change of the project takes back no token. -/
theorem Grounded.act (grounded : Grounded flight) (orderly : Orderly flight)
    (honest : ∀ change, action = .edit change →
      Project.Honest flight.cache.project (change flight.cache.project))
    (done : flight.act action = some next) : Grounded next := by
  cases act_happens done with
  | call path kind =>
    refine ⟨grounded.cache, ?_⟩
    intro index caller there
    cases callers_call there with
    | inl before => exact grounded.callers before
    | inr new =>
      rw [new]
      exact holding_nothing _ rfl rfl
  | edit change =>
    have kept := honest change rfl
    refine ⟨grounded.cache.kept rfl rfl kept, ?_⟩
    intro index caller there
    exact (grounded.callers there).kept kept fun _ known => known
  | @move index caller phase cache found moves =>
    have built (handle : Nat) (owes : caller.phase.build? = some handle) :
        flight.cache.progress? handle ≠ none := by
      rw [(orderly.running handle).mpr ⟨index, caller.key, caller, found, rfl, owes⟩]
      exact Option.some_ne_none _
    obtain ⟨after, own⟩ := moves.grounded grounded.cache (grounded.callers found) built
    refine ⟨after, ?_⟩
    intro other known there
    rcases callers_withPhase found there with ⟨-, rfl⟩ | ⟨-, before⟩
    · exact own
    · exact (grounded.callers before).kept moves.touches.honest fun _ => moves.effect.known
  | @breaks index handle caller found building =>
    have same : Project.Honest flight.cache.project flight.cache.project := fun _ issued => issued
    refine ⟨grounded.cache.kept rfl rfl same, ?_⟩
    intro other known there
    rcases callers_withPhase found there with ⟨-, rfl⟩ | ⟨-, before⟩
    · exact holding_nothing _ rfl rfl
    · exact (grounded.callers before).kept same fun _ known => known

/-- Every change of the project in a course takes back no token. -/
def HonestAll (past : List (Flight P Token × Action P)) : Prop :=
  ∀ flight change, (flight, .edit change) ∈ past →
    Project.Honest flight.cache.project (change flight.cache.project)

/-- Every state of such a course is grounded. -/
theorem Course.grounded {options : Options} {cache : Cache P Token} (settled : cache.Settled)
    (grounded : cache.Grounded) {past : List (Flight P Token × Action P)}
    (course : Course ⟨options, cache, []⟩ past flight) (honest : HonestAll past) :
    Grounded flight := by
  induction course with
  | start => exact ⟨grounded, nofun⟩
  | act action earlier done inductionHypothesis =>
    have before := inductionHypothesis fun flight change member =>
      honest flight change (List.mem_append_left _ member)
    apply before.act (earlier.orderly settled) ?_ done
    rintro change rfl
    exact honest _ change (List.mem_append_right _ (List.mem_singleton.mpr rfl))

end Flight

end ViewCompiler
