import ViewCompiler.Proofs.Cache.Fresh
import ViewCompiler.Proofs.Cache.Orderly

/-!
# What a build sees while files change

A build looks at the files of a project in many moves, and files may change between any two
of them. It sees whether the template and each import exist when it resolves its unit, and
issues tokens for their paths later on. The sightings of a run tell which unit a build has
resolved, what was found at each path when its token was issued, and which entries were
installed.

Whatever changes, what a build has in hand is right as far as its tokens go: as long as none
of them reports a change, what is left to compile comes to what compiling the unit from the
start would come to.
-/

namespace ViewCompiler

open TemplateUnit

/-- What a build sees of the files, and what it installs. -/
inductive Sighting
  | resolved (handle : Nat) (kind : ImportsKind) (unit : TemplateUnit)
  /-- What was at a path when a token was issued for it. -/
  | watched (handle : Nat) (item : Item)
  | installed (key : Text) (entry : Entry MemoryToken)
deriving DecidableEq, Repr

/-- What the next move of a caller sees or installs. -/
def Caller.sighting? (memory : Memory) (caller : Caller MemoryToken) : Option Sighting :=
  match caller.phase with
  | .resolving handle (.answer unit) => some (.resolved handle caller.kind unit)
  | .issuing handle _ (path :: _) _ => some (.watched handle (memory.item path))
  | .installing _ entry => some (.installed caller.key entry)
  | _ => none

/-- A token that a build has issued for a path, in an earlier state of the project. -/
def IssuedFor (sightings : List Sighting) (handle : Nat) (memory : Memory) (path : Text)
    (token : MemoryToken) : Prop :=
  ∃ origin : Memory, origin.Dated ∧ origin.Since memory ∧ token = origin.token path ∧
    .watched handle (origin.item path) ∈ sightings

/-- A build has resolved a unit for a key and issued tokens for these paths. -/
structure Watches (options : Options) (sightings : List Sighting) (memory : Memory)
    (kind : ImportsKind) (key : Text) (handle : Nat) (unit : TemplateUnit) (paths : List Text)
    (tokens : List MemoryToken) : Prop where
  resolved : .resolved handle kind unit ∈ sightings
  resolvedFor : unit.ResolvedFor options kind key
  sound : unit.item.present = true → unit.Sound
  issued : List.Forall₂ (IssuedFor sightings handle memory) paths tokens

/-- An entry has tokens for all targets of the unit that its build has resolved and, unless
one of them reports a change, the outcome of this unit. -/
def Backed (options : Options) (sightings : List Sighting) (memory : Memory) (key : Text)
    (entry : Entry MemoryToken) : Prop :=
  ∃ kind unit,
    Watches options sightings memory kind key entry.id unit (Cache.targets unit) entry.tokens ∧
    (entry.tokens.any memory.changed = false → entry.outcome = Outcome.ofUnit options unit memory)

/-- What a caller has in hand is right as far as its tokens go. -/
def Sees (options : Options) (sightings : List Sighting) (memory : Memory)
    (caller : Caller MemoryToken) : Prop :=
  match caller.phase with
  | .resolving _ left => left.LeadsTo (ResolvedFor options caller.kind caller.key)
  | .issuing handle unit left issued => ∃ done, done ++ left = Cache.targets unit ∧
      Watches options sightings memory caller.kind caller.key handle unit done issued
  | .recording handle unit tokens =>
      Watches options sightings memory caller.kind caller.key handle unit (Cache.targets unit)
        tokens
  | .compiling handle tokens left => ∃ unit,
      Watches options sightings memory caller.kind caller.key handle unit (Cache.targets unit)
        tokens ∧
        unit.item.present = true ∧ left.Within unit.watched (fun _ => True) ∧
        (tokens.any memory.changed = false →
          left.run memory = (CompilationResult.attempt options unit).run memory)
  | .installing _ entry => Backed options sightings memory caller.key entry
  | _ => True

section Later

variable {options : Options} {sightings further : List Sighting} {memory earlier later : Memory}
  {handle : Nat} {kind : ImportsKind} {key path : Text} {unit : TemplateUnit} {paths : List Text}
  {token : MemoryToken} {tokens : List MemoryToken}

/-- A token remains one that was issued for its path, in every later state. -/
theorem IssuedFor.kept (issued : IssuedFor sightings handle earlier path token)
    (since : earlier.Since later) (more : sightings ⊆ further) :
    IssuedFor further handle later path token := by
  obtain ⟨origin, dated, before, same, seen⟩ := issued
  exact ⟨origin, dated, before.trans since, same, more seen⟩

/-- A build keeps watching what it watches, in every later state. -/
theorem Watches.kept (watches : Watches options sightings earlier kind key handle unit paths tokens)
    (since : earlier.Since later) (more : sightings ⊆ further) :
    Watches options further later kind key handle unit paths tokens :=
  ⟨more watches.resolved, watches.resolvedFor, watches.sound,
    watches.issued.imp fun _ _ issued => issued.kept since more⟩

/-- A token that reports no change now reported none before, and its path is as it was then. -/
theorem IssuedFor.quiet (issued : IssuedFor sightings handle earlier path token)
    (since : earlier.Since later) (quiet : later.changed token = false) :
    earlier.changed token = false ∧
      ∀ canonical, Logical.normalize path = some canonical →
        later.file? canonical = earlier.file? canonical := by
  obtain ⟨origin, dated, before, rfl, -⟩ := issued
  cases normal : Logical.normalize path with
  | none =>
    refine ⟨?_, nofun⟩
    simp only [Memory.token, normal, Memory.changed]
  | some canonical =>
    have now := Memory.file?_of_unchanged (before.trans since) dated normal quiet
    have then_ := Memory.file?_between before since dated now
    constructor
    · simp only [Memory.token, normal, Memory.changed, Memory.generation_congr then_,
        bne_self_eq_false]
    · rintro _ ⟨⟩
      exact now.trans then_.symm

/-- So it is with all tokens of a build. -/
theorem agree_of_issued (issued : List.Forall₂ (IssuedFor sightings handle earlier) paths tokens)
    (since : earlier.Since later) (quiet : tokens.any later.changed = false) :
    tokens.any earlier.changed = false ∧ Memory.Agree paths earlier later := by
  induction issued with
  | nil => exact ⟨rfl, nofun⟩
  | cons first _ inductionHypothesis =>
    simp only [List.any_cons, Bool.or_eq_false_iff] at quiet ⊢
    obtain ⟨own, same⟩ := first.quiet since quiet.1
    obtain ⟨others, agree⟩ := inductionHypothesis quiet.2
    refine ⟨⟨own, others⟩, ?_⟩
    intro path member
    rcases List.mem_cons.mp member with rfl | among
    · exact same
    · exact agree path among

/-- An entry remains backed by its unit, in every later state. -/
theorem Backed.kept {entry : Entry MemoryToken}
    (backed : Backed options sightings earlier key entry) (since : earlier.Since later)
    (more : sightings ⊆ further) : Backed options further later key entry := by
  obtain ⟨kind, unit, watches, outcome⟩ := backed
  refine ⟨kind, unit, watches.kept since more, ?_⟩
  intro quiet
  obtain ⟨before, agree⟩ := agree_of_issued watches.issued since quiet
  rw [outcome before, Outcome.ofUnit_congr options watches.sound agree]

/-- What a caller has in hand stays right when files change. -/
theorem Sees.kept {caller : Caller MemoryToken} (sees : Sees options sightings earlier caller)
    (since : earlier.Since later) (more : sightings ⊆ further) :
    Sees options further later caller := by
  obtain ⟨key, kind, phase⟩ := caller
  cases phase with
  | resolving handle left => exact sees
  | issuing handle unit left issued =>
    obtain ⟨done, whole, watches⟩ := sees
    exact ⟨done, whole, watches.kept since more⟩
  | recording handle unit tokens => exact Watches.kept sees since more
  | compiling handle tokens left =>
    obtain ⟨unit, watches, present, within, comes⟩ := sees
    refine ⟨unit, watches.kept since more, present, within, ?_⟩
    intro quiet
    obtain ⟨before, agree⟩ := agree_of_issued watches.issued since quiet
    have watched : Memory.Agree unit.watched earlier later := by
      simpa [Cache.targets, present] using agree
    rw [Inquiry.run_congr watched within, comes before,
      Inquiry.run_congr watched (CompilationResult.attempt_within options (watches.sound present))]
  | installing handle entry => exact Backed.kept sees since more
  | arriving | checking | claiming | joining | waiting | starting | completing | releasing
  | abandoning | returned | broken => trivial

end Later

/-- Whoever installs an entry has it right. -/
theorem Sees.backed {options : Options} {sightings : List Sighting} {memory : Memory}
    {caller : Caller MemoryToken} {key : Text} {entry : Entry MemoryToken}
    (sees : Sees options sightings memory caller)
    (seen : caller.sighting? memory = some (.installed key entry)) :
    Backed options sightings memory key entry := by
  obtain ⟨_, kind, phase⟩ := caller
  cases phase with
  | installing handle entry =>
    cases seen
    exact sees
  | resolving handle left => cases left <;> cases seen
  | issuing handle unit left issued => cases left <;> cases seen
  | arriving | checking | claiming | joining | waiting | starting | recording | compiling
  | completing | releasing | abandoning | returned | broken => cases seen

namespace Flight

section Moves

variable {options : Options} {sightings : List Sighting} {cache after : Cache Memory MemoryToken}
  {key : Text} {kind : ImportsKind} {phase next : Phase MemoryToken}

/-- No move of a caller changes a file. -/
theorem Moves.project (moves : Moves options cache key kind phase next after) :
    after.project = cache.project := by
  cases moves with
  | releases =>
    unfold Cache.release
    split
    · split <;> rfl
    · rfl
  | meets | finds | misses | hits | passes | expires | claims | defers | returns | joins
  | receives | retries | starts | asks | resolves | issues | watches | compiles | concludes
  | reads | settles | installs | completes | abandons => rfl

/-- An entry stands under a key because it stood there before or was installed just now. -/
theorem Moves.cached (moves : Moves options cache key kind phase next after) {other : Text}
    {entry : Entry MemoryToken} (stands : after.slot? other = some (.cached entry)) :
    cache.slot? other = some (.cached entry) ∨
      Caller.sighting? cache.project ⟨key, kind, phase⟩ = some (.installed other entry) := by
  cases moves.effect with
  | quiet slots handles claim build awaits brings hands unmarked =>
    left
    unfold Cache.slot? at stands ⊢
    rwa [slots] at stands
  | claims free slots handles =>
    rw [slot?_put slots] at stands
    split at stands
    · cases stands
    · exact .inl stands
  | @installs handle entry =>
    rw [slot?_put rfl] at stands
    split at stands
    · rename_i same
      cases stands
      exact .inr (by rw [same]; rfl)
    · exact .inl stands
  | completes => exact .inl stands
  | abandons => exact .inl stands
  | @releases handle =>
    left
    unfold Cache.release at stands
    split at stands
    · split at stands
      · rw [slot?_drop rfl] at stands
        split at stands
        · cases stands
        · exact stands
      · exact stands
    · exact stands

/-- After its move, a caller has in hand what is right. -/
theorem Moves.sees (moves : Moves options cache key kind phase next after)
    (dated : cache.project.Dated) (inKey : '\n' ∉ key) (inName : '\n' ∉ options.importName kind)
    (sees : Sees options sightings cache.project ⟨key, kind, phase⟩) :
    Sees options (sightings ++ (Caller.sighting? cache.project ⟨key, kind, phase⟩).toList)
      cache.project ⟨key, kind, next⟩ := by
  have more := List.subset_append_left sightings
    (Caller.sighting? cache.project ⟨key, kind, phase⟩).toList
  cases moves with
  | starts => exact resolve_leadsTo options kind key
  | asks => exact Inquiry.leadsTo_step cache.project sees
  | resolves =>
    refine ⟨[], rfl, List.mem_append_right _ (List.mem_singleton.mpr rfl), sees, ?_, .nil⟩
    intro present
    exact ResolvedFor.sound sees present inKey inName
  | @issues handle unit path left issued =>
    obtain ⟨done, whole, watches⟩ := sees
    have still := watches.kept (.refl cache.project) more
    have issuedNow : IssuedFor (sightings ++ [.watched handle (cache.project.item path)]) handle
        cache.project path (cache.project.token path) :=
      ⟨cache.project, dated, .refl _, rfl, List.mem_append_right _ (by simp)⟩
    refine ⟨done ++ [path], ?_, still.resolved, still.resolvedFor, still.sound, ?_⟩
    · rw [List.append_assoc]
      exact whole
    · exact List.rel_append still.issued (.cons issuedNow .nil)
  | watches =>
    obtain ⟨done, whole, watches⟩ := sees
    rw [List.append_nil] at whole
    subst whole
    exact watches.kept (.refl cache.project) more
  | @compiles handle unit tokens present =>
    have still := Watches.kept sees (.refl cache.project) more
    have within := CompilationResult.attempt_within options (still.sound present)
    exact ⟨unit, still, present, within, fun _ => rfl⟩
  | @concludes handle unit tokens absent =>
    have still := Watches.kept sees (.refl cache.project) more
    refine ⟨kind, unit, still, fun _ => ?_⟩
    simp [Outcome.ofUnit, absent]
  | reads =>
    obtain ⟨unit, watches, present, within, comes⟩ := sees
    refine ⟨unit, watches.kept (.refl cache.project) more, present,
      Inquiry.within_step cache.project within, ?_⟩
    intro quiet
    exact (Inquiry.run_step cache.project _).trans (comes quiet)
  | @settles handle tokens attempted =>
    obtain ⟨unit, watches, present, within, comes⟩ := sees
    refine ⟨kind, unit, watches.kept (.refl cache.project) more, fun quiet => ?_⟩
    have settled : attempted = (CompilationResult.attempt options unit).run cache.project :=
      comes quiet
    simp only [settled, Outcome.ofUnit, present, if_true, CompilationResult.ofUnit,
      Inquiry.run_andThen]
    rfl
  | meets | finds | misses | hits | passes | expires | claims | defers | returns | joins
  | receives | retries | installs | completes | releases | abandons => trivial

end Moves

end Flight

end ViewCompiler
