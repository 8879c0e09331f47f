import ViewCompiler.Proofs.Cache.Links

/-!
# What a broken build leaves behind

A build that breaks off gives its claim back: its key has no entry, whichever entry it had
before, and every other key has what it had. The rows that the build recorded in the
dependency graph stay, and so do those of an earlier build whose entry gave way to it. So
the templates that a change of a path concerns are those of which some build came as far as
to record what it depends on, and the last of these builds need not have left an entry.

The history of a cache is told here by what its calls came to. `Told.held_and_listed` reads off the
replies which keys have an entry and which are listed as dependents, for every history of
changes and calls, and says what one more call that breaks off does.
-/

namespace ViewCompiler

namespace Cache

section Replies

variable {Token : Type}

/-- What a call leaves under its key. -/
def Reply.slot? : Reply Token → Option (Slot Token)
  | .entry known _ => some (.cached known)
  | .broken _ | .blocked => none

/-- Whether the key of a call that met no other caller is recorded after it, since this call or
an earlier one. -/
def Reply.records : Reply Token → Bool
  | .entry .. | .broken .beforeCompiling => true
  | .broken .atOnce | .blocked => false

/-- Some call for a key came as far as to record it. -/
def Recording (replies : List (Text × Reply Token)) (key : Text) : Prop :=
  ∃ reply, (key, reply) ∈ replies ∧ reply.records = true

/-- One more call. -/
theorem recording_cons {replies : List (Text × Reply Token)} {key other : Text}
    {reply : Reply Token} :
    Recording ((key, reply) :: replies) other ↔
      (other = key ∧ reply.records = true) ∨ Recording replies other := by
  unfold Recording
  simp only [List.mem_cons, Prod.mk.injEq]
  constructor
  · rintro ⟨known, ⟨same, rfl⟩ | earlier, records⟩
    · exact .inl ⟨same, records⟩
    · exact .inr ⟨known, earlier, records⟩
  · rintro (⟨same, records⟩ | ⟨known, earlier, records⟩)
    · exact ⟨reply, .inl ⟨same, rfl⟩, records⟩
    · exact ⟨known, .inr earlier, records⟩

end Replies

variable {P Token : Type} {project : P} {replies : List (Text × Reply Token)}
  {cache : Cache P Token}

/-- A cache is as the replies tell: they tell which keys have an entry, and which are recorded. A
key that is recorded is recorded with its canonical path, or is this path. -/
structure Fits (replies : List (Text × Reply Token)) (cache : Cache P Token) : Prop where
  slots : ∀ key, cache.slot? key = (Table.find? key replies).bind Reply.slot?
  unblocked : ∀ key, (key, .blocked) ∉ replies
  recorded : ∀ key, cache.dependents.contains key = true ↔ Recording replies key
  mirrored : cache.dependents.Mirrored
  own : ∀ key canonical, Recording replies key → Logical.normalize key = some canonical →
    canonical = key ∨ canonical ∈ cache.dependents.files key
  outside : ∀ key, Logical.normalize key = none → ∀ file ∈ cache.dependents.files key,
    Logical.normalize file = none
  unrecorded : ∀ key, ¬ Recording replies key → cache.dependents.files key = []

namespace Fits

/-- No key is being built. -/
theorem alone (fits : Fits replies cache) (key : Text) (handle : Nat) :
    cache.slot? key ≠ some (.pending handle) := by
  intro stands
  rw [fits.slots] at stands
  obtain ⟨reply, -, pending⟩ := Option.bind_eq_some_iff.mp stands
  cases reply with
  | entry => cases pending
  | broken => cases pending
  | blocked => cases pending

/-- A new cache is as no replies tell. -/
theorem start : Fits [] ({ project } : Cache P Token) where
  slots _ := rfl
  unblocked _ := List.not_mem_nil
  recorded _ := iff_of_false Bool.false_ne_true fun ⟨_, member, _⟩ => List.not_mem_nil member
  mirrored := Dependents.mirrored_empty
  own _ _ := fun ⟨_, member, _⟩ => absurd member List.not_mem_nil
  outside _ _ _ member := absurd member List.not_mem_nil
  unrecorded _ _ := rfl

/-- A change of the project makes no difference. -/
theorem withProject (fits : Fits replies cache) (project : P) :
    Fits replies { cache with project } :=
  ⟨fits.slots, fits.unblocked, fits.recorded, fits.mirrored, fits.own, fits.outside,
    fits.unrecorded⟩

/-- What a call left under its key and under the others. -/
theorem slots_cons (fits : Fits replies cache) {after : Cache P Token} {key : Text}
    {reply : Reply Token} (own : after.slot? key = reply.slot?)
    (others : ∀ other, other ≠ key → after.slot? other = cache.slot? other) (other : Text) :
    after.slot? other = (Table.find? other ((key, reply) :: replies)).bind Reply.slot? := by
  by_cases same : key = other
  · rw [Table.find?, if_pos same, ← same]
    exact own
  · rw [Table.find?, if_neg same, others other (Ne.symm same), fits.slots]

/-- One more call that another caller did not block. -/
theorem unblocked_cons (fits : Fits replies cache) {key : Text} {reply : Reply Token}
    (answered : reply ≠ .blocked) (other : Text) : (other, .blocked) ∉ (key, reply) :: replies := by
  rw [List.mem_cons, Prod.mk.injEq, not_or]
  exact ⟨fun same => answered same.2.symm, fits.unblocked other⟩

/-- An entry stands under a key that is recorded. -/
theorem recording_of_cached (fits : Fits replies cache) {key : Text} {entry : Entry Token}
    (stands : cache.slot? key = some (.cached entry)) : Recording replies key := by
  rw [fits.slots] at stands
  obtain ⟨reply, found, cached⟩ := Option.bind_eq_some_iff.mp stands
  refine ⟨reply, Table.mem_of_find? found, ?_⟩
  cases reply with
  | entry known compiled => rfl
  | broken => cases cached
  | blocked => cases cached

/-- A call that left the dependency graph as it was, and recorded nothing that was not. -/
theorem unchanged (fits : Fits replies cache) {after : Cache P Token} {key : Text}
    {reply : Reply Token} (own : after.slot? key = reply.slot?)
    (others : ∀ other, other ≠ key → after.slot? other = cache.slot? other)
    (dependents : after.dependents = cache.dependents) (answered : reply ≠ .blocked)
    (known : reply.records = true → Recording replies key) :
    Fits ((key, reply) :: replies) after := by
  have same (other : Text) :
      Recording ((key, reply) :: replies) other ↔ Recording replies other := by
    rw [recording_cons]
    constructor
    · rintro (⟨rfl, records⟩ | earlier)
      · exact known records
      · exact earlier
    · exact .inr
  refine ⟨fits.slots_cons own others, fits.unblocked_cons answered, ?_, ?_, ?_, ?_, ?_⟩ <;>
    simp only [same, dependents]
  · exact fits.recorded
  · exact fits.mirrored
  · exact fits.own
  · exact fits.outside
  · exact fits.unrecorded

/-- A key is listed for some path exactly if it is recorded and does not leave the root. -/
theorem listed (fits : Fits replies cache) (key : Text) :
    (∃ path, key ∈ cache.dependentsOf path) ↔
      (Logical.normalize key).isSome = true ∧ Recording replies key := by
  -- Who stands in a row is recorded with its file; who is listed without standing there is the
  -- path.
  have member (path canonical : Text) (normal : Logical.normalize path = some canonical) :
      key ∈ cache.dependentsOf path ↔
        canonical ∈ cache.dependents.files key ∨ (key = canonical ∧ Recording replies key) := by
    have row : key ∈ (cache.dependents.usedBy canonical).getD [] ↔
        canonical ∈ cache.dependents.files key := fits.mirrored.agree key canonical
    unfold dependentsOf
    simp only [normal, Text.mem_sort, ← row]
    by_cases same : key = canonical
    · subst same
      rw [← fits.recorded]
      by_cases among : key ∈ (cache.dependents.usedBy key).getD []
      · simp [among]
      · cases cache.dependents.contains key with
        | false => simp
        | true => simp [among]
    · rw [iff_false_intro (fun both : key = canonical ∧ _ => same both.1), or_false]
      split
      · rw [List.mem_append, List.mem_singleton, or_iff_left same]
      · rfl
  constructor
  · rintro ⟨path, lists⟩
    cases normal : Logical.normalize path with
    | none =>
      simp only [dependentsOf, normal] at lists
      exact absurd lists List.not_mem_nil
    | some canonical =>
      have canonicalSelf := Logical.normalize_canonical normal
      rcases (member path canonical normal).mp lists with file | ⟨rfl, recorded⟩
      · constructor
        · by_contra leaves
          have outside := fits.outside key (Option.not_isSome_iff_eq_none.mp leaves) canonical file
          rw [canonicalSelf] at outside
          cases outside
        · by_contra unrecorded
          rw [fits.unrecorded key unrecorded] at file
          exact absurd file List.not_mem_nil
      · exact ⟨by rw [canonicalSelf, Option.isSome_some], recorded⟩
  · rintro ⟨stays, recorded⟩
    obtain ⟨canonical, normal⟩ := Option.isSome_iff_exists.mp stays
    refine ⟨key, (member key canonical normal).mpr ?_⟩
    rcases fits.own key canonical recorded normal with itself | file
    · exact .inr ⟨itself.symm, recorded⟩
    · exact .inl file

end Fits

variable [Project P Token]

/-- A cache that was new over a project, and what each call for a key came to, the latest
first. The project may change between two calls, and during a build. -/
inductive Told (project : P) : List (Text × Reply Token) → Cache P Token → Prop
  | start : Told project [] { project }
  | edit {replies : List (Text × Reply Token)} {cache : Cache P Token}
      (told : Told project replies cache) (change : P → P) :
      Told project replies { cache with project := change cache.project }
  | ask {replies : List (Text × Reply Token)} {cache : Cache P Token}
      (told : Told project replies cache) (options : Options) (kind : ImportsKind)
      (interference : Interference P) (path : Text) :
      Told project
        ((Logical.stripAppRoot path, (cache.getOrAdd options kind interference path).1) :: replies)
        (cache.getOrAdd options kind interference path).2

namespace Fits

/-- A call that recorded its key with the targets of its unit. -/
theorem record [Project.Sighted P] (fits : Fits replies cache) {after : Cache P Token} {key : Text}
    {reply : Reply Token} (own : after.slot? key = reply.slot?)
    (others : ∀ other, other ≠ key → after.slot? other = cache.slot? other)
    (options : Options) (kind : ImportsKind) (seen : P)
    (dependents : after.dependents =
      cache.dependents.record key (targets ((TemplateUnit.resolve options kind key).run seen)))
    (records : reply.records = true) : Fits ((key, reply) :: replies) after := by
  have known (other : Text) : Recording ((key, reply) :: replies) other ↔
      other = key ∨ Recording replies other := by
    rw [recording_cons, and_iff_left records]
  have answered : reply ≠ .blocked := by
    rintro rfl
    cases records
  refine ⟨fits.slots_cons own others, fits.unblocked_cons answered, ?_, ?_, ?_, ?_, ?_⟩ <;>
    rw [dependents]
  · intro other
    rw [Dependents.contains_record, Bool.or_eq_true, decide_eq_true_eq, fits.recorded, known]
  · exact fits.mirrored.record key _
  · intro other canonical recorded normal
    rw [Dependents.files_record]
    by_cases same : other = key
    · subst same
      rw [if_pos rfl, Dependents.mem_distinct, List.mem_filter, decide_eq_true_eq]
      by_cases itself : canonical = other
      · exact .inl itself
      · exact .inr ⟨targets_own options kind seen normal, itself⟩
    · rw [if_neg same]
      exact fits.own other canonical (((known other).mp recorded).resolve_left same) normal
  · intro other leaves file member
    rw [Dependents.files_record] at member
    by_cases same : other = key
    · subst same
      rw [if_pos rfl, Dependents.mem_distinct, List.mem_filter] at member
      exact targets_outside options kind seen leaves file member.1
    · rw [if_neg same] at member
      exact fits.outside other leaves file member
  · intro other unrecorded
    rw [known, not_or] at unrecorded
    rw [Dependents.files_record, if_neg unrecorded.1]
    exact fits.unrecorded other unrecorded.2

/-- Whatever a call comes to, its reply tells it. -/
theorem goes [Project.Sighted P] (fits : Fits replies cache) {options : Options}
    {kind : ImportsKind} {interference : Interference P} {key : Text} {reply : Reply Token}
    {after : Cache P Token} (goes : Goes options kind interference cache key reply after) :
    Fits ((key, reply) :: replies) after := by
  cases goes with
  | hits stands current asks =>
    refine fits.unchanged stands (fun _ _ => rfl) rfl nofun fun _ => ?_
    exact fits.recording_of_cached stands
  | @builds entry compiled events asked issued _ outdated asks issues project shape dependents
      ends =>
    exact fits.record ends.own ends.others options kind asked dependents rfl
  | breaksAtOnce outdated breaks asks dependents ends =>
    exact fits.unchanged ends.own ends.others dependents nofun nofun
  | @breaksLate events asked issued tokens _ outdated breaks asks issues project dependents ends =>
    exact fits.record ends.own ends.others options kind asked dependents rfl

end Fits

/-- Replies tell what a cache holds, in every history. -/
theorem Told.fits [Project.Steady P] [Project.Sighted P] (told : Told project replies cache) :
    Fits replies cache := by
  induction told with
  | start => exact .start
  | edit earlier change inductionHypothesis => exact inductionHypothesis.withProject _
  | ask earlier options kind interference path inductionHypothesis =>
    exact inductionHypothesis.goes
      (getOrAdd_goes options kind interference _ path (inductionHypothesis.alone _))

/-- What stands after any history of changes and calls: a key has an entry exactly if its last
call returned it, and is listed as a dependent of some path exactly if it does not leave the
root and some call for it came as far as to record it. Whatever is listed without an entry is
a key whose last call broke off; one more call that breaks off leaves its own key without an
entry and every other key with what it has. -/
theorem Told.held_and_listed [Project.Steady P] [Project.Sighted P]
    (told : Told project replies cache) :
    (∀ key, cache.slot? key = (Table.find? key replies).bind Reply.slot?) ∧
      (∀ key, (∃ path, key ∈ cache.dependentsOf path) ↔
        (Logical.normalize key).isSome = true ∧
          ∃ reply, (key, reply) ∈ replies ∧ reply.records = true) ∧
      (∀ path, ∀ key ∈ cache.dependentsOf path,
        (∃ entry, cache.slot? key = some (.cached entry)) ∨
          ∃ place, Table.find? key replies = some (.broken place)) ∧
      ∀ options kind interference path place,
        let call := cache.getOrAdd options kind interference path
        call.1 = .broken place → call.2.slot? (Logical.stripAppRoot path) = none ∧
          ∀ other, other ≠ Logical.stripAppRoot path → call.2.slot? other = cache.slot? other := by
  have fits := told.fits
  refine ⟨fits.slots, fits.listed, ?_, ?_⟩
  · intro path key lists
    obtain ⟨-, recorded⟩ := (fits.listed key).mp ⟨path, lists⟩
    obtain ⟨reply, member, -⟩ := recorded
    obtain ⟨last, found⟩ := Table.exists_find?_of_mem member
    cases last with
    | entry known compiled =>
      refine .inl ⟨known, ?_⟩
      rw [fits.slots, found]
      rfl
    | broken place => exact .inr ⟨place, found⟩
    | blocked => exact absurd (Table.mem_of_find? found) (fits.unblocked key)
  · intro options kind interference path place call broke
    have goes : Goes options kind interference cache (Logical.stripAppRoot path) call.1 call.2 :=
      getOrAdd_goes options kind interference cache path (fits.alone _)
    rw [broke] at goes
    cases goes with
    | breaksAtOnce outdated breaks asks dependents ends => exact ⟨ends.own, ends.others⟩
    | breaksLate outdated breaks asks issues project dependents ends =>
      exact ⟨ends.own, ends.others⟩

/-- A template was built, its file was removed, and the build that followed broke off at once:
the template is listed for what the first build recorded, and has no entry. -/
theorem Told.held_and_listed_rebuilt :
    let memory := Memory.ofFiles [("/a.cshtml", [])]
    let cache : Cache Memory MemoryToken := { project := memory }
    let first := cache.getOrAdd {} .views {} "/a.cshtml"
    let removed := { first.2 with project := first.2.project.edit (.remove "/a.cshtml") }
    let second := removed.getOrAdd {} .views { breaks := some .atOnce } "/a.cshtml"
    (∃ path, ("/a.cshtml" : Text) ∈ second.2.dependentsOf path) ∧
      second.2.slot? "/a.cshtml" = none := by
  intro memory cache first removed second
  have once : Told memory [("/a.cshtml", first.1)] first.2 :=
    Told.ask Told.start {} .views {} "/a.cshtml"
  have changed : Told memory [("/a.cshtml", first.1)] removed :=
    once.edit (Memory.edit · (.remove "/a.cshtml"))
  have told : Told memory [("/a.cshtml", second.1), ("/a.cshtml", first.1)] second.2 :=
    changed.ask {} .views { breaks := some .atOnce } "/a.cshtml"
  obtain ⟨slots, listed, -, -⟩ := told.held_and_listed
  have recorded : first.1.records = true := by decide +kernel
  have broke : second.1 = .broken .atOnce := by decide +kernel
  constructor
  · apply (listed "/a.cshtml").mpr
    exact ⟨by decide, first.1, by simp, recorded⟩
  · rw [slots, broke]
    rfl

/-- A build that breaks off when it has recorded its key leaves a key that is listed as a
dependent of its own path and has no entry. -/
theorem dependentsOf_broken :
    let memory := Memory.ofFiles [("/a.cshtml", [])]
    let call := ({ project := memory } : Cache Memory MemoryToken).getOrAdd {} .views
      { breaks := some .beforeCompiling } "/a.cshtml"
    call.1 = .broken .beforeCompiling ∧
      ("/a.cshtml" : Text) ∈ call.2.dependentsOf "/a.cshtml" ∧
      call.2.slot? "/a.cshtml" = none := by
  decide +kernel

end Cache

end ViewCompiler
