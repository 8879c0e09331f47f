import ViewCompiler.Proofs.Compilation.Sight

/-!
# What a call comes to

A caller that meets no other one either finds an entry none of whose tokens reports a change,
or builds the key, and a build ends with an entry or breaks off. `getOrAdd_goes` says once, for
any kind of project, what each of these ends leaves behind: which tokens were asked and
issued, on which state of the project the outcome is, what is recorded of the key, and that
every other key is as it was. Theorems about runs of calls go through its cases and need not
look into a call.
-/

namespace ViewCompiler

open TemplateUnit

namespace Project

variable {P Token : Type} [Project P Token]

/-- Tokens were asked, one after the other, and this is what there was to note. -/
inductive Asked (before : P) : List Event → P → Prop
  | start : Asked before [] before
  | ask {events : List Event} {project : P} (earlier : Asked before events project)
      (token : Token) :
      Asked before (events ++ (Project.asked project token).2) (Project.asked project token).1

/-- A token was issued for each path, in order. -/
inductive Issues : (before : P) → List Text → List Token → (after : P) → Prop
  | none (project : P) : Issues project [] [] project
  | one {project after : P} (path : Text) {paths : List Text} {tokens : List Token}
      (later : Issues (Project.issue project path).2 paths tokens after) :
      Issues project (path :: paths) ((Project.issue project path).1 :: tokens) after

/-- A project in which asking a token makes no difference to what any token reports. -/
class Steady (P : Type) {Token : outParam Type} [Project P Token] : Prop where
  changed_asked (project : P) (token other : Token) :
    Project.changed (Project.asked project token).1 other = Project.changed project other

/-- In a steady project, asking tokens makes none report otherwise. -/
theorem Asked.changed [Steady P] {before after : P} {events : List Event}
    (asked : Asked before events after) (token : Token) :
    Project.changed after token = Project.changed before token := by
  induction asked with
  | start => rfl
  | ask earlier other inductionHypothesis => rw [Steady.changed_asked, inductionHypothesis]

/-- Asking goes on where it stopped. -/
theorem Asked.trans {before between after : P} {events further : List Event}
    (first : Asked before events between) (second : Asked between further after) :
    Asked before (events ++ further) after := by
  induction second with
  | start => rwa [List.append_nil]
  | ask earlier token inductionHypothesis =>
    rw [← List.append_assoc]
    exact .ask inductionHypothesis token

end Project

namespace Cache

section Ends

variable {P Token : Type} {before building : Cache P Token} {key : Text}

/-- What a build leaves behind, however it ends: its key has this slot and its handle this
progress, one build was counted, and the other keys are as they were. -/
structure Ends (before after : Cache P Token) (key : Text) (slot : Option (Slot Token))
    (progress : Progress Token) : Prop where
  own : after.slot? key = slot
  others : ∀ other, other ≠ key → after.slot? other = before.slot? other
  stats : after.stats = before.countCompilation.stats
  handles : after.handles = before.handles ++ [progress]

/-- What stands under a key after a build is what the build left there, or stood there before and
its key is another one. -/
theorem Ends.stands {before after : Cache P Token} {key other : Text} {slot : Option (Slot Token)}
    {found : Slot Token} {progress : Progress Token} (ends : Ends before after key slot progress)
    (stands : after.slot? other = some found) :
    other = key ∧ slot = some found ∨ other ≠ key ∧ before.slot? other = some found := by
  by_cases built : other = key
  · rw [built, ends.own] at stands
    exact .inl ⟨built, stands⟩
  · rw [ends.others other built] at stands
    exact .inr ⟨built, stands⟩

/-- A cache in which a key is claimed under the next handle. -/
def claimed (cache : Cache P Token) (key : Text) : Cache P Token :=
  { cache with
    slots := cache.slots.put key (.pending cache.handles.length)
    handles := cache.handles ++ [.running] }

/-- The build of a key is on its way: it was claimed and counted. -/
structure Building (before building : Cache P Token) (key : Text) : Prop where
  slots : building.slots = before.slots.put key (.pending before.handles.length)
  handles : building.handles = before.handles ++ [.running]
  stats : building.stats = before.countCompilation.stats

/-- A build that ends with an entry has put it in the place of its claim. -/
theorem Building.finish (onWay : Building before building key) (outcome : Outcome)
    (tokens : List Token) (compiled : Bool) :
    Ends before (building.finish key before.handles.length outcome tokens compiled).2 key
      (some (.cached ⟨before.handles.length, key, outcome, tokens⟩))
      (.done ⟨before.handles.length, key, outcome, tokens⟩) := by
  let entry : Entry Token := ⟨before.handles.length, key, outcome, tokens⟩
  have installed : (building.finish key before.handles.length outcome tokens compiled).2.slots =
      building.slots.put key (.cached entry) := rfl
  have completed : (building.finish key before.handles.length outcome tokens compiled).2.handles =
      building.handles.set before.handles.length (.done entry) := rfl
  refine ⟨?_, ?_, onWay.stats, ?_⟩
  · rw [slot?, installed]
    exact Table.find?_put_self key _ building.slots
  · intro other differs
    rw [slot?, installed, Table.find?_put_of_ne differs, onWay.slots]
    exact Table.find?_put_of_ne differs _ before.slots
  · rw [completed, onWay.handles]
    simp [entry]

/-- A build that breaks off has given its claim back. -/
theorem Building.breakOff (onWay : Building before building key) (place : Break) :
    let broken := (building.breakOff key before.handles.length place).2
    broken.project = building.project ∧ broken.dependents = building.dependents ∧
      Ends before broken key none .abandoned := by
  intro broken
  have pending : (building.note [.released key]).slot? key =
      some (.pending before.handles.length) := by
    have same : (building.note [.released key]).slots = building.slots := rfl
    rw [slot?, same, onWay.slots]
    exact Table.find?_put_self key _ before.slots
  have released : broken = { building.note [.released key] with
      slots := building.slots.drop key
      handles := building.handles.set before.handles.length .abandoned } := by
    simp only [broken, Cache.breakOff, release, pending, ↓reduceIte]
    rfl
  rw [released]
  refine ⟨rfl, rfl, ?_, ?_, onWay.stats, ?_⟩
  · exact Table.find?_drop_self key building.slots
  · intro other differs
    rw [slot?, Table.find?_drop_of_ne differs, onWay.slots]
    exact Table.find?_put_of_ne differs _ before.slots
  · simp [onWay.handles]

end Ends

variable {P Token : Type} [Project P Token] {options : Options} {kind : ImportsKind}
  {interference : Interference P} {before : Cache P Token} {key : Text}

/-- Issuing tokens for paths changes nothing but the project. -/
theorem issueAll_issues (cache : Cache P Token) (paths : List Text) :
    ∃ issued, Project.Issues cache.project paths (cache.issueAll paths).1 issued ∧
      (cache.issueAll paths).2 = { cache with project := issued } := by
  induction paths generalizing cache with
  | nil => exact ⟨cache.project, .none _, rfl⟩
  | cons path paths inductionHypothesis =>
    obtain ⟨issued, issues, rest⟩ :=
      inductionHypothesis { cache with project := (Project.issue cache.project path).2 }
    exact ⟨issued, .one path issues, rest⟩

/-- Asking tokens tells whether any of them reports a change. -/
theorem askAny_asked [Project.Steady P] (cache : Cache P Token) (tokens : List Token) :
    (cache.askAny tokens).1 = tokens.any (Project.changed cache.project) ∧
      ∃ events asked, Project.Asked cache.project events asked ∧
        (cache.askAny tokens).2 =
          { cache with project := asked, journal := cache.journal ++ events } := by
  induction tokens generalizing cache with
  | nil =>
    refine ⟨rfl, [], cache.project, .start, ?_⟩
    rw [List.append_nil]
    rfl
  | cons token tokens inductionHypothesis =>
    have single : Project.Asked cache.project (Project.asked cache.project token).2
        (Project.asked cache.project token).1 := .ask .start token
    let next : Cache P Token := { cache with
      project := (Project.asked cache.project token).1
      journal := cache.journal ++ (Project.asked cache.project token).2 }
    have first : cache.ask token = (Project.changed cache.project token, next) := rfl
    obtain ⟨told, events, asked, further, rest⟩ := inductionHypothesis next
    simp only [askAny, first, List.any_cons]
    cases Project.changed cache.project token with
    | true => exact ⟨rfl, _, _, single, rfl⟩
    | false =>
      simp only [Bool.false_eq_true, ↓reduceIte, Bool.false_or, told, rest]
      refine ⟨?_, _, asked, single.trans further, ?_⟩
      · congr 1
        funext other
        exact single.changed other
      · rw [← List.append_assoc]

/-- The key has no entry, or one that is out of date. -/
def Outdated (cache : Cache P Token) (key : Text) : Prop :=
  ∀ entry, cache.slot? key = some (.cached entry) → entry.isExpired cache.project = true

/-- What a call of a caller that is alone comes to. -/
inductive Goes (options : Options) (kind : ImportsKind) (interference : Interference P)
    (before : Cache P Token) (key : Text) : Reply Token → Cache P Token → Prop
  /-- The entry is returned as it is. -/
  | hits {entry : Entry Token} {events : List Event} {asked : P}
      (stands : before.slot? key = some (.cached entry))
      (current : entry.isExpired before.project = false)
      (asks : Project.Asked before.project events asked) :
      Goes options kind interference before key (.entry entry false)
        { before.countHit with project := asked, journal := before.journal ++ events }
  /-- An entry is built: its tokens are issued for the targets of its unit, and its outcome is
  on the project that the build leaves behind. -/
  | builds {entry : Entry Token} {compiled : Bool} {events : List Event} {asked issued : P}
      {after : Cache P Token} (outdated : before.Outdated key)
      (asks : Project.Asked before.project events asked)
      (issues : Project.Issues asked (targets ((resolve options kind key).run asked)) entry.tokens
        issued)
      (project : after.project =
        if ((resolve options kind key).run asked).item.present then interference.during issued
        else issued)
      (shape : entry = ⟨before.handles.length, key,
        .ofUnitOn options ((resolve options kind key).run asked) after.project, entry.tokens⟩)
      (dependents : after.dependents =
        before.dependents.record key (targets ((resolve options kind key).run asked)))
      (ends : Ends before after key (some (.cached entry)) (.done entry)) :
      Goes options kind interference before key (.entry entry compiled) after
  /-- The build breaks off before anything is recorded. -/
  | breaksAtOnce {events : List Event} {after : Cache P Token} (outdated : before.Outdated key)
      (breaks : interference.breaks = some .atOnce)
      (asks : Project.Asked before.project events after.project)
      (dependents : after.dependents = before.dependents)
      (ends : Ends before after key none .abandoned) :
      Goes options kind interference before key (.broken .atOnce) after
  /-- The build breaks off when everything is recorded. -/
  | breaksLate {events : List Event} {asked issued : P} {tokens : List Token}
      {after : Cache P Token} (outdated : before.Outdated key)
      (breaks : interference.breaks = some .beforeCompiling)
      (asks : Project.Asked before.project events asked)
      (issues : Project.Issues asked (targets ((resolve options kind key).run asked)) tokens issued)
      (project : after.project = interference.during issued)
      (dependents : after.dependents =
        before.dependents.record key (targets ((resolve options kind key).run asked)))
      (ends : Ends before after key none .abandoned) :
      Goes options kind interference before key (.broken .beforeCompiling) after

/-- A build of a template that exists issues its tokens, records the targets, and then breaks
off or compiles the unit on what the project has become. -/
theorem build_present {cache : Cache P Token} (begun : Building before cache.countCompilation key)
    (lasts : interference.breaks ≠ some .atOnce)
    (present : ((resolve options kind key).run cache.project).item.present = true) :
    let unit := (resolve options kind key).run cache.project
    ∃ tokens issued recorded, Project.Issues cache.project (targets unit) tokens issued ∧
      Building before recorded key ∧ recorded.project = interference.during issued ∧
      recorded.dependents = cache.dependents.record key (targets unit) ∧
      build options kind interference cache key before.handles.length =
        if interference.breaks = some .beforeCompiling then
          recorded.breakOff key before.handles.length .beforeCompiling
        else
          let attempted := (CompilationResult.attempt options unit).run recorded.project
          (recorded.note (CompilationResult.notes attempted)).finish key before.handles.length
            (.compiled (CompilationResult.settle attempted)) tokens true := by
  intro unit
  obtain ⟨issued, issues, same⟩ := issueAll_issues cache.countCompilation (targets unit)
  let recorded : Cache P Token :=
    { ({ cache.countCompilation with project := issued }.record key (targets unit)).note
        [.compiling key unit.imports.length] with project := interference.during issued }
  refine ⟨_, issued, recorded, issues, ?_, rfl, rfl, ?_⟩
  · exact ⟨begun.slots, begun.handles, begun.stats⟩
  · have counted : cache.countCompilation.project = cache.project := rfl
    simp only [unit] at same
    simp only [build, if_neg lasts, counted, present, ↓reduceIte, same]
    rfl

/-- A build of a template that does not exist issues a token for its path and ends. -/
theorem build_absent {cache : Cache P Token} (begun : Building before cache.countCompilation key)
    (lasts : interference.breaks ≠ some .atOnce)
    (absent : ((resolve options kind key).run cache.project).item.present = false) :
    let unit := (resolve options kind key).run cache.project
    ∃ tokens issued recorded, Project.Issues cache.project (targets unit) tokens issued ∧
      Building before recorded key ∧ recorded.project = issued ∧
      recorded.dependents = cache.dependents.record key (targets unit) ∧
      build options kind interference cache key before.handles.length =
        recorded.finish key before.handles.length .notFound tokens false := by
  intro unit
  let noted := cache.countCompilation.note [.absent key]
  obtain ⟨issued, issues, same⟩ := issueAll_issues noted (targets unit)
  refine ⟨_, issued, { noted with project := issued }.record key (targets unit), issues, ?_, rfl,
    rfl, ?_⟩
  · exact ⟨begun.slots, begun.handles, begun.stats⟩
  · have counted : cache.countCompilation.project = cache.project := rfl
    simp only [unit, noted] at same
    simp only [build, if_neg lasts, counted, absent, Bool.false_eq_true, ↓reduceIte, same]
    rfl

/-- A build of a key that was claimed when tokens had been asked. -/
theorem build_goes {events : List Event} {asked : P} (journal : List Event)
    (outdated : before.Outdated key) (asks : Project.Asked before.project events asked) :
    let claimed := ({ before with project := asked, journal } : Cache P Token).claimed key
    let call := build options kind interference claimed key before.handles.length
    Goes options kind interference before key call.1 call.2 := by
  intro claimed call
  have begun : Building before claimed.countCompilation key := ⟨rfl, rfl, rfl⟩
  by_cases atOnce : interference.breaks = some .atOnce
  · have breaks : call = claimed.countCompilation.breakOff key before.handles.length .atOnce := by
      simp only [call, build, atOnce, ↓reduceIte]
    obtain ⟨project, dependents, ends⟩ := begun.breakOff .atOnce
    have kept : Project.Asked before.project events call.2.project := by
      rw [breaks, project]
      exact asks
    rw [breaks] at kept ⊢
    exact .breaksAtOnce outdated atOnce kept dependents ends
  · cases present : ((resolve options kind key).run asked).item.present with
    | true =>
      obtain ⟨tokens, issued, recorded, issues, onWay, changed, dependents, goesOn⟩ :=
        build_present begun atOnce present
      by_cases late : interference.breaks = some .beforeCompiling
      · have breaks : call = recorded.breakOff key before.handles.length .beforeCompiling :=
          goesOn.trans (if_pos late)
        obtain ⟨project, kept, ends⟩ := onWay.breakOff .beforeCompiling
        rw [breaks]
        exact .breaksLate outdated late asks issues (project.trans changed) (kept.trans dependents)
          ends
      · let attempted := (CompilationResult.attempt options
          ((resolve options kind key).run asked)).run recorded.project
        have compiles : call = (recorded.note (CompilationResult.notes attempted)).finish key
            before.handles.length (.compiled (CompilationResult.settle attempted)) tokens true :=
          goesOn.trans (if_neg late)
        have noted : Building before (recorded.note (CompilationResult.notes attempted)) key :=
          ⟨onWay.slots, onWay.handles, onWay.stats⟩
        rw [compiles]
        refine .builds outdated asks issues ?_ ?_ dependents (noted.finish _ tokens true)
        · rw [if_pos present]
          exact changed
        · simp only [Outcome.ofUnitOn, present, ↓reduceIte, CompilationResult.ofUnit,
            Inquiry.run_andThen]
          rfl
    | false =>
      obtain ⟨tokens, issued, recorded, issues, onWay, kept, dependents, ended⟩ :=
        build_absent begun atOnce present
      have concludes : call = recorded.finish key before.handles.length .notFound tokens false :=
        ended
      rw [concludes]
      refine .builds outdated asks issues ?_ ?_ dependents (onWay.finish .notFound tokens false)
      · rw [present]
        exact kept
      · simp only [Outcome.ofUnitOn, present, Bool.false_eq_true, ↓reduceIte]

/-- A key that is free, or whose entry was found out of date, is claimed and built. -/
theorem claimAndBuild_goes {events : List Event} {asked : P} (journal : List Event)
    (outdated : before.Outdated key) (asks : Project.Asked before.project events asked)
    (stale : Option Nat)
    (free : before.slot? key = none ∨
      ∃ entry, before.slot? key = some (.cached entry) ∧ stale = some entry.id) :
    let call := claimAndBuild options kind interference { before with project := asked, journal }
      key stale
    Goes options kind interference before key call.1 call.2 := by
  intro call
  let met : Cache P Token := { before with project := asked, journal }
  have taken : met.claim key stale = (.build before.handles.length, met.claimed key) := by
    unfold claim
    have same : met.slot? key = before.slot? key := rfl
    rw [same]
    cases free with
    | inl empty =>
      rw [empty]
      rfl
    | inr stands =>
      obtain ⟨entry, stands, known⟩ := stands
      rw [stands]
      simp only [known, ↓reduceIte]
      rfl
  have built : call =
      build options kind interference (met.claimed key) key before.handles.length := by
    have unfolded : call = claimAndBuild options kind interference met key stale := rfl
    rw [unfolded, claimAndBuild, taken]
  rw [built]
  exact build_goes journal outdated asks

/-- What a call of a caller that is alone comes to. -/
theorem getOrAdd_goes [Project.Steady P] (options : Options) (kind : ImportsKind)
    (interference : Interference P) (cache : Cache P Token) (path : Text)
    (alone : ∀ handle, cache.slot? (Logical.stripAppRoot path) ≠ some (.pending handle)) :
    let call := cache.getOrAdd options kind interference path
    Goes options kind interference cache (Logical.stripAppRoot path) call.1 call.2 := by
  intro call
  let key := Logical.stripAppRoot path
  have call_eq : call = cache.getOrAdd options kind interference path := rfl
  rw [getOrAdd] at call_eq
  cases stands : cache.slot? key with
  | none =>
    have built : call = claimAndBuild options kind interference cache key none := by
      simpa only [key, stands] using call_eq
    have outdated : cache.Outdated key := by
      intro entry cached
      rw [stands] at cached
      cases cached
    rw [built]
    exact claimAndBuild_goes cache.journal outdated .start none (.inl stands)
  | some slot =>
    cases slot with
    | pending handle => exact absurd stands (alone handle)
    | cached entry =>
      obtain ⟨told, events, asked, asks, rest⟩ := askAny_asked cache entry.tokens
      simp only [key, stands, told, rest] at call_eq
      cases expired : entry.isExpired cache.project with
      | false =>
        have quiet : entry.tokens.any (Project.changed cache.project) = false := expired
        simp only [quiet, Bool.false_eq_true, ↓reduceIte] at call_eq
        rw [call_eq]
        exact .hits stands expired asks
      | true =>
        have reported : entry.tokens.any (Project.changed cache.project) = true := expired
        simp only [reported, ↓reduceIte] at call_eq
        have outdated : cache.Outdated key := by
          intro other same
          rw [stands] at same
          cases same
          exact expired
        rw [call_eq]
        exact claimAndBuild_goes _ outdated asks (some entry.id) (.inr ⟨entry, stands, rfl⟩)

end Cache

end ViewCompiler
