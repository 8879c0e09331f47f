import ViewCompiler.Proofs.Cache.Course
import ViewCompiler.Proofs.Cache.Sightings

/-!
# What an entry that is not out of date says

While callers move in turns, files are written and removed between any two moves. An entry
that is not out of date then has the outcome that its build would have on the files as they
are, with the unit that the build has resolved. This is the outcome of its path if no file
came or went between being resolved and being watched: a token tells nothing of what
happened before it was issued, and whether a file exists is not asked again.

Without this condition it is not so. A template that is written after it was found missing
and before it is watched is missing in the entry, and nothing ever puts the entry out of
date.
-/

namespace ViewCompiler

open TemplateUnit

/-- A path spells the item that was seen at it, whatever the state. -/
theorem Item.seen_path {path : Text} {item : Item} (seen : item.SeenAt path) (memory : Memory) :
    (memory.item item.path).path = item.path := by
  rw [Item.seen_again seen]
  obtain ⟨other, rfl⟩ := seen
  cases normal : Logical.normalize path with
  | none => rw [memory.item_none normal, other.item_none normal]
  | some canonical => rw [memory.item_some normal, other.item_some normal]

/-- What a token that reports no change was issued for is what is at its path now. -/
theorem IssuedFor.watched {sightings : List Sighting} {handle : Nat} {memory : Memory} {path : Text}
    {token : MemoryToken} (issued : IssuedFor sightings handle memory path token)
    (quiet : memory.changed token = false) : .watched handle (memory.item path) ∈ sightings := by
  obtain ⟨origin, dated, since, rfl, seen⟩ := issued
  have agree : Memory.Agree [path] origin memory := by
    intro own member canonical normal
    obtain rfl := List.mem_singleton.mp member
    exact Memory.file?_of_unchanged since dated normal quiet
  rw [Inquiry.item_congr agree List.mem_cons_self]
  exact seen

/-- Whatever a build has resolved was still so when it was watched. -/
def Unraced (sightings : List Sighting) (handle : Nat) : Prop :=
  ∀ {kind unit}, .resolved handle kind unit ∈ sightings → ∀ item ∈ unit.item :: unit.imports,
    ∀ seen, .watched handle seen ∈ sightings → seen.path = item.path → seen = item

/-- Of a build that was not raced, what is watched and did not change is as it was resolved. -/
theorem Watches.current {options : Options} {sightings : List Sighting} {memory : Memory}
    {kind : ImportsKind} {key : Text} {handle : Nat} {unit : TemplateUnit} {paths : List Text}
    {tokens : List MemoryToken}
    (watches : Watches options sightings memory kind key handle unit paths tokens)
    (unraced : Unraced sightings handle) (quiet : tokens.any memory.changed = false) {item : Item}
    (member : item ∈ unit.item :: unit.imports) (among : item.path ∈ paths) :
    memory.item item.path = item := by
  obtain ⟨token, issued, known⟩ := exists_related watches.issued.flip among
  have seen := IssuedFor.watched known (by simpa using List.any_eq_false.mp quiet token issued)
  apply unraced watches.resolved item member _ seen
  rcases List.mem_cons.mp member with rfl | inImports
  · exact Item.seen_path watches.resolvedFor.item memory
  · obtain ⟨candidate, -, found⟩ := watches.resolvedFor.candidate item inImports
    exact Item.seen_path found memory

/-- An entry that is not out of date is fresh if its build was not raced. -/
theorem Backed.fresh {options : Options} {sightings : List Sighting} {memory : Memory} {key : Text}
    {entry : Entry MemoryToken} (backed : Backed options sightings memory key entry)
    (quiet : entry.tokens.any memory.changed = false) :
    ∃ kind unit, .resolved entry.id kind unit ∈ sightings ∧ unit.ResolvedFor options kind key ∧
      entry.outcome = Outcome.ofUnit options unit memory ∧
      (Unraced sightings entry.id → entry.outcome = Outcome.fresh options kind key memory) := by
  obtain ⟨kind, unit, watches, outcome⟩ := backed
  refine ⟨kind, unit, watches.resolved, watches.resolvedFor, outcome quiet, ?_⟩
  intro unraced
  have current {item : Item} (member : item ∈ unit.item :: unit.imports)
      (among : item.path ∈ Cache.targets unit) : memory.item item.path = item :=
    watches.current unraced quiet member among
  rw [outcome quiet, watches.resolvedFor.fresh]
  · apply current List.mem_cons_self
    unfold Cache.targets
    split <;> exact List.mem_cons_self
  · intro present item member
    apply current member
    rw [Cache.targets, if_pos present]
    rcases List.mem_cons.mp member with rfl | inImports
    · exact List.mem_cons_self
    · exact List.mem_cons_of_mem _ (List.mem_map_of_mem inImports)

namespace Flight

/-- A call for a path on one line, a move, a break, or a write or a removal of a file. -/
def Action.Plain : Action Memory → Prop
  | .call path _ => '\n' ∉ path
  | .edit change => ∃ edit : Memory.Edit, change = fun memory => memory.edit edit
  | .advance _ | .breakOff _ => True

/-- What is seen or installed by what happens next. -/
def sighting? (flight : Flight Memory MemoryToken) : Action Memory → Option Sighting
  | .advance index => flight.callers[index]?.bind (Caller.sighting? flight.cache.project)
  | .call .. | .edit _ | .breakOff _ => none

/-- The states that a flight over a project in memory can come to, and the sightings made on
the way. -/
inductive Observed (start : Flight Memory MemoryToken) :
    Flight Memory MemoryToken → List Sighting → Prop
  | start : Observed start start []
  | act {flight next : Flight Memory MemoryToken} {sightings : List Sighting}
      (action : Action Memory) (plain : action.Plain) (observed : Observed start flight sightings)
      (done : flight.act action = some next) :
      Observed start next (sightings ++ (flight.sighting? action).toList)

/-- Every caller has in hand what is right, and so was every entry that was installed. -/
structure Witnessing (options : Options) (flight : Flight Memory MemoryToken)
    (sightings : List Sighting) : Prop where
  same : flight.options = options
  dated : flight.cache.project.Dated
  callers : ∀ {index : Nat} {caller : Caller MemoryToken}, flight.callers[index]? = some caller →
    '\n' ∉ caller.key ∧ Sees options sightings flight.cache.project caller
  installed : ∀ {key entry}, .installed key entry ∈ sightings →
    Backed options sightings flight.cache.project key entry
  cached : ∀ {key entry}, flight.cache.slot? key = some (.cached entry) →
    .installed key entry ∈ sightings

variable {options : Options} {flight next : Flight Memory MemoryToken} {sightings : List Sighting}

/-- A move keeps this, with what it sees or installs. -/
theorem Witnessing.advance (witnessing : Witnessing options flight sightings)
    (inName : ∀ kind, '\n' ∉ options.importName kind) {index : Nat}
    (done : flight.advance index = some next) :
    Witnessing options next (sightings ++ (flight.sighting? (.advance index)).toList) := by
  simp only [Flight.advance, Option.bind_eq_bind, Option.bind_eq_some_iff] at done
  obtain ⟨mover, found, ⟨phase, cache⟩, moved, same⟩ := done
  cases same
  rw [witnessing.same] at moved
  have seen : flight.sighting? (.advance index) = mover.sighting? flight.cache.project := by
    simp only [sighting?, found, Option.bind_some]
  obtain ⟨onLine, sees⟩ := witnessing.callers found
  have moves := moves_of_move moved
  have project : cache.project = flight.cache.project := moves.project
  have more : sightings ⊆ sightings ++ (mover.sighting? flight.cache.project).toList :=
    List.subset_append_left _ _
  rw [seen]
  refine ⟨witnessing.same, ?_, ?_, ?_, ?_⟩
  · exact project ▸ witnessing.dated
  · intro other caller known
    rw [withPhase, List.getElem?_modify, Option.map_eq_map, Option.map_eq_some_iff] at known
    obtain ⟨before, stood, rfl⟩ := known
    dsimp only [withPhase]
    rw [project]
    split
    · rename_i own
      subst own
      obtain rfl := Option.some.inj (found.symm.trans stood)
      exact ⟨onLine, moves.sees witnessing.dated onLine (inName _) sees⟩
    · obtain ⟨line, kept⟩ := witnessing.callers stood
      exact ⟨line, kept.kept (.refl _) more⟩
  · intro key entry installed
    dsimp only [withPhase]
    rw [project]
    rcases List.mem_append.mp installed with before | now
    · exact (witnessing.installed before).kept (.refl _) more
    · exact (sees.backed (by simpa using now)).kept (.refl _) more
  · intro key entry stands
    rcases moves.cached stands with before | now
    · exact more (witnessing.cached before)
    · exact List.mem_append_right _ (by simp [now])

/-- Whatever happens keeps this, with what is seen or installed by it. -/
theorem Witnessing.act (witnessing : Witnessing options flight sightings)
    (inName : ∀ kind, '\n' ∉ options.importName kind) {action : Action Memory}
    (plain : action.Plain) (done : flight.act action = some next) :
    Witnessing options next (sightings ++ (flight.sighting? action).toList) := by
  cases action with
  | advance index => exact witnessing.advance inName done
  | call path kind =>
    cases done
    rw [sighting?, Option.toList_none, List.append_nil]
    refine ⟨witnessing.same, witnessing.dated, ?_, witnessing.installed, witnessing.cached⟩
    intro index caller known
    rcases List.mem_append.mp (List.mem_of_getElem? known) with before | last
    · obtain ⟨own, found⟩ := List.mem_iff_getElem?.mp before
      exact witnessing.callers found
    · obtain rfl := List.mem_singleton.mp last
      exact ⟨fun member => plain ((Logical.stripAppRoot_sublist path).subset member), trivial⟩
  | edit change =>
    cases done
    obtain ⟨edit, rfl⟩ := plain
    obtain ⟨since, dated⟩ := Memory.edit_since witnessing.dated edit
    rw [sighting?, Option.toList_none, List.append_nil]
    refine ⟨witnessing.same, dated, ?_, ?_, witnessing.cached⟩
    · intro index caller known
      obtain ⟨line, sees⟩ := witnessing.callers known
      exact ⟨line, sees.kept since (List.Subset.refl _)⟩
    · intro _ _ installed
      exact (witnessing.installed installed).kept since (List.Subset.refl _)
  | breakOff index =>
    simp only [Flight.act, breakOff, Option.bind_eq_bind, Option.bind_eq_some_iff] at done
    obtain ⟨breaking, found, handle, building, same⟩ := done
    cases same
    rw [sighting?, Option.toList_none, List.append_nil]
    refine ⟨witnessing.same, witnessing.dated, ?_, witnessing.installed, witnessing.cached⟩
    intro other caller known
    rw [withPhase, List.getElem?_modify, Option.map_eq_map, Option.map_eq_some_iff] at known
    obtain ⟨before, stood, rfl⟩ := known
    split
    · exact ⟨(witnessing.callers stood).1, trivial⟩
    · exact witnessing.callers stood

/-- It is so in every state that a flight over a project in memory comes to. -/
theorem observed_witnessing (inName : ∀ kind, '\n' ∉ options.importName kind)
    (history : List Memory.Edit)
    (observed : Observed ⟨options, { project := Memory.editAll {} history }, []⟩ flight sightings) :
    Witnessing options flight sightings := by
  induction observed with
  | start => exact ⟨rfl, Memory.editAll_dated history, nofun, nofun, nofun⟩
  | act action plain _ done inductionHypothesis => exact inductionHypothesis.act inName plain done

/-- Whatever callers do and whatever files are written and removed between their moves: an
entry that was ever installed and is not out of date has the outcome, on the files of that
moment, of the unit that its build has resolved. If its build was not raced, this is what
resolving and compiling its path on these files gives. -/
theorem unexpired_outcome (inName : ∀ kind, '\n' ∉ options.importName kind)
    (history : List Memory.Edit)
    (observed : Observed ⟨options, { project := Memory.editAll {} history }, []⟩ flight sightings)
    {key : Text} {entry : Entry MemoryToken} (installed : .installed key entry ∈ sightings)
    (unexpired : entry.isExpired flight.cache.project = false) :
    ∃ kind unit, .resolved entry.id kind unit ∈ sightings ∧ unit.ResolvedFor options kind key ∧
      entry.outcome = Outcome.ofUnit options unit flight.cache.project ∧
      (Unraced sightings entry.id →
        entry.outcome = Outcome.fresh options kind key flight.cache.project) := by
  have witnessing := observed_witnessing inName history observed
  have backed := witnessing.installed installed
  exact backed.fresh unexpired

/-- What is seen and installed on a course. -/
def seenAlong (past : List (Flight Memory MemoryToken × Action Memory)) : List Sighting :=
  past.flatMap fun step => (step.1.sighting? step.2).toList

/-- A course of plain actions is observed with its sightings. -/
theorem Course.observed {start flight : Flight Memory MemoryToken}
    {past : List (Flight Memory MemoryToken × Action Memory)} (course : Course start past flight)
    (plain : ∀ action ∈ past.map Prod.snd, action.Plain) :
    Observed start flight (seenAlong past) := by
  induction course with
  | start => exact .start
  | @act past flight next action earlier done inductionHypothesis =>
    rw [List.map_append] at plain
    have before : Observed start flight (seenAlong past) :=
      inductionHypothesis fun other member => plain other (List.mem_append_left _ member)
    have now := before.act action (plain action (by simp)) done
    simpa [seenAlong] using now

/-- A template is asked for. When its unit is resolved the template is rewritten, and then the
build runs to its end. -/
def rewritten : List (Action Memory) :=
  .call "/a.cshtml" .views :: List.replicate 6 (.advance 0) ++
    .edit (·.edit (.write "/a.cshtml" (Utf8.encode "@model Order"))) ::
      List.replicate 9 (.advance 0)

/-- A write between the moves of a build that finds a template and an import: the entry is the one
of the text that was written, and no token reports the write. -/
theorem unexpired_outcome_rewritten :
    let options : Options := { defaults := [] }
    let history : List Memory.Edit := [.write "/a.cshtml" (Utf8.encode "@model Home"),
      .write "/_ViewImports.cshtml" (Utf8.encode "@using App")]
    let manifest : Manifest := ⟨"AspNetCore", "a",
      "Microsoft.AspNetCore.Mvc.Razor.RazorPage<Order>", none, [], []⟩
    let entry : Entry MemoryToken := ⟨0, "/a.cshtml", .compiled (.success (.made manifest) false),
      [.generation "/a.cshtml" 3, .generation "/_ViewImports.cshtml" 2]⟩
    ∃ flight sightings,
      Observed ⟨options, { project := Memory.editAll {} history }, []⟩ flight sightings ∧
      .installed "/a.cshtml" entry ∈ sightings ∧ entry.isExpired flight.cache.project = false ∧
      Unraced sightings entry.id ∧
      entry.outcome = Outcome.fresh options .views "/a.cshtml" flight.cache.project := by
  intro options history manifest entry
  let template : Item := { path := "/a.cshtml", present := true }
  let import_ : Item := { path := "/_ViewImports.cshtml", present := true }
  let seen : List Sighting := [.resolved 0 .views ⟨template, [import_]⟩, .watched 0 template,
    .watched 0 import_, .installed "/a.cshtml" entry]
  have follows : ((⟨options, { project := Memory.editAll {} history }, []⟩ :
      Flight Memory MemoryToken).follow rewritten).any (fun course => decide
        (seenAlong course.1 = seen ∧ entry.isExpired course.2.cache.project = false)) = true := by
    decide +kernel
  obtain ⟨⟨past, flight⟩, followed, comes⟩ := (Option.any_eq_true _ _).mp follows
  obtain ⟨along, unexpired⟩ := of_decide_eq_true comes
  have observed : Observed ⟨options, { project := Memory.editAll {} history }, []⟩ flight seen := by
    rw [← along]
    apply (course_of_follow followed).observed
    rw [actions_of_follow followed]
    intro action member
    simp only [rewritten, List.mem_cons, List.mem_append, List.mem_replicate] at member
    rcases member with (rfl | ⟨-, rfl⟩) | rfl | ⟨-, rfl⟩
    · exact (by decide : '\n' ∉ ("/a.cshtml" : Text))
    · trivial
    · exact ⟨_, rfl⟩
    · trivial
  have unraced : Unraced seen entry.id := by
    intro kind unit known item member found watched same
    obtain ⟨rfl, rfl⟩ : kind = .views ∧ unit = ⟨template, [import_]⟩ := by
      simpa [seen, entry] using known
    have listed : item = template ∨ item = import_ := by simpa using member
    have either : found = template ∨ found = import_ := by simpa [seen, entry] using watched
    have apart : template.path ≠ import_.path := by decide
    rcases listed with rfl | rfl <;> rcases either with rfl | rfl
    · rfl
    · exact absurd same.symm apart
    · exact absurd same apart
    · rfl
  have inName := TemplateUnit.newline_not_mem_importName [] []
  have installed : .installed "/a.cshtml" entry ∈ seen := by simp [seen]
  obtain ⟨kind, unit, known, -, -, fresh⟩ :=
    unexpired_outcome inName history observed installed unexpired
  obtain ⟨rfl, -⟩ : kind = .views ∧ unit = ⟨template, [import_]⟩ := by
    simpa [seen, entry] using known
  exact ⟨flight, seen, observed, installed, unexpired, unraced, fresh unraced⟩

/-- A template that does not exist, and the candidate for its imports, which does not either. -/
def missingUnit : TemplateUnit where
  item := { path := "/a.cshtml", present := false }
  imports := [{ path := "/_ViewImports.cshtml", present := false }]

/-- A caller has found that its template does not exist. -/
def missing : Flight Memory MemoryToken where
  options := {}
  cache := {
    project := {}
    slots := [("/a.cshtml", .pending 0)]
    handles := [.running]
    stats := { compilations := 1 } }
  callers := [{ key := "/a.cshtml", kind := .views, phase := .resolving 0 (.answer missingUnit) }]

/-- A flight comes to the state in which the template was found missing. -/
theorem observed_missing : Observed ⟨{}, { project := {} }, []⟩ missing [] := by
  have called : Observed ⟨{}, { project := {} }, []⟩ _ [] :=
    .act (.call "/a.cshtml" .views) (by decide : '\n' ∉ ("/a.cshtml" : Text)) .start rfl
  have begun := called.act (.advance 0) trivial rfl
    |>.act (.advance 0) trivial rfl |>.act (.advance 0) trivial rfl
  have asked := begun.act (.advance 0) trivial rfl
  with_unfolding_all exact asked.act (.advance 0) trivial rfl

/-- A template that is written when it was found missing and is not yet watched stays missing in its
entry, which is not out of date. -/
theorem unexpired_missing : ∃ flight sightings entry,
    Observed ⟨{}, { project := {} }, []⟩ flight sightings ∧
      .installed "/a.cshtml" entry ∈ sightings ∧ entry.isExpired flight.cache.project = false ∧
      entry.outcome = .notFound ∧
      ∀ kind, Outcome.fresh {} kind "/a.cshtml" flight.cache.project ≠ .notFound := by
  have resolved := observed_missing.act (.advance 0) trivial rfl
  have raced := resolved.act (.edit fun memory => memory.edit (.write "/a.cshtml" [])) ⟨_, rfl⟩ rfl
  have watched := raced.act (.advance 0) trivial rfl
    |>.act (.advance 0) trivial rfl |>.act (.advance 0) trivial rfl
  have installed := watched.act (.advance 0) trivial rfl
  refine ⟨_, _, _, installed, List.mem_append_right _ (List.mem_singleton.mpr rfl), rfl, rfl, ?_⟩
  intro kind
  cases kind <;> decide +kernel

end Flight

end ViewCompiler
