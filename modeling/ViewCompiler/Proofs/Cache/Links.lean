import ViewCompiler.Proofs.Cache.Alone
import ViewCompiler.Proofs.Cache.Invalidation
import ViewCompiler.Proofs.Dependents.Mirror

/-!
# Tokens and recorded dependencies

What a cache knows of an entry's dependencies it knows twice: the entry has tokens, which tell
that it is out of date, and the dependency graph has rows, which tell whom a change concerns.
Both are made from the targets of one unit, and no call that breaks off, and no call for
another key, parts them: as long as the entry stands, its tokens are of the very paths that
are recorded for its key.

A key is recorded as it is spelled and paths are canonical, a key is not recorded as its own
dependency, and a key whose build broke off is recorded without an entry. `mem_dependentsOf`
says what remains when these are put together again.
-/

namespace ViewCompiler

open TemplateUnit

namespace Project

section Keeps

variable {P Token : Type} {sound : P → Prop} {minds : P → Text → Token → Prop} {before after : P}

/-- What is kept from one state to another. -/
def Keeps (sound : P → Prop) (minds : P → Text → Token → Prop) (before after : P) : Prop :=
  sound before → sound after ∧ ∀ path token, minds before path token → minds after path token

/-- A state that stays as it is keeps everything. -/
theorem Keeps.refl (state : P) : Keeps sound minds state state :=
  fun holds => ⟨holds, fun _ _ tied => tied⟩

/-- What is kept twice is kept. -/
theorem Keeps.trans {between : P} (first : Keeps sound minds before between)
    (second : Keeps sound minds between after) : Keeps sound minds before after := by
  intro holds
  obtain ⟨halfway, kept⟩ := first holds
  obtain ⟨settled, still⟩ := second halfway
  exact ⟨settled, fun path token tied => still path token (kept path token tied)⟩

end Keeps

variable {P Token : Type} [Project P Token]

/-- What is so of tokens and paths in sound states of a project stays so when tokens are asked
and others are issued. -/
structure Stays (sound : P → Prop) (minds : P → Text → Token → Prop) : Prop where
  sound_asked {project : P} (token : Token) (holds : sound project) :
    sound (Project.asked project token).1
  sound_issued {project : P} (path : Text) (holds : sound project) :
    sound (Project.issue project path).2
  asked {project : P} {path : Text} {token : Token} (other : Token) (holds : sound project)
    (tied : minds project path token) : minds (Project.asked project other).1 path token
  issued {project : P} {path : Text} {token : Token} (other : Text) (holds : sound project)
    (tied : minds project path token) : minds (Project.issue project other).2 path token

/-- What ties tokens to paths: it stays so, and is so of a token as soon as it is issued. -/
structure Ties (sound : P → Prop) (minds : P → Text → Token → Prop) : Prop
    extends Stays sound minds where
  own {project : P} (path : Text) (holds : sound project) :
    minds (Project.issue project path).2 path (Project.issue project path).1

variable {sound : P → Prop} {minds : P → Text → Token → Prop} {before after : P}

/-- Asking tokens keeps what stays so of tokens and paths. -/
theorem Asked.keeps (stays : Stays sound minds) {events : List Event}
    (asked : Asked before events after) : Keeps sound minds before after := by
  induction asked with
  | start => exact Keeps.refl before
  | ask earlier token inductionHypothesis =>
    apply inductionHypothesis.trans
    intro holds
    exact ⟨stays.sound_asked token holds, fun _ _ tied => stays.asked token holds tied⟩

/-- Issuing tokens keeps it as well. -/
theorem Issues.keeps (stays : Stays sound minds) {paths : List Text} {tokens : List Token}
    (issues : Issues before paths tokens after) : Keeps sound minds before after := by
  induction issues with
  | none project => exact Keeps.refl project
  | one path later inductionHypothesis =>
    refine Keeps.trans ?_ inductionHypothesis
    intro holds
    exact ⟨stays.sound_issued path holds, fun _ _ tied => stays.issued path holds tied⟩

/-- Tokens that were issued for paths are of these paths. -/
theorem Issues.tied (ties : Ties sound minds) {paths : List Text} {tokens : List Token}
    (issues : Issues before paths tokens after) (holds : sound before) :
    List.Forall₂ (minds after) paths tokens := by
  induction issues with
  | none project => exact .nil
  | one path later inductionHypothesis =>
    have next := ties.sound_issued path holds
    have kept := (later.keeps ties.toStays next).2
    exact .cons (kept _ _ (ties.own path holds)) (inductionHypothesis next)

end Project

/-- Tokens are of the paths that are recorded for a key. -/
structure Links {Token : Type} (minds : Text → Token → Prop) (graph : Dependents) (key : Text)
    (tokens : List Token) (paths : List Text) : Prop where
  recorded : graph.contains key = true
  lists : ∀ file, file ∈ graph.files key ↔ file ∈ paths ∧ file ≠ key
  own : ∀ canonical, Logical.normalize key = some canonical → canonical ∈ paths
  outside : Logical.normalize key = none → ∀ path ∈ paths, Logical.normalize path = none
  settled : ∀ path ∈ paths, ∀ canonical, Logical.normalize path = some canonical → canonical = path
  tokens : List.Forall₂ minds paths tokens

namespace Links

variable {Token : Type} {minds : Text → Token → Prop} {graph : Dependents} {key other : Text}
  {tokens : List Token} {paths : List Text}

/-- Recording another key makes no difference. -/
theorem record (links : Links minds graph key tokens paths) (differs : key ≠ other)
    (others : List Text) : Links minds (graph.record other others) key tokens paths := by
  refine ⟨?_, ?_, links.own, links.outside, links.settled, links.tokens⟩
  · rw [Dependents.contains_record, links.recorded, Bool.or_true]
  · intro file
    rw [Dependents.files_record, if_neg differs, links.lists]

/-- Tokens that were issued for the paths of a key when the key was recorded with them. -/
theorem ofRecord (own : ∀ canonical, Logical.normalize key = some canonical → canonical ∈ paths)
    (outside : Logical.normalize key = none → ∀ path ∈ paths, Logical.normalize path = none)
    (settled : ∀ path ∈ paths, ∀ canonical, Logical.normalize path = some canonical →
      canonical = path)
    (issued : List.Forall₂ minds paths tokens) (graph : Dependents) :
    Links minds (graph.record key paths) key tokens paths := by
  refine ⟨?_, ?_, own, outside, settled, issued⟩
  · rw [Dependents.contains_record, decide_eq_true rfl, Bool.true_or]
  · intro file
    rw [Dependents.files_record, if_pos rfl, Dependents.mem_distinct, List.mem_filter,
      decide_eq_true_eq]

/-- Tokens that are linked to paths are linked by whatever follows of them. -/
theorem imp {further : Text → Token → Prop} (links : Links minds graph key tokens paths)
    (more : ∀ path token, minds path token → further path token) :
    Links further graph key tokens paths :=
  ⟨links.recorded, links.lists, links.own, links.outside, links.settled, links.tokens.imp more⟩

end Links

section Targets

variable {P Token : Type} [Project P Token] [Project.Sighted P]

/-- The canonical path of a key is among the targets of its unit. -/
theorem Cache.targets_own (options : Options) (kind : ImportsKind) {key canonical : Text}
    (project : P) (normal : Logical.normalize key = some canonical) :
    canonical ∈ Cache.targets ((resolve options kind key).run project) := by
  unfold Cache.targets
  split
  · rw [watched_resolve, List.map_cons, normal, Option.getD_some]
    exact List.mem_cons_self
  · rw [resolve_items, Project.Sighted.item_path, normal, Option.getD_some]
    exact List.mem_cons_self

/-- The one target of a key that leaves the root is the key. -/
theorem Cache.targets_outside (options : Options) (kind : ImportsKind) {key : Text} (project : P)
    (outside : Logical.normalize key = none) :
    ∀ path ∈ Cache.targets ((resolve options kind key).run project),
      Logical.normalize path = none := by
  intro path member
  have absent : ((resolve options kind key).run project).item.present = false := by
    rw [resolve_present, Project.Sighted.seen_outside project outside]
    rfl
  rw [Cache.targets, absent, if_neg Bool.false_ne_true, List.mem_singleton, resolve_items,
    Project.Sighted.item_path, outside, Option.getD_none] at member
  rw [member, outside]

/-- Targets are canonical or leave the root. -/
theorem Cache.targets_settled (options : Options) (kind : ImportsKind) (key : Text) (project : P) :
    ∀ path ∈ Cache.targets ((resolve options kind key).run project), ∀ canonical,
      Logical.normalize path = some canonical → canonical = path := by
  have settled (spelling canonical : Text)
      (normal : Logical.normalize ((Logical.normalize spelling).getD spelling) = some canonical) :
      canonical = (Logical.normalize spelling).getD spelling := by
    cases own : Logical.normalize spelling with
    | none =>
      rw [own, Option.getD_none, own] at normal
      cases normal
    | some known =>
      rw [own, Option.getD_some, Logical.normalize_canonical own] at normal
      exact (Option.some.inj normal).symm
  intro path member canonical normal
  have spelled : ∃ spelling, path = (Logical.normalize spelling).getD spelling := by
    unfold Cache.targets at member
    split at member
    · rw [watched_resolve] at member
      obtain ⟨spelling, -, rfl⟩ := List.mem_map.mp member
      exact ⟨spelling, rfl⟩
    · rw [resolve_items, Project.Sighted.item_path] at member
      exact ⟨key, List.mem_singleton.mp member⟩
  obtain ⟨spelling, rfl⟩ := spelled
  exact settled spelling canonical normal

end Targets

namespace Cache

variable {P Token : Type} {sound : P → Prop} {minds : P → Text → Token → Prop}
  {first cache before after : Cache P Token} {key path : Text} {entry : Entry Token}

/-- A cache in which every entry that was not there at first has tokens of the paths that are
recorded for its key. No key is being built. -/
structure Linked (sound : P → Prop) (minds : P → Text → Token → Prop)
    (first cache : Cache P Token) : Prop where
  sound : sound cache.project
  alone : ∀ key handle, cache.slot? key ≠ some (.pending handle)
  mirrored : cache.dependents.Mirrored
  entries : ∀ key entry, cache.slot? key = some (.cached entry) →
    first.slot? key = some (.cached entry) ∨
      ∃ paths, Links (minds cache.project) cache.dependents key entry.tokens paths

/-- The templates that a change of a canonical path concerns include a key exactly if the path
is recorded for the key, where the key itself counts as recorded for its own path. -/
theorem mem_dependentsOf (mirrored : cache.dependents.Mirrored) {related : Text → Token → Prop}
    {tokens : List Token} {paths : List Text}
    (links : Links related cache.dependents key tokens paths)
    (canonical : Logical.normalize path = some path) :
    key ∈ cache.dependentsOf path ↔ path ∈ paths := by
  have users : key ∈ (cache.dependents.usedBy path).getD [] ↔ path ∈ paths ∧ path ≠ key :=
    (mirrored.agree key path).trans (links.lists path)
  unfold dependentsOf
  simp only [canonical, Text.mem_sort]
  by_cases same : key = path
  · subst same
    have absent : key ∉ (cache.dependents.usedBy key).getD [] := fun member =>
      (users.mp member).2 rfl
    have listed := links.own key canonical
    simp [absent, links.recorded, listed]
  · rw [← users.trans (and_iff_left (Ne.symm same))]
    split
    · rw [List.mem_append, List.mem_singleton, or_iff_left same]
    · rfl

/-- The templates that a change concerns come in order and each once. -/
theorem dependentsOf_ordered (mirrored : cache.dependents.Mirrored) (path : Text) :
    ((cache.dependentsOf path).Pairwise fun left right => Text.atMost left right = true) ∧
      (cache.dependentsOf path).Nodup := by
  unfold dependentsOf
  cases Logical.normalize path with
  | none => exact ⟨List.Pairwise.nil, List.nodup_nil⟩
  | some canonical =>
    refine ⟨Text.sort_ordered _, ?_⟩
    have single : ((cache.dependents.usedBy canonical).getD []).Nodup := mirrored.single canonical
    apply (List.mergeSort_perm _ _).nodup_iff.mpr
    split
    · rename_i itself
      simp only [Bool.and_eq_true, Bool.not_eq_true', List.contains_eq_mem,
        decide_eq_false_iff_not] at itself
      rw [List.nodup_append_comm, List.singleton_append]
      exact List.Nodup.cons itself.2 single
    · exact single

/-- It does not matter how the path of a change is spelled. -/
theorem dependentsOf_spelled (cache : Cache P Token) {spelling : Text}
    (same : Logical.normalize spelling = Logical.normalize path) :
    cache.dependentsOf spelling = cache.dependentsOf path := by
  unfold dependentsOf
  rw [same]

/-- Nobody has asked the cache for anything. -/
structure Idle (project : P) (cache : Cache P Token) : Prop where
  project : cache.project = project
  alone : ∀ key handle, cache.slot? key ≠ some (.pending handle)
  unrecorded : cache.dependents = {}

/-- Entering a type that was compiled beforehand leaves a cache idle. -/
theorem Idle.seed {project : P} (idle : Idle project cache) (view : Text × Text) :
    Idle project (cache.seed view) := by
  refine ⟨idle.project, ?_, idle.unrecorded⟩
  intro key handle stands
  by_cases same : key = Logical.stripAppRoot view.1
  · rw [same] at stands
    have own := (Table.find?_put_self _ _ cache.slots).symm.trans stands
    cases own
  · have other : (cache.seed view).slot? key = cache.slot? key :=
      Table.find?_put_of_ne same _ cache.slots
    rw [other] at stands
    exact idle.alone key handle stands

/-- A new cache is idle, with or without such types. -/
theorem founded_idle (project : P) (views : Option (List (Text × Text))) :
    Idle project (founded project views : Cache P Token) := by
  have empty : Idle project ({ project } : Cache P Token) := ⟨rfl, nofun, rfl⟩
  cases views with
  | none => exact empty
  | some views =>
    have seeded : Idle project (views.foldl Cache.seed ({ project } : Cache P Token)) :=
      List.foldlRecOn views Cache.seed empty fun _ idle view _ => idle.seed view
    exact ⟨seeded.project, seeded.alone, seeded.unrecorded⟩

/-- A new cache is linked. -/
theorem founded_linked {project : P} (holds : sound project) (views : Option (List (Text × Text))) :
    Linked sound minds (founded project views) (founded project views) := by
  have idle : Idle project (founded project views : Cache P Token) := founded_idle project views
  refine ⟨idle.project.symm ▸ holds, idle.alone, ?_, fun _ _ stands => .inl stands⟩
  rw [idle.unrecorded]
  exact Dependents.mirrored_empty

/-- Another state of the project leaves a cache linked if it keeps what ties tokens to paths. -/
theorem Linked.withProject (linked : Linked sound minds first cache) {project : P}
    (keeps : Project.Keeps sound minds cache.project project) :
    Linked sound minds first { cache with project } := by
  obtain ⟨settled, still⟩ := keeps linked.sound
  refine ⟨settled, linked.alone, linked.mirrored, ?_⟩
  intro key entry stands
  rcases linked.entries key entry stands with before | ⟨paths, links⟩
  · exact .inl before
  · exact .inr ⟨paths, links.imp still⟩

/-- It can be computed whether a key has an entry that passes a test. -/
def hasEntry (cache : Cache P Token) (key : Text) (test : Entry Token → Bool) : Bool :=
  (cache.slot? key).any fun
    | .cached entry => test entry
    | .pending _ => false

/-- A key with an entry that passes a test has one in its slot. -/
theorem exists_of_hasEntry {test : Entry Token → Bool} (has : cache.hasEntry key test = true) :
    ∃ entry, cache.slot? key = some (.cached entry) ∧ test entry = true := by
  obtain ⟨slot, stands, passes⟩ := (Option.any_eq_true _ _).mp has
  cases slot with
  | pending handle => cases passes
  | cached entry => exact ⟨entry, stands, passes⟩

/-- A build leaves a cache linked, if the entry that it leaves is. -/
theorem Ends.linked (linked : Linked sound minds first before) {slot : Option (Slot Token)}
    {progress : Progress Token} (ends : Ends before after key slot progress)
    (mirrored : after.dependents.Mirrored) (holds : sound after.project)
    (others : ∀ other, other ≠ key → ∀ tokens paths,
      Links (minds before.project) before.dependents other tokens paths →
        Links (minds after.project) after.dependents other tokens paths)
    (built : ∀ other, slot = some other → ∃ entry, other = .cached entry ∧
      ∃ paths, Links (minds after.project) after.dependents key entry.tokens paths) :
    Linked sound minds first after := by
  refine ⟨holds, ?_, mirrored, ?_⟩
  · intro other handle stands
    rcases ends.stands stands with ⟨-, pending⟩ | ⟨-, before⟩
    · obtain ⟨entry, cached, -⟩ := built _ pending
      cases cached
    · exact linked.alone other handle before
  · intro other entry stands
    rcases ends.stands stands with ⟨rfl, found⟩ | ⟨differs, before⟩
    · obtain ⟨own, cached, links⟩ := built _ found
      cases cached
      exact .inr links
    · rcases linked.entries other entry before with standing | ⟨paths, links⟩
      · exact .inl standing
      · exact .inr ⟨paths, others other differs _ _ links⟩

/-- Whatever a call comes to, it leaves a cache linked. -/
theorem Goes.linked [Project P Token] [Project.Sighted P] {options : Options} {kind : ImportsKind}
    {interference : Interference P} {reply : Reply Token}
    (goes : Goes options kind interference before key reply after)
    (ties : Project.Ties sound minds)
    (keeps : ∀ project, Project.Keeps sound minds project (interference.during project))
    (linked : Linked sound minds first before) : Linked sound minds first after := by
  cases goes with
  | hits stands current asks =>
    have still := linked.withProject (asks.keeps ties.toStays)
    exact ⟨still.sound, still.alone, still.mirrored, still.entries⟩
  | @builds entry compiled events asked issued _ outdated asks issues project shape dependents
      ends =>
    have during : Project.Keeps sound minds issued after.project := by
      rw [project]
      split
      · exact keeps issued
      · exact Project.Keeps.refl issued
    have issuing := issues.keeps ties.toStays
    have halfway := (asks.keeps ties.toStays linked.sound).1
    have whole := ((asks.keeps ties.toStays).trans issuing).trans during
    have still := (whole linked.sound).2
    refine ends.linked linked ?_ (whole linked.sound).1 ?_ ?_
    · rw [dependents]
      exact linked.mirrored.record key _
    · intro other differs tokens paths links
      rw [dependents]
      exact (links.imp still).record differs _
    · rintro _ ⟨⟩
      refine ⟨entry, rfl, targets ((resolve options kind key).run asked), ?_⟩
      rw [dependents]
      have tied : List.Forall₂ (minds after.project)
          (targets ((resolve options kind key).run asked)) entry.tokens :=
        (issues.tied ties halfway).imp (during (issuing halfway).1).2
      exact Links.ofRecord (fun canonical normal => targets_own options kind asked normal)
        (targets_outside options kind asked) (targets_settled options kind key asked) tied
        before.dependents
  | breaksAtOnce outdated breaks asks dependents ends =>
    obtain ⟨holds, still⟩ := asks.keeps ties.toStays linked.sound
    refine ends.linked linked ?_ holds ?_ nofun
    · rw [dependents]
      exact linked.mirrored
    · intro other differs tokens paths links
      rw [dependents]
      exact links.imp still
  | @breaksLate events asked issued tokens _ outdated breaks asks issues project dependents ends =>
    have during : Project.Keeps sound minds issued after.project := by
      rw [project]
      exact keeps issued
    have whole := ((asks.keeps ties.toStays).trans (issues.keeps ties.toStays)).trans during
    have still := (whole linked.sound).2
    refine ends.linked linked ?_ (whole linked.sound).1 ?_ nofun
    · rw [dependents]
      exact linked.mirrored.record key _
    · intro other differs tokens paths links
      rw [dependents]
      exact (links.imp still).record differs _

end Cache

/-! ## A cache over a project in memory -/

/-- What happens to a cache over a project in memory: a file changes, or a path is asked for,
and then files may change while its template is being compiled, and the build may break off. -/
inductive Deed
  | edit (change : Memory.Edit)
  | ask (options : Options) (kind : ImportsKind) (path : Text) (during : List Memory.Edit)
      (breaks : Option Cache.Break)

/-- The cache after what happened to it. -/
def Cache.undergo (cache : Cache Memory MemoryToken) : Deed → Cache Memory MemoryToken
  | .edit change => { cache with project := cache.project.edit change }
  | .ask options kind path during breaks =>
    (cache.getOrAdd options kind { during := (·.editAll during), breaks } path).2

/-- A token that was issued for a path in some state of a project in memory. -/
def Memory.Minds (_ : Memory) (path : Text) (token : MemoryToken) : Prop :=
  ∃ origin : Memory, token = origin.token path

/-- In memory, tokens are tied to the paths that they were issued for, whatever is asked. -/
theorem Memory.ties : Project.Ties (fun _ : Memory => True) Memory.Minds where
  sound_asked _ _ := trivial
  sound_issued _ _ := trivial
  asked _ _ tied := tied
  issued _ _ tied := tied
  own {memory} _ _ := ⟨memory, rfl⟩

/-- Tokens of paths say of a canonical path whether it is among them. -/
theorem Memory.token_watches {paths : List Text} {tokens : List MemoryToken} {memory : Memory}
    {path : Text} (issued : List.Forall₂ memory.Minds paths tokens)
    (settled : ∀ other ∈ paths, ∀ canonical, Logical.normalize other = some canonical →
      canonical = other)
    (canonical : Logical.normalize path = some path) :
    (∃ generation, .generation path generation ∈ tokens) ↔ path ∈ paths := by
  constructor
  · rintro ⟨generation, member⟩
    obtain ⟨other, among, origin, same⟩ := exists_related issued member
    cases normal : Logical.normalize other with
    | none =>
      simp only [Memory.token, normal] at same
      cases same
    | some known =>
      simp only [Memory.token, normal, MemoryToken.generation.injEq] at same
      rw [same.1, settled other among known normal]
      exact among
  · intro member
    obtain ⟨token, among, origin, rfl⟩ := exists_related issued.flip member
    refine ⟨origin.generation path, ?_⟩
    simpa only [Memory.token, canonical] using among

namespace Cache

variable {first cache : Cache Memory MemoryToken}

/-- Whatever happens to a cache leaves it linked. -/
theorem Linked.undergo (linked : Linked (fun _ => True) Memory.Minds first cache) (deed : Deed) :
    Linked (fun _ => True) Memory.Minds first (cache.undergo deed) := by
  cases deed with
  | edit change => exact linked.withProject fun _ => ⟨trivial, fun _ _ tied => tied⟩
  | ask options kind path during breaks =>
    have goes := getOrAdd_goes options kind { during := (·.editAll during), breaks } cache path
      (linked.alone _)
    exact goes.linked Memory.ties (fun _ _ => ⟨trivial, fun _ _ tied => tied⟩) linked

/-- Tokens and dependency graph agree: whatever happened to a new cache over any project in
memory, an entry that was built since has a token of a canonical path exactly if its key is
among the templates that a change of this path concerns. These come in order, each once, and
are the same for every spelling of the path. -/
theorem dependentsOf_exact (memory : Memory) (views : Option (List (Text × Text)))
    (deeds : List Deed) :
    let first : Cache Memory MemoryToken := founded memory views
    let cache := deeds.foldl undergo first
    (∀ key entry, cache.slot? key = some (.cached entry) →
      first.slot? key ≠ some (.cached entry) →
        ∀ path, Logical.normalize path = some path →
          ((∃ generation, .generation path generation ∈ entry.tokens) ↔
            key ∈ cache.dependentsOf path)) ∧
      ∀ path, ((cache.dependentsOf path).Pairwise fun left right =>
          Text.atMost left right = true) ∧
        (cache.dependentsOf path).Nodup ∧
        ∀ spelling, Logical.normalize spelling = Logical.normalize path →
          cache.dependentsOf spelling = cache.dependentsOf path := by
  intro first cache
  have linked : Linked (fun _ => True) Memory.Minds first cache :=
    List.foldlRecOn deeds undergo (founded_linked trivial views) fun _ known deed _ =>
      known.undergo deed
  constructor
  · intro key entry stands built path canonical
    obtain ⟨paths, links⟩ := (linked.entries key entry stands).resolve_left built
    rw [mem_dependentsOf linked.mirrored links canonical]
    exact Memory.token_watches links.tokens links.settled canonical
  · intro path
    obtain ⟨ordered, single⟩ := dependentsOf_ordered linked.mirrored path
    exact ⟨ordered, single, fun spelling same => dependentsOf_spelled cache same⟩

/-- The key of a template that is named from nowhere, built when its first build broke off. -/
theorem dependentsOf_exact_broken :
    let memory := Memory.ofFiles
      [("/_ViewImports.cshtml", Utf8.encode "@using"), ("/Views/a.cshtml", [])]
    let ask := Deed.ask { defaults := [] } .views "Views/a.cshtml" []
    let cache := [ask (some .beforeCompiling), ask none].foldl undergo (founded memory none)
    ∃ entry, cache.slot? "Views/a.cshtml" = some (.cached entry) ∧
      (∃ generation, .generation "/_ViewImports.cshtml" generation ∈ entry.tokens) ∧
      ("Views/a.cshtml" : Text) ∈ cache.dependentsOf "/_ViewImports.cshtml" := by
  intro memory ask cache
  have watched : cache.hasEntry "Views/a.cshtml" fun entry =>
      entry.tokens.contains (.generation "/_ViewImports.cshtml" 1) := by
    decide +kernel
  obtain ⟨entry, stands, watches⟩ := exists_of_hasEntry watched
  have token : ∃ generation, .generation "/_ViewImports.cshtml" generation ∈ entry.tokens :=
    ⟨1, List.contains_iff_mem.mp watches⟩
  obtain ⟨agree, -⟩ := dependentsOf_exact memory none [ask (some .beforeCompiling), ask none]
  have concerned := agree "Views/a.cshtml" entry stands nofun "/_ViewImports.cshtml" (by decide)
  exact ⟨entry, stands, token, concerned.mp token⟩

end Cache

end ViewCompiler
