import Mathlib.Data.List.TakeWhile
import Mathlib.Data.Set.Card
import ViewCompiler.Proofs.History
import ViewCompiler.Proofs.Signals.Firing

/-!
# Whom signals reach

Tokens are asked for and changes are signalled in any order. A token reports a change exactly
if everything was signalled after it was issued, or a path that reaches its own: the same one,
or a directory above it, with any number of slashes at its end. Signals that have fired are
forgotten, so what is counted are the paths that a token was issued for since they were last
reached, each once however many tokens there are.
-/

namespace ViewCompiler.Signals

/-- What the keeper of signals is asked to do. -/
inductive Call
  | token (path : Text)
  | notify (changed : Text)
  | notifyAll
deriving DecidableEq, Repr

/-- The signals after a call. -/
def call (signals : Signals) : Call → Signals
  | .token path => (signals.token path).2
  | .notify changed => (signals.notify changed).2
  | .notifyAll => signals.notifyAll

/-- The signals after calls, made in order. -/
def run (signals : Signals) (calls : List Call) : Signals := calls.foldl call signals

/-- A changed path reaches itself, and what lies behind a slash that stands in the place of
all the slashes that it ends in. -/
inductive Reaches : (changed path : Text) → Prop
  | self (path : Text) : Reaches path path
  | below (directory slashes inner : Text) (bare : directory.getLast? ≠ some '/')
      (closing : ∀ char ∈ slashes, char = '/') :
      Reaches (directory ++ slashes) (directory ++ '/' :: inner)

/-- Whether a call fires the signal of a path. -/
def Call.Fires : Call → (path : Text) → Prop
  | .token _, _ => False
  | .notify changed, path => Reaches changed path
  | .notifyAll, _ => True

/-- A token was issued for a path since the signal of the path last fired. -/
def Outstanding (calls : List Call) (path : Text) : Prop :=
  Stands calls (.token path) (·.Fires path)

variable {signals : Signals} {path changed : Text} {number : Nat} {calls : List Call}

/-! ## What a change concerns -/

/-- Only the slashes at the end are taken from a path. -/
theorem dropSlashes_eq_iff (changed directory : Text) :
    (changed.reverse.dropWhile (· == '/')).reverse = directory ↔
      directory.getLast? ≠ some '/' ∧
        ∃ slashes, changed = directory ++ slashes ∧ ∀ char ∈ slashes, char = '/' := by
  constructor
  · rintro rfl
    have parts : changed.reverse.takeWhile (· == '/') ++ changed.reverse.dropWhile (· == '/') =
        changed.reverse := List.takeWhile_append_dropWhile
    refine ⟨?_, (changed.reverse.takeWhile (· == '/')).reverse, ?_, ?_⟩
    · intro ends
      rw [List.getLast?_reverse] at ends
      have differs := List.head?_dropWhile_not (· == '/') changed.reverse
      rw [ends] at differs
      simp at differs
    · rw [← List.reverse_append, parts, List.reverse_reverse]
    · intro char member
      have slash := List.mem_takeWhile_imp (List.mem_reverse.mp member)
      simpa using slash
  · rintro ⟨bare, slashes, rfl, closing⟩
    have dropped : ∀ char ∈ slashes.reverse, (char == '/') = true := by
      intro char member
      simpa using closing char (List.mem_reverse.mp member)
    rw [List.reverse_append, List.dropWhile_append_of_pos dropped]
    cases shape : directory.reverse with
    | nil => simpa using shape.symm
    | cons last front =>
      have solid : ¬ (last == '/') = true := by
        intro slash
        apply bare
        rw [← List.head?_reverse, shape, beq_iff_eq.mp slash]
        rfl
      have kept : (last :: front).dropWhile (· == '/') = last :: front :=
        List.dropWhile_cons_of_neg solid
      rw [kept, ← shape, List.reverse_reverse]

/-- A change concerns exactly the paths that it reaches. -/
theorem concerns_iff (changed path : Text) :
    concerns changed path = true ↔ Reaches changed path := by
  unfold concerns
  rw [Bool.or_eq_true, beq_iff_eq, Text.beginsWith, Option.isSome_iff_exists]
  simp only [Text.afterLead?_eq_some_iff, List.append_assoc, List.singleton_append]
  constructor
  · rintro (rfl | ⟨inner, rfl⟩)
    · exact .self path
    · obtain ⟨bare, slashes, shape, closing⟩ := (dropSlashes_eq_iff changed _).mp rfl
      have below := Reaches.below _ slashes inner bare closing
      rwa [← shape] at below
  · intro reaches
    cases reaches with
    | self => exact .inl rfl
    | below directory slashes inner bare closing =>
      have stripped := (dropSlashes_eq_iff (directory ++ slashes) directory).mpr
        ⟨bare, slashes, rfl, closing⟩
      exact .inr ⟨inner, by rw [stripped]⟩

/-! ## When a token reports a change -/

/-- A signal stands for its path after any call. -/
theorem Names.call (names : signals.Names path number) (call : Call) :
    (signals.call call).Names path number := by
  cases call with
  | token other => exact names.token other
  | notify changed => exact names.notify changed
  | notifyAll => exact ⟨names.minted, nofun⟩

/-- Every call leaves signals outstanding for their paths. -/
theorem Sound.call (sound : signals.Sound) (call : Call) : (signals.call call).Sound := by
  cases call with
  | token other => exact sound.token other
  | notify changed => exact sound.notify changed
  | notifyAll => exact nofun

/-- So do all calls together, from the first one on. -/
theorem run_sound (calls : List Call) : (run {} calls).Sound :=
  List.foldlRecOn calls call sound_empty fun _ sound call _ => sound.call call

/-- A signal has fired exactly if it had before or if the call fires that of its path. -/
theorem fired_call (names : signals.Names path number) (call : Call) :
    (signals.call call).fired number = true ↔ signals.fired number = true ∨ call.Fires path := by
  cases call with
  | token other =>
    rw [Signals.call, fired_token names]
    exact (or_iff_left id).symm
  | notify changed =>
    rw [Signals.call, fired_notify names, Bool.or_eq_true, concerns_iff]
    rfl
  | notifyAll => exact iff_of_true rfl (.inr trivial)

/-- After many calls, exactly if it had before or if any of them fires it. -/
theorem fired_run (names : signals.Names path number) (calls : List Call) :
    (signals.run calls).fired number = true ↔
      signals.fired number = true ∨ ∃ call ∈ calls, call.Fires path := by
  induction calls generalizing signals with
  | nil => simp [run]
  | cons call calls inductionHypothesis =>
    have first : signals.run (call :: calls) = (signals.call call).run calls := rfl
    rw [first, inductionHypothesis (names.call call), fired_call names, List.exists_mem_cons_iff,
      or_assoc]

/-- A signal that is handed out has not fired. -/
theorem token_unfired (signals : Signals) (path : Text) :
    (signals.token path).2.fired (signals.token path).1 = false :=
  fired_eq_false_iff.mpr ⟨path, mem_token.mpr (.inr rfl)⟩

/-! ## How many signals are outstanding -/

/-- The paths that have an outstanding signal. -/
def paths (signals : Signals) : List Text := signals.outstanding.map (·.1)

/-- When a token is issued, its path has an outstanding signal. -/
theorem mem_paths_token {other : Text} :
    other ∈ (signals.token path).2.paths ↔ other = path ∨ other ∈ signals.paths := by
  simp only [paths, List.mem_map, mem_token]
  constructor
  · rintro ⟨pair, stands | rfl, rfl⟩
    · exact .inr ⟨pair, stands, rfl⟩
    · exact .inl rfl
  · rintro (rfl | ⟨pair, stands, rfl⟩)
    · exact ⟨_, .inr rfl, rfl⟩
    · exact ⟨pair, .inl stands, rfl⟩

/-- When a change is told, the paths that it concerns have none any more. -/
theorem paths_notify (signals : Signals) (changed : Text) :
    (signals.notify changed).2.paths = signals.paths.filter fun path => !concerns changed path := by
  simp [notify, paths, List.partition_eq_filter_filter, List.filter_map, Function.comp_def]

/-- No path has two signals. -/
theorem paths_nodup_call (single : signals.paths.Nodup) (call : Call) :
    (signals.call call).paths.Nodup := by
  cases call with
  | token path =>
    simp only [Signals.call, token]
    cases found : signals.outstanding.find? path with
    | some known => exact single
    | none =>
      have absent : path ∉ signals.paths := by
        intro member
        obtain ⟨pair, stands, rfl⟩ := List.mem_map.mp member
        obtain ⟨known, found'⟩ := Table.exists_find?_of_mem stands
        rw [found] at found'
        cases found'
      simp only [paths, List.map_append, List.map_cons, List.map_nil]
      exact List.nodup_append_comm.mp (List.nodup_cons.mpr ⟨absent, single⟩)
  | notify changed =>
    rw [Signals.call, paths_notify]
    exact single.filter _
  | notifyAll => exact List.nodup_nil

/-- No path has two outstanding signals, whatever the calls. -/
theorem paths_nodup (calls : List Call) : (run {} calls).paths.Nodup :=
  List.foldlRecOn (motive := fun signals => signals.paths.Nodup) calls call List.nodup_nil
    fun _ single call _ => paths_nodup_call single call

/-- After a call, a path has an outstanding signal if it was asked for, or if it had one that
the call does not fire. -/
theorem mem_paths_call (call : Call) : path ∈ (signals.call call).paths ↔
    call = .token path ∨ (path ∈ signals.paths ∧ ¬ call.Fires path) := by
  cases call with
  | token other =>
    rw [Signals.call, mem_paths_token, Call.token.injEq, eq_comm]
    simp [Call.Fires]
  | notify changed =>
    rw [Signals.call, paths_notify, List.mem_filter, Bool.not_eq_true', ← Bool.not_eq_true,
      concerns_iff]
    simp [Call.Fires]
  | notifyAll => simp [Signals.call, notifyAll, paths, Call.Fires]

/-- A path has an outstanding signal exactly if a token was issued for it since its signal last
fired. -/
theorem mem_paths_run (calls : List Call) :
    path ∈ (run {} calls).paths ↔ Outstanding calls path := by
  induction calls using List.reverseRecOn with
  | nil => exact iff_of_false List.not_mem_nil not_stands_nil
  | append_singleton calls call inductionHypothesis =>
    have last : run {} (calls ++ [call]) = (run {} calls).call call := List.foldl_concat ..
    rw [last, mem_paths_call, inductionHypothesis]
    exact stands_concat.symm

/-- As many members as a list without repetitions has. -/
theorem encard_setOf_mem (paths : List Text) (single : paths.Nodup) :
    {path | path ∈ paths}.encard = paths.length := by
  rw [← List.coe_toFinset, Set.encard_coe_eq_coe_finsetCard, List.toFinset_card_of_nodup single]

/-- Whatever calls were made, a token that is issued now reports a change exactly if a later
call signals everything or a path that reaches its own; signalling a path counts the paths that
it reaches and that a token was issued for since they were last reached; and as many signals
are outstanding as there are paths with such a token. -/
theorem reaching_exact (calls : List Call) :
    let signals := run {} calls
    (∀ path after, ((signals.token path).2.run after).fired (signals.token path).1 = true ↔
      ∃ call ∈ after, call.Fires path) ∧
    (∀ changed, {path | Outstanding calls path ∧ Reaches changed path}.encard =
      (signals.notify changed).1) ∧
    {path | Outstanding calls path}.encard = signals.count := by
  intro signals
  have single : signals.paths.Nodup := paths_nodup calls
  refine ⟨?_, ?_, ?_⟩
  · intro path after
    rw [fired_run ((run_sound calls).token_names path), token_unfired]
    simp
  · intro changed
    have member (path : Text) : path ∈ signals.paths.filter (concerns changed) ↔
        Outstanding calls path ∧ Reaches changed path := by
      rw [List.mem_filter, concerns_iff, mem_paths_run]
    have reached : {path | Outstanding calls path ∧ Reaches changed path} =
        {path | path ∈ signals.paths.filter (concerns changed)} :=
      Set.ext fun path => (member path).symm
    have struck :
        (signals.paths.filter (concerns changed)).length = (signals.notify changed).1 := by
      simp [paths, notify, List.filter_map, List.partition_eq_filter_filter, Function.comp_def]
    rw [reached, encard_setOf_mem _ (single.filter _), struck]
  · have standing : {path | Outstanding calls path} = {path | path ∈ signals.paths} := by
      ext path
      exact (mem_paths_run calls).symm
    rw [standing, encard_setOf_mem _ single, paths, List.length_map]
    rfl

end ViewCompiler.Signals
