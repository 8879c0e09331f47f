import ViewCompiler.Memory

/-!
# What a token of a project in memory witnesses

Every change of a path leaves a generation on it that the path never had before. A path
whose token reports no change therefore holds what it held when the token was issued, and
it held this all the time in between.
-/

namespace ViewCompiler.Memory

/-- A change of a project in memory. -/
inductive Edit
  | write (path : Text) (content : Octets)
  | remove (path : Text)
deriving DecidableEq, Repr

/-- The project after a change. -/
def edit (memory : Memory) : Edit → Memory
  | .write path content => memory.write path content
  | .remove path => (memory.remove path).2

/-- The project after changes, made in order. -/
def editAll (memory : Memory) (edits : List Edit) : Memory := edits.foldl edit memory

/-- No generation is ahead of the clock. -/
def Dated (memory : Memory) : Prop := ∀ path, memory.generation path ≤ memory.clock

/-- The second state comes later: each path is as it was or has a generation that the
clock had not reached. -/
structure Since (earlier later : Memory) : Prop where
  clock : earlier.clock ≤ later.clock
  files : ∀ path, later.file? path = earlier.file? path ∨ earlier.clock < later.generation path

variable {earlier between later memory : Memory} {path canonical : Text}

/-- The generation of a path is part of its record. -/
theorem generation_congr (same : later.file? path = earlier.file? path) :
    later.generation path = earlier.generation path := by
  unfold generation
  rw [same]

/-- What a path holds is part of its record. -/
theorem content?_congr (same : later.file? path = earlier.file? path) :
    later.content? path = earlier.content? path := by
  unfold content?
  rw [same]

/-- No time has passed between a state and itself. -/
theorem Since.refl (memory : Memory) : Since memory memory := ⟨Nat.le_refl _, fun _ => .inl rfl⟩

/-- What comes later than a later state comes later. -/
theorem Since.trans (first : Since earlier between) (second : Since between later) :
    Since earlier later := by
  refine ⟨Nat.le_trans first.clock second.clock, ?_⟩
  intro path
  rcases second.files path with same | ahead
  · rcases first.files path with unchanged | ahead
    · exact .inl (same.trans unchanged)
    · exact .inr (generation_congr same ▸ ahead)
  · exact .inr (Nat.lt_of_le_of_lt first.clock ahead)

/-- A record that is put on a path with the next tick. -/
theorem put_since (dated : memory.Dated) (file : MemoryFile)
    (ticked : file.generation = memory.clock + 1) :
    let after : Memory := ⟨memory.files.put path file, memory.clock + 1⟩
    Since memory after ∧ after.Dated := by
  intro after
  have own : after.file? path = some file := Table.find?_put_self path file memory.files
  have others (other : Text) (differs : other ≠ path) : after.file? other = memory.file? other :=
    Table.find?_put_of_ne differs file memory.files
  have generation : after.generation path = memory.clock + 1 := by
    simp only [Memory.generation, own, ticked]
  refine ⟨⟨Nat.le_succ _, ?_⟩, ?_⟩
  · intro other
    by_cases same : other = path
    · subst same
      exact .inr (by omega)
    · exact .inl (others other same)
  · intro other
    by_cases same : other = path
    · subst same
      exact Nat.le_of_eq generation
    · rw [generation_congr (others other same)]
      exact Nat.le_succ_of_le (dated other)

/-- A tick that nothing lands with. -/
theorem tick_since (dated : memory.Dated) :
    let after : Memory := ⟨memory.files, memory.clock + 1⟩
    Since memory after ∧ after.Dated :=
  ⟨⟨Nat.le_succ _, fun _ => .inl rfl⟩, fun path => Nat.le_succ_of_le (dated path)⟩

/-- A change leads to a later state. -/
theorem edit_since (dated : memory.Dated) (change : Edit) :
    Since memory (memory.edit change) ∧ (memory.edit change).Dated := by
  cases change with
  | write path content =>
    simp only [edit, write]
    cases Logical.normalize path with
    | none => exact ⟨Since.refl memory, dated⟩
    | some canonical => exact put_since dated _ rfl
  | remove path =>
    simp only [edit, remove]
    cases Logical.normalize path with
    | none => exact ⟨Since.refl memory, dated⟩
    | some canonical =>
      simp only [tick, landRemoval]
      split
      · exact tick_since dated
      · exact put_since dated _ rfl

/-- So do many changes, one after the other. -/
theorem editAll_since (dated : memory.Dated) (edits : List Edit) :
    Since memory (memory.editAll edits) ∧ (memory.editAll edits).Dated := by
  induction edits generalizing memory with
  | nil => exact ⟨Since.refl memory, dated⟩
  | cons change edits inductionHypothesis =>
    obtain ⟨next, dated⟩ := edit_since dated change
    obtain ⟨rest, settled⟩ := inductionHypothesis dated
    exact ⟨next.trans rest, settled⟩

/-- A project that was made by changes from the beginning is in order. -/
theorem editAll_dated (edits : List Edit) : (editAll {} edits).Dated :=
  (@editAll_since {} (fun _ => Nat.le_refl 0) edits).2

/-- A path is as it was when a token was issued for it, unless the token reports a change. -/
theorem file?_of_unchanged (since : Since earlier later) (dated : earlier.Dated)
    (normal : Logical.normalize path = some canonical)
    (quiet : later.changed (earlier.token path) = false) :
    later.file? canonical = earlier.file? canonical := by
  simp only [token, normal, changed, bne_eq_false_iff_eq] at quiet
  rcases since.files canonical with same | ahead
  · exact same
  · have known := dated canonical
    omega

/-- It was so all the time in between. -/
theorem file?_between (first : Since earlier between) (second : Since between later)
    (dated : earlier.Dated) (same : later.file? path = earlier.file? path) :
    between.file? path = earlier.file? path := by
  have known := dated path
  have generation := generation_congr same
  rcases first.files path with unchanged | ahead
  · exact unchanged
  · rcases second.files path with kept | further
    · have held := generation_congr kept
      omega
    · have clock := first.clock
      omega

/-- What there is to see at paths that have the same records. -/
def Agree (paths : List Text) (earlier later : Memory) : Prop :=
  ∀ path ∈ paths, ∀ canonical, Logical.normalize path = some canonical →
    later.file? canonical = earlier.file? canonical

/-- Paths whose tokens report no change are as they were when the tokens were issued. -/
theorem agree_of_quiet {paths : List Text} (since : Since earlier later) (dated : earlier.Dated)
    (quiet : (paths.map earlier.token).any later.changed = false) : Agree paths earlier later := by
  intro path member canonical normal
  have own : later.changed (earlier.token path) = false := by
    rw [List.any_eq_false] at quiet
    simpa using quiet (earlier.token path) (List.mem_map_of_mem member)
  exact file?_of_unchanged since dated normal own

/-- They get the same tokens. -/
theorem token_congr {paths : List Text} (agree : Agree paths earlier later) {path : Text}
    (member : path ∈ paths) : later.token path = earlier.token path := by
  unfold token
  cases normal : Logical.normalize path with
  | none => rfl
  | some canonical => simp only [generation_congr (agree path member canonical normal)]

/-- An item is found at a path if it exists, or if it would if there were something. -/
theorem item_some (memory : Memory) (normal : Logical.normalize path = some canonical) :
    memory.item path = { path := canonical, present := (memory.content? canonical).isSome } := by
  unfold item
  rw [normal]

/-- A path that leaves the root has an item that is not there, under its own spelling. -/
theorem item_none (memory : Memory) (outside : Logical.normalize path = none) :
    memory.item path = { path, present := false } := by
  unfold item
  rw [outside]

end ViewCompiler.Memory
