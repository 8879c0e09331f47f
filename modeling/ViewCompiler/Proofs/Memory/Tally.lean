import ViewCompiler.Proofs.Memory.Since

/-!
# Which paths change

A write reaches the path that it names. A removal reaches the path that it names if the
project has a record of it, be it the record of a file that was removed before. Changes that
name no path under the root reach nothing. The paths that were reached since an earlier
state are exactly those whose tokens, issued then, report a change now: no token misses a
change, and none reports one that did not happen.
-/

namespace ViewCompiler.Memory

/-- The canonical path whose record a change replaces, if there is one. -/
def reached? (memory : Memory) : Edit → Option Text
  | .write path _ => Logical.normalize path
  | .remove path => (Logical.normalize path).filter fun canonical => (memory.file? canonical).isSome

/-- The path that a change names. -/
def Edit.path : Edit → Text
  | .write path _ => path
  | .remove path => path

/-- A change lands with the tick that it took. One that names no path under the root does
nothing. -/
def land (memory : Memory) (change : Edit) (tick : Nat) : Memory :=
  match Logical.normalize change.path with
  | none => memory
  | some canonical =>
    match change with
    | .write _ content => memory.landWrite canonical content tick
    | .remove _ => (memory.landRemoval canonical tick).2

variable {earlier later memory : Memory} {changed : List Text} {path : Text}

/-- A change that nothing comes between takes the next tick and lands with it. -/
theorem edit_eq_land {change : Edit} (inside : (Logical.normalize change.path).isSome) :
    memory.edit change = memory.tick.2.land change memory.tick.1 := by
  obtain ⟨canonical, normal⟩ := Option.isSome_iff_exists.mp inside
  cases change with
  | write spelled content =>
    have same : Logical.normalize spelled = some canonical := normal
    simp only [edit, write, land, Edit.path, same]
  | remove spelled =>
    have same : Logical.normalize spelled = some canonical := normal
    simp only [edit, remove, land, Edit.path, same]

/-- A change that names no path under the root is none. -/
theorem edit_outside {change : Edit} (outside : Logical.normalize change.path = none) :
    memory.edit change = memory := by
  cases change with
  | write spelled content =>
    have same : Logical.normalize spelled = none := outside
    simp only [edit, write, same]
  | remove spelled =>
    have same : Logical.normalize spelled = none := outside
    simp only [edit, remove, same]

/-- A change reaches no path but the one that it names. -/
theorem normalize_of_reached {change : Edit} (reached : memory.reached? change = some path) :
    Logical.normalize change.path = some path := by
  cases change with
  | write spelled content => exact reached
  | remove spelled => exact (Option.filter_eq_some_iff.mp reached).1

/-- The path that a change reaches gets the tick of the change for its generation. -/
theorem generation_land_reached {change : Edit} (tick : Nat)
    (reached : memory.reached? change = some path) :
    (memory.land change tick).generation path = tick := by
  have normal := normalize_of_reached reached
  cases change with
  | write spelled content =>
    simp only [land, normal, landWrite, generation, file?, Table.find?_put_self]
  | remove spelled =>
    obtain ⟨file, found⟩ := Option.isSome_iff_exists.mp (Option.filter_eq_some_iff.mp reached).2
    have recorded : memory.files.find? path = some file := found
    simp only [land, normal, landRemoval, generation, file?, recorded, Table.find?_put_self]

/-- Every other path keeps its record. -/
theorem file?_land_unreached {change : Edit} (tick : Nat)
    (unreached : memory.reached? change ≠ some path) :
    (memory.land change tick).file? path = memory.file? path := by
  unfold land
  cases normal : Logical.normalize change.path with
  | none => rfl
  | some canonical =>
    cases change with
    | write spelled content =>
      have differs : path ≠ canonical := by
        rintro rfl
        exact unreached normal
      exact Table.find?_put_of_ne differs _ _
    | remove spelled =>
      simp only [landRemoval]
      cases found : memory.file? canonical with
      | none => rfl
      | some file =>
        have differs : path ≠ canonical := by
          rintro rfl
          apply unreached
          exact Option.filter_eq_some_iff.mpr ⟨normal, Option.isSome_iff_exists.mpr ⟨file, found⟩⟩
        exact Table.find?_put_of_ne differs _ _

/-- If nothing comes between, the tick is the next one. -/
theorem generation_edit_reached {change : Edit} (reached : memory.reached? change = some path) :
    (memory.edit change).generation path = memory.clock + 1 := by
  have inside : (Logical.normalize change.path).isSome := by
    rw [normalize_of_reached reached]
    rfl
  have ticked : memory.tick.2.reached? change = some path := by
    cases change <;> exact reached
  rw [edit_eq_land inside]
  exact generation_land_reached _ ticked

/-- A change leaves the records of all paths but the one that it reaches. -/
theorem file?_edit_unreached {change : Edit} (unreached : memory.reached? change ≠ some path) :
    (memory.edit change).file? path = memory.file? path := by
  cases normal : Logical.normalize change.path with
  | none => rw [edit_outside normal]
  | some canonical =>
    have ticked : memory.tick.2.reached? change ≠ some path := by
      cases change <;> exact unreached
    rw [edit_eq_land (by rw [normal]; rfl)]
    exact file?_land_unreached _ ticked

/-- The paths that were reached between two states are those whose generations differ. -/
structure Tallied (earlier later : Memory) (changed : List Text) : Prop where
  since : earlier.Since later
  exact : ∀ path, later.generation path ≠ earlier.generation path ↔ path ∈ changed

/-- Nothing was reached between a state and itself. -/
theorem Tallied.start (memory : Memory) : memory.Tallied memory [] :=
  ⟨.refl memory, by simp⟩

/-- One more change adds the path that it reaches. -/
theorem Tallied.edit (tallied : earlier.Tallied later changed) (dated : earlier.Dated)
    (settled : later.Dated) (change : Edit) :
    earlier.Tallied (later.edit change) (changed ++ (later.reached? change).toList) := by
  refine ⟨tallied.since.trans (edit_since settled change).1, ?_⟩
  intro path
  rw [List.mem_append, Option.mem_toList]
  by_cases reached : later.reached? change = some path
  · have generation := generation_edit_reached reached
    have known := dated path
    have clock := tallied.since.clock
    constructor
    · intro _
      exact .inr reached
    · intro _
      omega
  · rw [generation_congr (file?_edit_unreached reached), tallied.exact path]
    constructor
    · exact .inl
    · intro either
      exact either.resolve_right reached

/-- A token reports a change exactly if its path was reached since it was issued. -/
theorem Tallied.token_changed_iff (tallied : earlier.Tallied later changed) :
    later.changed (earlier.token path) = true ↔
      ∃ canonical, Logical.normalize path = some canonical ∧ canonical ∈ changed := by
  cases normal : Logical.normalize path with
  | none => simp [token, normal, Memory.changed]
  | some canonical =>
    have differs := tallied.exact canonical
    simpa [token, normal, Memory.changed] using differs

end ViewCompiler.Memory
