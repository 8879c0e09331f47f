import Mathlib.Data.List.Infix
import ViewCompiler.Disk
import ViewCompiler.Proofs.Table.Once

/-!
# Changes of a disk

Files are written, touched and removed, trees are removed and directories are made. A change
that a file system refuses, such as writing where a file stands in the place of a directory,
leaves the disk as it is. Each operation is pinned down by what stands at every place
afterwards; from this follow the facts that are used elsewhere. A disk that came about by
changes has a directory above everything that stands somewhere and one entry for each place, and
a change at a place makes no difference to the files elsewhere than at this place and below it.
-/

namespace ViewCompiler

namespace Disk

/-- A change at a place of a disk. -/
inductive Edit
  | write (place : Place) (content : Octets) (modified : Nat)
  | touch (place : Place) (modified : Nat)
  /-- Removes a file or a tree. -/
  | remove (place : Place)
  | makeDirectory (place : Place)
deriving DecidableEq, Repr

/-- Where a change is made. -/
def Edit.place : Edit → Place
  | .write place _ _ | .touch place _ | .remove place | .makeDirectory place => place

/-- The octets of the regular file at a place. -/
def file? (disk : Disk) (place : Place) : Option Octets :=
  match disk.node? place with
  | some (.file content _) => some content
  | _ => none

/-- Whether no file stands at a place or above it, so that there can be a directory. -/
def isClear (disk : Disk) (place : Place) : Bool :=
  place.inits.all fun above => (disk.file? above).isNone

/-- The disk after a change. What cannot be done is not done. -/
def edit (disk : Disk) : Edit → Disk
  | .write place content modified =>
    if place ≠ [] ∧ disk.isClear place.dropLast ∧ ¬ disk.holdsDirectory place then
      disk.write place content modified
    else disk
  | .touch place modified => disk.touch place modified
  | .remove place => disk.remove place
  | .makeDirectory place => if disk.isClear place then disk.makeDirectory place else disk

/-- The disk after changes, made in order. -/
def editAll (disk : Disk) (changes : List Edit) : Disk := changes.foldl edit disk

/-- Above everything that stands somewhere, there is a directory. -/
def Rooted (disk : Disk) : Prop :=
  ∀ place name, (disk.node? (place ++ [name])).isSome → disk.node? place = some .directory

variable {disk : Disk} {place other : Place} {content : Octets} {modified : Nat}

/-- An entry that is put stands at its place and at no other one. None can be put at the root. -/
theorem node?_put (disk : Disk) (place : Place) (node : Node) (other : Place) :
    (disk.put place node).node? other =
      if other = place ∧ place ≠ [] then some node else disk.node? other := by
  unfold put
  by_cases top : place = []
  · simp [top]
  · by_cases same : other = place
    · simp [same, top, node?]
    · simp [same, top, node?, Table.find?_put_of_ne same]

/-- Directories are made where nothing stands, down to the place. -/
theorem node?_makeDirectory (disk : Disk) (place other : Place) :
    (disk.makeDirectory place).node? other =
      if other <+: place then some ((disk.node? other).getD .directory) else disk.node? other := by
  have some_depths (depths : List Nat) (disk : Disk) :
      (depths.foldl (fun made depth =>
        if (made.node? (place.take depth)).isSome then made
        else made.put (place.take depth) .directory) disk).node? other =
      if other ∈ depths.map place.take then some ((disk.node? other).getD .directory)
      else disk.node? other := by
    induction depths generalizing disk with
    | nil => simp
    | cons depth depths inductionHypothesis =>
      simp only [List.foldl_cons, inductionHypothesis, List.map_cons, List.mem_cons]
      by_cases here : other = place.take depth
      · subst here
        cases stands : disk.node? (place.take depth) with
        | some node => simp [stands]
        | none =>
          have below : place.take depth ≠ [] := by
            intro top
            simp [top, node?] at stands
          simp [node?_put, below]
      · by_cases stands : (disk.node? (place.take depth)).isSome
        · simp [stands, here]
        · simp [stands, here, node?_put]
  have above : other ∈ (List.range (place.length + 1)).map place.take ↔ other <+: place := by
    rw [List.prefix_iff_eq_take, List.mem_map]
    constructor
    · rintro ⟨depth, -, rfl⟩
      rw [List.length_take, List.take_eq_take_iff]
      omega
    · intro same
      refine ⟨min other.length place.length, List.mem_range.mpr (by omega), ?_⟩
      rw [same, List.length_take, List.take_eq_take_iff]
      omega
  unfold makeDirectory
  rw [some_depths]
  simp only [above]

/-- A removal takes away a place and all that is below it, but never the root. -/
theorem node?_remove (disk : Disk) (place other : Place) :
    (disk.remove place).node? other =
      if other ≠ [] ∧ place <+: other then none else disk.node? other := by
  unfold node? remove
  by_cases top : other = []
  · simp [top]
  · simp only [top, ↓reduceIte, ne_eq, not_false_iff, true_and]
    rw [Table.find?_filter fun other => !place.isPrefixOf other]
    cases below : place.isPrefixOf other with
    | true => simp [List.isPrefixOf_iff_prefix.mp below]
    | false =>
      have apart : ¬ place <+: other := by
        rw [← List.isPrefixOf_iff_prefix, below]
        exact Bool.false_ne_true
      simp [apart]

/-- A file that is touched keeps its content. Nothing else changes, and what is not a file is not
touched. -/
theorem node?_touch (disk : Disk) (place : Place) (modified : Nat) (other : Place) :
    (disk.touch place modified).node? other =
      if other = place then (disk.file? place).elim (disk.node? place) fun content =>
        some (.file content modified)
      else disk.node? other := by
  unfold touch file?
  cases stands : disk.node? place with
  | none =>
    by_cases same : other = place
    · simp [same, stands]
    · simp [same]
  | some node =>
    cases node with
    | directory =>
      by_cases same : other = place
      · simp [same, stands]
      · simp [same]
    | file content earlier =>
      have below : place ≠ [] := by
        rintro rfl
        simp [node?] at stands
      by_cases same : other = place
      · simp [node?_put, same, below]
      · simp [node?_put, same]

/-- Nothing but a directory stands on the way to a clear place. -/
theorem isClear_iff : disk.isClear place = true ↔ ∀ above, above <+: place →
    (disk.node? above).getD .directory = .directory := by
  simp only [isClear, List.all_eq_true, List.mem_inits, Option.isNone_iff_eq_none]
  apply forall₂_congr
  intro above _
  unfold file?
  cases disk.node? above with
  | none => simp
  | some node => cases node <;> simp

/-- Making a directory at a clear place makes directories of everything on the way, and nothing
else. -/
theorem node?_makeDirectory_of_clear (clear : disk.isClear place = true) (other : Place) :
    (disk.makeDirectory place).node? other =
      if other <+: place then some .directory else disk.node? other := by
  rw [node?_makeDirectory]
  split
  · rename_i above
    rw [isClear_iff.mp clear other above]
  · rfl

/-- On an empty disk nothing is out of place. -/
theorem rooted_empty : Rooted {} := by
  intro place name stands
  simp [node?, Table.find?] at stands

/-- A directory is made with all that are missing above it, where no file is in the way. -/
theorem Rooted.makeDirectory (rooted : disk.Rooted) (clear : disk.isClear place = true) :
    (disk.makeDirectory place).Rooted := by
  intro above name stands
  rw [node?_makeDirectory_of_clear clear] at stands ⊢
  split
  · rfl
  · rename_i outside
    rw [if_neg] at stands
    · exact rooted above name stands
    · intro below
      exact outside ((List.prefix_append above [name]).trans below)

/-- A file is written with the directories above it, where no file is in the way and no directory
stands. -/
theorem Rooted.write (rooted : disk.Rooted) (below : place ≠ [])
    (clear : disk.isClear place.dropLast = true) (free : ¬ disk.holdsDirectory place) :
    (disk.write place content modified).Rooted := by
  have made := rooted.makeDirectory clear
  intro above name stands
  have parent : (disk.makeDirectory place.dropLast).node? above = some .directory := by
    rw [Disk.write, node?_put] at stands
    split at stands
    · rename_i here
      rw [node?_makeDirectory_of_clear clear, if_pos]
      rw [← here.1, List.dropLast_concat]
    · exact made above name stands
  rw [Disk.write, node?_put, if_neg, parent]
  -- Nothing stands below the place itself, for it held no directory.
  rintro ⟨rfl, -⟩
  rw [node?_makeDirectory_of_clear clear, if_neg] at parent
  · apply free
    rw [holdsDirectory, parent, decide_eq_true rfl]
  · intro inside
    have shorter := inside.length_le
    have positive := List.length_pos_iff.mpr below
    rw [List.length_dropLast] at shorter
    omega

/-- Touching a file leaves directories where they are. -/
theorem Rooted.touch (rooted : disk.Rooted) : (disk.touch place modified).Rooted := by
  intro above name stands
  have before : (disk.node? (above ++ [name])).isSome := by
    rw [node?_touch] at stands
    split at stands
    · rename_i here
      rw [here]
      cases own : disk.node? place with
      | none => simp [file?, own] at stands
      | some node => rfl
    · exact stands
  have parent := rooted above name before
  rw [node?_touch]
  split
  · rename_i here
    subst here
    simp [file?, parent]
  · exact parent

/-- A removal leaves nothing behind without a directory above it. -/
theorem Rooted.remove (rooted : disk.Rooted) : (disk.remove place).Rooted := by
  intro above name stands
  rw [node?_remove] at stands ⊢
  split at stands
  · cases stands
  · rename_i kept
    rw [if_neg, rooted above name stands]
    rintro ⟨-, inside⟩
    exact kept ⟨by simp, inside.trans (List.prefix_append above [name])⟩

/-- A change leaves a directory above everything. -/
theorem Rooted.edit (rooted : disk.Rooted) (change : Edit) : (disk.edit change).Rooted := by
  cases change with
  | write place content modified =>
    simp only [Disk.edit]
    split
    · rename_i possible
      exact rooted.write possible.1 possible.2.1 possible.2.2
    · exact rooted
  | touch place modified => exact rooted.touch
  | remove place => exact rooted.remove
  | makeDirectory place =>
    simp only [Disk.edit]
    split
    · rename_i clear
      exact rooted.makeDirectory clear
    · exact rooted

/-- So do many changes. -/
theorem Rooted.editAll (rooted : disk.Rooted) (changes : List Edit) :
    (disk.editAll changes).Rooted :=
  List.foldlRecOn changes Disk.edit rooted fun _ known change _ => known.edit change

/-- No place has two entries. -/
def Distinct (disk : Disk) : Prop := Table.Once disk.entries

/-- An empty disk has no two entries. -/
theorem distinct_empty : Distinct {} := Table.once_nil

/-- An entry that is put replaces the one of its place. -/
theorem Distinct.put (distinct : disk.Distinct) (place : Place) (node : Node) :
    (disk.put place node).Distinct := by
  unfold Disk.put
  split
  · exact distinct
  · exact Table.Once.put distinct place node

/-- Directories that are made stand at places of their own. -/
theorem Distinct.makeDirectory (distinct : disk.Distinct) (place : Place) :
    (disk.makeDirectory place).Distinct := by
  refine List.foldlRecOn (motive := Distinct) _ _ distinct ?_
  intro made known depth _
  simp only
  split
  · exact known
  · exact known.put _ _

/-- No change gives a place two entries. -/
theorem Distinct.edit (distinct : disk.Distinct) (change : Edit) : (disk.edit change).Distinct := by
  cases change with
  | write place content modified =>
    simp only [Disk.edit]
    split
    · exact (distinct.makeDirectory _).put _ _
    · exact distinct
  | touch place modified =>
    simp only [Disk.edit, touch]
    split
    · exact distinct.put _ _
    · exact distinct
  | remove place => exact Table.Once.filter distinct _
  | makeDirectory place =>
    simp only [Disk.edit]
    split
    · exact distinct.makeDirectory _
    · exact distinct

/-- Changes leave one entry for each place. -/
theorem Distinct.editAll (distinct : disk.Distinct) (changes : List Edit) :
    (disk.editAll changes).Distinct :=
  List.foldlRecOn changes Disk.edit distinct fun _ known change _ => known.edit change

/-- Where the same stands, the same file stands. -/
theorem file?_congr {one two : Disk} (same : two.node? other = one.node? other) :
    two.file? other = one.file? other := by
  unfold file?
  rw [same]

/-- Making directories makes no difference to any file. -/
theorem file?_makeDirectory (clear : disk.isClear place = true) :
    (disk.makeDirectory place).file? other = disk.file? other := by
  unfold file?
  rw [node?_makeDirectory_of_clear clear]
  by_cases above : other <+: place
  · have passable := isClear_iff.mp clear other above
    rw [if_pos above]
    cases stands : disk.node? other with
    | none => rfl
    | some node =>
      rw [stands, Option.getD_some] at passable
      rw [passable]
  · rw [if_neg above]

/-- A change makes no difference to files that are neither at its place nor below it. -/
theorem file?_edit (disk : Disk) (change : Edit) (apart : ¬ change.place <+: other) :
    (disk.edit change).file? other = disk.file? other := by
  have differs : other ≠ change.place := by
    rintro rfl
    exact apart (List.prefix_refl _)
  cases change with
  | write place content modified =>
    simp only [Disk.edit]
    split
    · rename_i possible
      rw [← file?_makeDirectory possible.2.1]
      apply file?_congr
      rw [write, node?_put, if_neg fun here => differs here.1]
    · rfl
  | touch place modified =>
    apply file?_congr
    exact (node?_touch disk place modified other).trans (if_neg differs)
  | remove place =>
    apply file?_congr
    exact (node?_remove disk place other).trans (if_neg fun inside => apart inside.2)
  | makeDirectory place =>
    simp only [Disk.edit]
    split
    · rename_i clear
      exact file?_makeDirectory clear
    · rfl

end Disk

end ViewCompiler
