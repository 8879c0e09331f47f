import ViewCompiler.Proofs.Directory.Contained
import ViewCompiler.Proofs.Text.Ordering

/-!
# What is found below a directory

Enumerating a logical path walks the tree below its physical path and names every file that it
meets logically again. What comes out are the files at the places below that of the path: the names
that lead there from the root, put together as a logical path, in order and each once. A file is
passed over if one of the names from the base on is hidden, or if its own name has another extension.
-/

namespace ViewCompiler

open Text

/-- Every name on the way to an entry is one that a file system allows. -/
def Disk.Named (disk : Disk) : Prop :=
  ∀ place, (disk.node? place).isSome → ∀ name ∈ place, Physical.IsName name

namespace Disk

variable {disk : Disk} {place other : Place}

/-- Something that stands at a place has an entry, unless it is the root directory. -/
theorem mem_entries (stands : (disk.node? place).isSome) :
    place = [] ∨ place ∈ disk.entries.map (·.1) := by
  unfold node? at stands
  split at stands
  · exact .inl ‹_›
  · obtain ⟨node, found⟩ := Option.isSome_iff_exists.mp stands
    exact .inr (List.mem_map.mpr ⟨(place, node), Table.mem_of_find? found, rfl⟩)

/-- It is enough to look at the entries. -/
theorem Named.of_entries
    (named : ∀ place ∈ disk.entries.map (·.1), ∀ name ∈ place, Physical.IsName name) :
    disk.Named := by
  intro place stands name member
  rcases mem_entries stands with rfl | among
  · cases member
  · exact named place among name member

/-- A place has octets if a file with these octets stands there, whenever it was modified. -/
theorem file?_eq_some_iff {content : Octets} :
    disk.file? place = some content ↔ ∃ modified, disk.node? place = some (.file content modified) := by
  unfold file?
  cases disk.node? place with
  | none => simp
  | some node => cases node <;> simp

/-- Where a file is, something stands. -/
theorem stands_of_file (file : (disk.file? place).isSome) : (disk.node? place).isSome := by
  obtain ⟨content, held⟩ := Option.isSome_iff_exists.mp file
  obtain ⟨modified, node⟩ := file?_eq_some_iff.mp held
  exact Option.isSome_of_eq_some node

/-- A tree has every file below its place, and the file at the place itself. -/
theorem mem_tree_of_file (stands : (disk.file? other).isSome) :
    other ∈ disk.tree place ↔ place <+: other := by
  have some : (disk.node? other).isSome := stands_of_file stands
  have proper : other ≠ [] := by
    rintro rfl
    cases stands
  have entered : other ∈ disk.entries.map (·.1) := (mem_entries some).resolve_left proper
  rw [tree, List.mem_append, List.mem_filter]
  constructor
  · rintro (own | ⟨-, below⟩)
    · split at own
      · rw [List.mem_singleton.mp own]
      · cases own
    · exact List.isPrefixOf_iff_prefix.mp (Bool.and_eq_true_iff.mp below).1
  · intro below
    by_cases own : other = place
    · subst own
      exact .inl (by rw [if_pos some]; exact List.mem_singleton_self _)
    · refine .inr ⟨entered, ?_⟩
      simpa [own] using below

/-- What stands at a place is reached by allowed names. -/
theorem Named.inside (named : disk.Named) {inner : List Text}
    (file : (disk.file? (place ++ inner)).isSome) : ∀ name ∈ inner, Physical.IsName name :=
  fun name member => named _ (stands_of_file file) name (List.mem_append_right place member)

/-- No file is a directory, so a file below a root has a name of its own there. -/
theorem nonempty_of_file {root : Text} {inner : List Text} (found : disk.directory? root = some place)
    (file : (disk.file? (place ++ inner)).isSome) : inner ≠ [] := by
  rintro rfl
  have directory : disk.node? place = some .directory := by
    simpa [holdsDirectory] using (Option.filter_eq_some_iff.mp found).2
  rw [List.append_nil, file?, directory] at file
  cases file

/-- Something stands at every place above that of a file. -/
theorem Rooted.stands_above (rooted : disk.Rooted) {inner : List Text}
    (file : (disk.file? (place ++ inner)).isSome) : (disk.node? place).isSome := by
  by_cases own : inner = []
  · rw [own, List.append_nil] at file
    exact stands_of_file file
  · exact Option.isSome_of_eq_some (rooted.above own (stands_of_file file))

end Disk

namespace Physical

variable {root path other : Text} {names : List Text}

/-- A path that is extended name by name goes down by these names. -/
theorem components_foldl (absolute : isAbsolute path = true)
    (named : ∀ name ∈ names, IsName name) :
    components (names.foldl join path) = components path ++ names.map .name := by
  induction names generalizing path with
  | nil => simp
  | cons name names inductionHypothesis =>
    obtain ⟨own, further⟩ := List.forall_mem_cons.mp named
    have one : components (join path (joined ['/'] [name])) = components path ++ [name].map .name :=
      components_join absolute (by simpa using own)
    rw [joined] at one
    rw [List.foldl_cons, inductionHypothesis (Disk.isAbsolute_join absolute name) further, one]
    simp

/-- Below a root, a logical path has the extension of the physical path. -/
theorem extension?_below (steps : components path = components root ++ names.map .name)
    (nonempty : names ≠ []) (named : ∀ name ∈ names, IsName name) :
    extension? path = extension? (Logical.ofSegments names) := by
  have own : components (Logical.ofSegments names) = .root :: names.map .name := by
    rw [Logical.ofSegments, components_slash, components_joined named]
  have last : (components path).getLast? = (components (Logical.ofSegments names)).getLast? := by
    rw [steps, own, List.getLast?_append_of_ne_nil _ (by simpa using nonempty),
      List.getLast?_cons_of_ne_nil (by simpa using nonempty)]
  rw [extension?, extension?, fileName?, fileName?, last]

end Physical

namespace Directory

open Logical

variable {directory : Directory} {base path extension : Text} {outer : List Text}

/-- The files that are met below a place: those to which no hidden name leads from there. -/
theorem mem_visibleFiles {disk : Disk} {place other : Place} :
    other ∈ visibleFiles disk place ↔ ∃ inner, other = place ++ inner ∧
      (disk.file? other).isSome ∧ ∀ name ∈ inner, isHidden name = false := by
  have kept : other ∈ visibleFiles disk place ↔ other ∈ disk.tree place ∧
      (!(other.drop place.length).any isHidden && (disk.file? other).isSome) = true := by
    rw [visibleFiles, List.mem_filter]
    unfold Disk.file?
    cases disk.node? other with
    | none => rfl
    | some node => cases node <;> rfl
  rw [kept, Bool.and_eq_true_iff]
  constructor
  · rintro ⟨among, visible, stands⟩
    obtain ⟨inner, rfl⟩ := (Disk.mem_tree_of_file stands).mp among
    refine ⟨inner, rfl, stands, ?_⟩
    simpa using visible
  · rintro ⟨inner, rfl, stands, visible⟩
    exact ⟨(Disk.mem_tree_of_file stands).mpr (List.prefix_append place inner),
      by simpa using visible, stands⟩

/-- No file is met twice on a walk. -/
theorem visibleFiles_nodup {disk : Disk} (distinct : disk.Distinct) (place : Place) :
    (visibleFiles disk place).Nodup := by
  apply List.Nodup.filter
  rw [Disk.tree, List.nodup_append]
  refine ⟨?_, List.Nodup.filter _ distinct, ?_⟩
  · split
    · exact List.pairwise_singleton _ place
    · exact List.nodup_nil
  · intro own member other below
    obtain rfl : own = place := by
      split at member
      · exact List.mem_singleton.mp member
      · cases member
    rintro rfl
    simp at below

/-- What a file below is called is told by the names that lead to it, however its physical path is
spelled. -/
theorem called_below {root : Text} {inner : List Text} (absolute : Physical.isAbsolute root = true)
    (outside : ∀ name ∈ outer, Physical.IsName name) (inside : ∀ name ∈ inner, Physical.IsName name)
    (nonempty : outer ++ inner ≠ []) :
    let physical := inner.foldl Physical.join (Physical.join root (joined ['/'] outer))
    Physical.toLogical root physical = some (ofSegments (outer ++ inner)) ∧
      Physical.extension? physical = Physical.extension? (ofSegments (outer ++ inner)) := by
  intro physical
  have named : ∀ name ∈ outer ++ inner, Physical.IsName name :=
    fun name member => (List.mem_append.mp member).elim (outside name) (inside name)
  have steps : Physical.components physical =
      Physical.components root ++ (outer ++ inner).map .name := by
    rw [Physical.components_foldl (Disk.isAbsolute_join absolute _) inside,
      Physical.components_join absolute outside]
    simp
  refine ⟨?_, Physical.extension?_below steps nonempty named⟩
  rw [← Physical.toLogical_join absolute named]
  exact Physical.toLogical_congr (steps.trans (Physical.components_join absolute named).symm) root

/-- What is found below a path are the paths of the files that are met below its place and have the
extension, in order. -/
theorem enumerate_eq (rooted : directory.disk.Rooted) (named : directory.disk.Named)
    (absolute : Physical.isAbsolute directory.root = true)
    (outside : ∀ name ∈ outer, Physical.IsName name)
    (normal : normalize base = some (ofSegments outer)) :
    (directory.enumerate base extension).map (·.path) =
      sort ((directory.disk.directory? directory.root).toList.flatMap fun place =>
        ((visibleFiles directory.disk (place ++ outer)).map fun other =>
          ofSegments (other.drop place.length)).filter (Physical.extension? · = some extension)) := by
  have start : directory.physicalOf (ofSegments outer) =
      Physical.join directory.root (joined ['/'] outer) := by
    rw [physicalOf, dropWhile_ofSegments outside]
  have resolves : directory.disk.resolve? ['/'] (Physical.join directory.root (joined ['/'] outer)) =
      (directory.disk.directory? directory.root).bind fun place =>
        if (directory.disk.node? (place ++ outer)).isSome then some (place ++ outer) else none :=
    Disk.resolve?_below rooted absolute outside
  unfold enumerate
  rw [normal]
  simp only [start, resolves]
  cases below : directory.disk.directory? directory.root with
  | none => simp [sort]
  | some place =>
    simp only [Option.bind_some, Option.toList_some, List.flatMap_singleton]
    by_cases stands : (directory.disk.node? (place ++ outer)).isSome = true
    · rw [if_pos stands, sort]
      refine (List.map_mergeSort (f := Item.path) (s := atMost) fun _ _ _ _ => rfl).trans
        (congrArg (List.mergeSort · atMost) ?_)
      rw [List.map_filterMap, ← List.filterMap_eq_filter, List.filterMap_map]
      apply List.filterMap_congr
      intro other visible
      obtain ⟨inner, rfl, file, -⟩ := mem_visibleFiles.mp visible
      obtain ⟨logical, extended⟩ := called_below absolute outside (named.inside file)
        (Disk.nonempty_of_file below (List.append_assoc place outer inner ▸ file))
      have reached : ofSegments ((place ++ outer ++ inner).drop place.length) =
          ofSegments (outer ++ inner) := by rw [List.append_assoc, List.drop_left]
      simp only [List.drop_left, logical, extended, Function.comp_apply, reached, Option.guard,
        decide_eq_true_eq]
      split <;> rfl
    · have nothing : visibleFiles directory.disk (place ++ outer) = [] := by
        rw [List.eq_nil_iff_forall_not_mem]
        intro other visible
        obtain ⟨inner, rfl, file, -⟩ := mem_visibleFiles.mp visible
        exact stands (rooted.stands_above file)
      rw [if_neg stands, nothing]
      simp [sort]

/-- What is found below a path are the files below its place, by the names that lead there from
the root. -/
theorem mem_enumerate (rooted : directory.disk.Rooted) (named : directory.disk.Named)
    (absolute : Physical.isAbsolute directory.root = true)
    (outside : ∀ name ∈ outer, Physical.IsName name)
    (normal : normalize base = some (ofSegments outer)) :
    path ∈ (directory.enumerate base extension).map (·.path) ↔
      ∃ place inner, directory.disk.directory? directory.root = some place ∧
        (directory.disk.file? (place ++ outer ++ inner)).isSome ∧
        (∀ name ∈ inner, isHidden name = false) ∧
        path = ofSegments (outer ++ inner) ∧ Physical.extension? path = some extension := by
  rw [enumerate_eq rooted named absolute outside normal, mem_sort]
  simp only [List.mem_flatMap, Option.mem_toList, List.mem_filter, List.mem_map,
    decide_eq_true_eq]
  constructor
  · rintro ⟨place, below, ⟨_, visible, rfl⟩, extended⟩
    obtain ⟨inner, rfl, file, shown⟩ := mem_visibleFiles.mp visible
    refine ⟨place, inner, below, file, shown, ?_, extended⟩
    rw [List.append_assoc, List.drop_left]
  · rintro ⟨place, inner, below, file, shown, rfl, extended⟩
    refine ⟨place, below, ⟨_, mem_visibleFiles.mpr ⟨inner, rfl, file, shown⟩, ?_⟩, extended⟩
    rw [List.append_assoc, List.drop_left]

/-- What is found is in order and found once, if the disk has one entry for each place. -/
theorem enumerate_ordered (rooted : directory.disk.Rooted) (named : directory.disk.Named)
    (distinct : directory.disk.Distinct) (absolute : Physical.isAbsolute directory.root = true)
    (base extension : Text) :
    ((directory.enumerate base extension).map (·.path)).Pairwise Precedes := by
  cases normal : normalize base with
  | none =>
    unfold enumerate
    rw [normal]
    exact .nil
  | some canonical =>
    obtain ⟨outer, rfl, proper⟩ := normalize_names normal
    rw [enumerate_eq rooted named absolute (fun name member => (proper name member).1.physical) normal]
    refine List.Pairwise.and (sort_ordered _) ((List.mergeSort_perm _ _).nodup_iff.mpr ?_)
    cases directory.disk.directory? directory.root with
    | none => exact List.nodup_nil
    | some place =>
      rw [Option.toList_some, List.flatMap_singleton]
      apply List.Nodup.filter
      apply List.Nodup.map_on _ (visibleFiles_nodup distinct _)
      intro one member other also same
      obtain ⟨inner, rfl, file, -⟩ := mem_visibleFiles.mp member
      obtain ⟨further, rfl, stands, -⟩ := mem_visibleFiles.mp also
      simp only [List.append_assoc, List.drop_left] at same file stands ⊢
      rw [ofSegments_injective (named.inside file) (named.inside stands) same]

end Directory

end ViewCompiler
