import ViewCompiler.Proofs.Disk.Edits
import ViewCompiler.Proofs.Path.Downward

/-!
# What a path names

Following a path is following its beginning and then the rest. Names are followed down to
whatever stands at their place, since a directory stands above everything. So the file of a
path below a root depends on the root only through the directory that the root names, and a
root that is spelled without climbing names the place that it spells.
-/

namespace ViewCompiler.Disk

open Text Physical

variable {disk : Disk} {inward names : List Text} {path root : Text} {place : Place}

/-- Where a piece leads from a place, if it leads anywhere. -/
theorem walk_cons {disk : Disk} {inward pieces reached : List Text} {piece : Text}
    (led : disk.walk inward (piece :: pieces) = some reached) :
    disk.walk (if isIdle piece then inward
      else if piece = ['.', '.'] then inward.tail else piece :: inward) pieces = some reached := by
  rw [walk] at led
  split at led
  · split at led
    · rw [if_pos ‹_›]
      exact led
    · rw [if_neg ‹_›]
      split at led
      · rw [if_pos ‹_›]
        exact led
      · rw [if_neg ‹_›]
        split at led
        · exact led
        · cases led
  · cases led

/-- A path leads to the same place on every disk on which it leads anywhere. -/
theorem walk_same {one other : Disk} {inward pieces first second : List Text}
    (led : one.walk inward pieces = some first) (also : other.walk inward pieces = some second) :
    first = second := by
  induction pieces generalizing inward with
  | nil => exact Option.some.inj (led.symm.trans also)
  | cons piece pieces inductionHypothesis =>
    exact inductionHypothesis (walk_cons led) (walk_cons also)

/-- If two disks have something at a path, they have it at the same place. -/
theorem named?_same {one other : Disk} {cwd path : Text} {node further : Node}
    (named : one.named? cwd path = some node) (also : other.named? cwd path = some further) :
    ∃ place, one.node? place = some node ∧ other.node? place = some further := by
  obtain ⟨place, resolves, stands⟩ := Option.bind_eq_some_iff.mp named
  obtain ⟨elsewhere, leads, here⟩ := Option.bind_eq_some_iff.mp also
  unfold resolve? at resolves leads
  by_cases empty : path = []
  · rw [if_pos empty] at resolves
    cases resolves
  · rw [if_neg empty] at resolves leads
    obtain ⟨first, led, rfl⟩ := Option.map_eq_some_iff.mp resolves
    obtain ⟨second, reached, rfl⟩ := Option.map_eq_some_iff.mp leads
    obtain rfl := walk_same led reached
    exact ⟨first.reverse, stands, here⟩

/-- A path is followed in parts. -/
theorem walk_append (disk : Disk) (inward front rest : List Text) :
    disk.walk inward (front ++ rest) = (disk.walk inward front).bind (disk.walk · rest) := by
  fun_induction disk.walk inward front with
  | case1 inward => rfl
  | case2 inward piece front directory idle inductionHypothesis =>
    rw [List.cons_append, walk, if_pos directory, if_pos idle, inductionHypothesis]
  | case3 inward front directory idle inductionHypothesis =>
    rw [List.cons_append, walk, if_pos directory, if_neg idle, if_pos rfl, inductionHypothesis]
  | case4 inward piece front directory idle down stands inductionHypothesis =>
    rw [List.cons_append, walk, if_pos directory, if_neg idle, if_neg down, if_pos stands,
      inductionHypothesis]
  | case5 inward piece front directory idle down missing =>
    rw [List.cons_append, walk, if_pos directory, if_neg idle, if_neg down, if_neg missing]
    rfl
  | case6 inward piece front missing =>
    rw [List.cons_append, walk, if_neg missing]
    rfl

/-- Everything above what stands somewhere is a directory. -/
theorem Rooted.above (rooted : disk.Rooted) {below : Place} (nonempty : below ≠ [])
    (stands : (disk.node? (place ++ below)).isSome) : disk.node? place = some .directory := by
  induction below using List.reverseRecOn with
  | nil => exact absurd rfl nonempty
  | append_singleton below name inductionHypothesis =>
    rw [← List.append_assoc] at stands
    have parent := rooted _ _ stands
    by_cases further : below = []
    · rwa [further, List.append_nil] at parent
    · apply inductionHypothesis further
      rw [parent]
      rfl

/-- What stands above a directory is a directory. -/
theorem Rooted.holdsDirectory_above (rooted : disk.Rooted) {below : Place}
    (directory : disk.holdsDirectory (place ++ below) = true) :
    disk.holdsDirectory place = true := by
  by_cases nonempty : below = []
  · rwa [nonempty, List.append_nil] at directory
  · have stands : (disk.node? (place ++ below)).isSome = true := by
      rw [of_decide_eq_true directory]
      rfl
    rw [holdsDirectory, rooted.above nonempty stands, decide_eq_true rfl]

/-- Names are followed down to what stands at their place. -/
theorem walk_names (rooted : disk.Rooted) (nonempty : names ≠ [])
    (named : ∀ name ∈ names, IsName name) :
    disk.walk inward names =
      if (disk.node? (inward.reverse ++ names)).isSome then some (names.reverse ++ inward)
      else none := by
  induction names generalizing inward with
  | nil => exact absurd rfl nonempty
  | cons name names inductionHypothesis =>
    obtain ⟨own, further⟩ := List.forall_mem_cons.mp named
    have idle : ¬ isIdle name = true := by rw [own.idle]; exact Bool.false_ne_true
    have here : inward.reverse ++ name :: names = (name :: inward).reverse ++ names := by simp
    rw [walk, if_neg idle, if_neg own.2.2.1, here]
    by_cases stands : (disk.node? ((name :: inward).reverse ++ names)).isSome = true
    · have first : (disk.node? (name :: inward).reverse).isSome = true := by
        by_cases last : names = []
        · rwa [last, List.append_nil] at stands
        · rw [rooted.above last stands]
          rfl
      have parent : disk.holdsDirectory inward.reverse = true := by
        rw [List.reverse_cons] at first
        rw [holdsDirectory, rooted _ _ first, decide_eq_true rfl]
      rw [if_pos parent, if_pos first, if_pos stands]
      by_cases last : names = []
      · simp [last, walk]
      · rw [inductionHypothesis last further, if_pos stands]
        simp
    · rw [if_neg stands]
      split
      · split
        · rename_i first
          by_cases last : names = []
          · rw [last, List.append_nil] at stands
            exact absurd first stands
          · rw [inductionHypothesis last further, if_neg stands]
        · rfl
      · rfl

/-- The directory that an absolute path names. -/
def directory? (disk : Disk) (path : Text) : Option Place :=
  (disk.resolve? ['/'] path).filter disk.holdsDirectory

/-- An absolute path is followed from the root of the file system. -/
theorem resolve?_absolute (absolute : isAbsolute path = true) :
    disk.resolve? ['/'] path = (disk.walk [] (rawPieces path)).map List.reverse := by
  obtain ⟨rest, rfl⟩ := isAbsolute_iff.mp absolute
  have joined : join ['/'] ('/' :: rest) = '/' :: rest := if_pos absolute
  rw [resolve?, if_neg (List.cons_ne_nil _ _), joined]

/-- The content at a path is that of the file at the place that the path leads to. -/
theorem content?_eq_file? (disk : Disk) (path : Text) :
    disk.content? ['/'] path = (disk.resolve? ['/'] path).bind disk.file? := by
  unfold content? named? file?
  cases disk.resolve? ['/'] path with
  | none => rfl
  | some place => rfl

/-- A piece between slashes is only followed from a directory. -/
theorem walk_outside (missing : ¬ disk.holdsDirectory inward.reverse = true) {pieces : List Text}
    (nonempty : pieces ≠ []) : disk.walk inward pieces = none := by
  cases pieces with
  | nil => exact absurd rfl nonempty
  | cons piece pieces => rw [walk, if_neg missing]

/-- The place that names lead to from another one, if something is there. -/
theorem walk_joined (rooted : disk.Rooted) (named : ∀ name ∈ names, IsName name) :
    (disk.walk inward (rawPieces (joined ['/'] names))).map List.reverse =
      if disk.holdsDirectory inward.reverse ∧ (disk.node? (inward.reverse ++ names)).isSome then
        some (inward.reverse ++ names)
      else none := by
  by_cases directory : disk.holdsDirectory inward.reverse = true
  · by_cases nonempty : names = []
    · subst nonempty
      have rests : disk.walk inward (rawPieces []) = some inward := by
        simp [rawPieces, pieces, walk, directory, isIdle]
      have stands : disk.node? inward.reverse = some .directory := of_decide_eq_true directory
      rw [joined, rests, List.append_nil, if_pos ⟨directory, by rw [stands]; rfl⟩]
      rfl
    · rw [rawPieces_joined nonempty named, walk_names rooted nonempty named]
      by_cases stands : (disk.node? (inward.reverse ++ names)).isSome = true
      · rw [if_pos stands, if_pos ⟨directory, stands⟩]
        simp
      · rw [if_neg stands, if_neg fun both => stands both.2]
        rfl
  · have further : rawPieces (joined ['/'] names) ≠ [] := pieces_ne_nil _ _
    rw [if_neg fun both => directory both.1, walk_outside directory further]
    rfl

/-- A path below an absolute root is cut into what the root spells and what the path spells. A
slash that the root ends in is not spelled twice. -/
theorem rawPieces_join (root : Text) (named : ∀ name ∈ names, IsName name) (nonempty : root ≠ []) :
    ∃ front, rawPieces (join root (joined ['/'] names)) = front ++ rawPieces (joined ['/'] names) ∧
      (rawPieces root = front ∨ rawPieces root = front ++ [[]]) := by
  have relative : ¬ isAbsolute (joined ['/'] names) = true := by
    intro absolute
    obtain ⟨rest, begins⟩ := isAbsolute_iff.mp absolute
    by_cases empty : names = []
    · subst empty
      cases begins
    · have spelled := rawPieces_joined empty named
      have first : [] ∈ names := by
        rw [← spelled, begins]
        simp [rawPieces, pieces]
      exact (named [] first).1 rfl
  rw [join, if_neg relative]
  by_cases slash : endsWith ['/'] root = true
  · rw [if_pos (.inr slash)]
    obtain ⟨front, shape⟩ := Option.isSome_iff_exists.mp slash
    obtain rfl := beforeTail?_eq_some_iff.mp shape
    refine ⟨rawPieces front, ?_, .inr ?_⟩
    · rw [List.append_assoc, List.singleton_append]
      exact pieces_mark front _ rfl
    · exact pieces_mark front [] rfl
  · rw [if_neg (not_or.mpr ⟨nonempty, slash⟩)]
    exact ⟨rawPieces root, pieces_mark root _ rfl, .inl rfl⟩

/-- Whatever is joined to an absolute path, the result is absolute. -/
theorem isAbsolute_join (absolute : isAbsolute root = true) (path : Text) :
    isAbsolute (join root path) = true := by
  obtain ⟨rest, rfl⟩ := isAbsolute_iff.mp absolute
  unfold join
  split
  · assumption
  · split <;> exact isAbsolute_iff.mpr ⟨_, rfl⟩

/-- The one spelling of a path is absolute. -/
theorem isAbsolute_canonical (disk : Disk) {cwd : Text} (absolute : isAbsolute cwd = true)
    (path : Text) : isAbsolute (disk.canonical cwd path) = true := by
  unfold canonical
  split
  · exact isAbsolute_iff.mpr ⟨_, rfl⟩
  · exact isAbsolute_join absolute path

/-- A slash at the end makes no difference to the directory that is named. -/
theorem walk_slash (disk : Disk) (inward front : List Text) :
    ((disk.walk inward (front ++ [[]])).map List.reverse).filter disk.holdsDirectory =
      ((disk.walk inward front).map List.reverse).filter disk.holdsDirectory := by
  rw [walk_append]
  cases disk.walk inward front with
  | none => rfl
  | some reached =>
    by_cases directory : disk.holdsDirectory reached.reverse = true
    · simp [walk, directory, isIdle]
    · simp [walk, directory, Option.filter_some]

/-- The place that a path names below an absolute root, if something is there. -/
theorem resolve?_below (rooted : disk.Rooted) (absolute : isAbsolute root = true)
    (named : ∀ name ∈ names, IsName name) :
    disk.resolve? ['/'] (join root (joined ['/'] names)) =
      (disk.directory? root).bind fun place =>
        if (disk.node? (place ++ names)).isSome then some (place ++ names) else none := by
  have nonempty : root ≠ [] := by
    rintro rfl
    cases absolute
  obtain ⟨front, spelled, spelling⟩ := rawPieces_join root named nonempty
  have directory : disk.directory? root =
      ((disk.walk [] front).map List.reverse).filter disk.holdsDirectory := by
    rw [directory?, resolve?_absolute absolute]
    rcases spelling with same | slash
    · rw [same]
    · rw [slash, walk_slash]
  rw [resolve?_absolute (isAbsolute_join absolute _), spelled, walk_append, directory]
  cases disk.walk [] front with
  | none => rfl
  | some reached =>
    rw [Option.bind_some, walk_joined rooted named]
    by_cases directory : disk.holdsDirectory reached.reverse = true
    · simp [directory, Option.filter_some]
    · simp [directory, Option.filter_some]

/-- The file of a path below a root depends on the root only through the directory that it
names. -/
theorem content?_below (rooted : disk.Rooted) (absolute : isAbsolute root = true)
    (named : ∀ name ∈ names, IsName name) :
    disk.content? ['/'] (join root (joined ['/'] names)) =
      (disk.directory? root).bind fun place => disk.file? (place ++ names) := by
  rw [content?_eq_file?, resolve?_below rooted absolute named, Option.bind_assoc]
  congr 1
  funext place
  cases stands : disk.node? (place ++ names) with
  | none => simp [file?, stands]
  | some node => rfl

/-- Pieces that do not climb lead to the place that they spell, if a directory is there. -/
theorem walk_plain (rooted : disk.Rooted) {pieces : List Text} (plain : ['.', '.'] ∉ pieces) :
    ((disk.walk inward pieces).map List.reverse).filter disk.holdsDirectory =
      if disk.holdsDirectory (inward.reverse ++ pieces.filter fun piece => !isIdle piece) then
        some (inward.reverse ++ pieces.filter fun piece => !isIdle piece)
      else none := by
  induction pieces generalizing inward with
  | nil => simp [walk, Option.filter_some]
  | cons piece pieces inductionHypothesis =>
    have further : ['.', '.'] ∉ pieces := fun member => plain (List.mem_cons_of_mem _ member)
    have down : piece ≠ ['.', '.'] := fun climbs => plain (climbs ▸ List.mem_cons_self)
    by_cases directory : disk.holdsDirectory inward.reverse = true
    · rw [walk, if_pos directory]
      by_cases idle : isIdle piece = true
      · rw [if_pos idle, inductionHypothesis further]
        simp [idle]
      · have kept : (piece :: pieces).filter (fun piece => !isIdle piece) =
            piece :: pieces.filter fun piece => !isIdle piece := by simp [idle]
        have spelled (rest : List Text) :
            inward.reverse ++ piece :: rest = (piece :: inward).reverse ++ rest := by simp
        rw [if_neg idle, if_neg down, kept, spelled]
        by_cases stands : (disk.node? (piece :: inward).reverse).isSome = true
        · rw [if_pos stands, inductionHypothesis further]
        · rw [if_neg stands, if_neg]
          · rfl
          · intro below
            rw [of_decide_eq_true (rooted.holdsDirectory_above below)] at stands
            exact stands rfl
    · rw [walk, if_neg directory, if_neg fun below => directory (rooted.holdsDirectory_above below)]
      rfl

/-- An absolute path that does not climb names the directory that it spells. -/
theorem directory?_plain (rooted : disk.Rooted) (absolute : isAbsolute root = true)
    (plain : ['.', '.'] ∉ rawPieces root) :
    disk.directory? root =
      if disk.holdsDirectory (namesIn root) then some (namesIn root) else none := by
  rw [directory?, resolve?_absolute absolute, walk_plain rooted plain]
  rfl

/-- So a file below such a root is a file below the place that the root spells. -/
theorem content?_plain (rooted : disk.Rooted) (absolute : isAbsolute root = true)
    (plain : ['.', '.'] ∉ rawPieces root) (nonempty : names ≠ [])
    (named : ∀ name ∈ names, IsName name) :
    disk.content? ['/'] (join root (joined ['/'] names)) = disk.file? (namesIn root ++ names) := by
  rw [content?_below rooted absolute named, directory?_plain rooted absolute plain]
  by_cases directory : disk.holdsDirectory (namesIn root) = true
  · rw [if_pos directory]
    rfl
  · rw [if_neg directory, Option.bind_none]
    cases stands : disk.node? (namesIn root ++ names) with
    | none => simp [file?, stands]
    | some node =>
      rw [holdsDirectory, rooted.above nonempty (by rw [stands]; rfl)] at directory
      exact absurd (decide_eq_true rfl) directory

/-- No file stands where a directory is named. -/
theorem content?_root (rooted : disk.Rooted) (absolute : isAbsolute root = true) :
    disk.content? ['/'] (join root []) = none := by
  have below := content?_below rooted absolute (List.forall_mem_nil IsName)
  rw [joined] at below
  rw [below]
  cases named : disk.directory? root with
  | none => rfl
  | some place =>
    have directory : disk.holdsDirectory place = true := (Option.filter_eq_some_iff.mp named).2
    rw [Option.bind_some, List.append_nil, file?, of_decide_eq_true directory]

/-- Pieces that do not climb lead to the place that they spell, if they lead anywhere. -/
theorem walk_reached {pieces reached : List Text} (led : disk.walk inward pieces = some reached)
    (plain : ['.', '.'] ∉ pieces) :
    reached.reverse = inward.reverse ++ pieces.filter fun piece => !isIdle piece := by
  induction pieces generalizing inward with
  | nil =>
    obtain rfl := Option.some.inj led
    simp
  | cons piece pieces inductionHypothesis =>
    have further : ['.', '.'] ∉ pieces := fun member => plain (List.mem_cons_of_mem _ member)
    have down : piece ≠ ['.', '.'] := fun climbs => plain (climbs ▸ List.mem_cons_self)
    rw [inductionHypothesis (walk_cons led) further, if_neg down]
    by_cases idle : isIdle piece = true
    · simp [idle]
    · simp [idle]

/-- The names that a path spells are names of entries, unless it climbs. -/
theorem mem_namesIn {name : Text} (member : name ∈ namesIn path)
    (plain : ['.', '.'] ∉ rawPieces path) :
    IsName name := by
  obtain ⟨among, kept⟩ := List.mem_filter.mp member
  have solid : ¬ (name = [] ∨ name = ['.']) := by
    intro idle
    rw [isIdle_iff.mpr idle] at kept
    cases kept
  obtain ⟨nonempty, notDot⟩ := not_or.mp solid
  exact ⟨nonempty, notDot, fun climbs => plain (climbs ▸ among), slash_not_mem_rawPieces among⟩

/-- The path of a place spells the names of the place. -/
theorem pathOf_spells (named : ∀ name ∈ place, IsName name) :
    namesIn (pathOf place) = place ∧ ['.', '.'] ∉ rawPieces (pathOf place) := by
  have cut : rawPieces (pathOf place) = [] :: rawPieces (joined ['/'] place) := rawPieces_slash _
  obtain ⟨spelled, plain⟩ := filterMap_step? (components_joined named)
  refine ⟨?_, ?_⟩
  · rw [namesIn, cut]
    exact spelled
  · rw [cut, List.mem_cons]
    rintro (empty | later)
    · cases empty
    · exact plain later

/-- The one spelling of a path that does not climb spells the same names. -/
theorem canonical_plain (disk : Disk) {cwd : Text}
    (plain : ['.', '.'] ∉ rawPieces (join cwd path)) :
    namesIn (disk.canonical cwd path) = namesIn (join cwd path) ∧
      ['.', '.'] ∉ rawPieces (disk.canonical cwd path) := by
  unfold canonical
  cases resolves : disk.resolve? cwd path with
  | none => exact ⟨rfl, plain⟩
  | some place =>
    have spelled : place = namesIn (join cwd path) := by
      unfold resolve? at resolves
      split at resolves
      · cases resolves
      · obtain ⟨reached, led, rfl⟩ := Option.map_eq_some_iff.mp resolves
        exact walk_reached led plain
    have named : ∀ name ∈ place, IsName name := by
      intro name member
      rw [spelled] at member
      exact mem_namesIn member plain
    obtain ⟨same, down⟩ := pathOf_spells named
    exact ⟨same.trans spelled, down⟩

/-- So it names the same directory on every disk, whatever the disk was on which it was spelled. -/
theorem directory?_canonical {earlier : Disk} {cwd : Text} (rooted : disk.Rooted)
    (absolute : isAbsolute cwd = true) (plain : ['.', '.'] ∉ rawPieces (join cwd path)) :
    disk.directory? (earlier.canonical cwd path) = disk.directory? (join cwd path) := by
  have joined : isAbsolute (join cwd path) = true := isAbsolute_join absolute path
  obtain ⟨same, down⟩ := earlier.canonical_plain plain
  rw [directory?_plain rooted (earlier.isAbsolute_canonical absolute path) down,
    directory?_plain rooted joined plain, same]

end ViewCompiler.Disk
