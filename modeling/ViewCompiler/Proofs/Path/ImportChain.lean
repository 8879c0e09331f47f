import Mathlib.Data.List.Induction
import Mathlib.Data.List.Nodup
import ViewCompiler.Proofs.Compilation.Sight
import ViewCompiler.Proofs.Path.Downward

/-!
# The chain of imports

The directories of a path are found by trimming slashes at its end and cutting it at the last
slash that is left, again and again. For a canonical path that comes to dropping its last names
one after the other, down to the root, which has none: the walk visits every directory of the path
once, the root last.

The candidates for the imports of a template are therefore the files of one name in all of these
directories from the root down, and they differ from each other. The template itself is passed
over where its own name is looked for. A unit is watched at its template first and then at all of
the candidates, so that each of them is watched once, whatever there is.
-/

namespace ViewCompiler

open Text

namespace Logical

variable {names : List Text} {last file : Text}

/-- The files of one name in the directories of a path of these names, from the root downwards. -/
def importChain (names : List Text) (file : Text) : List Text :=
  (List.range names.length).map fun depth => ofSegments (names.take depth ++ [file])

/-! ## The directory of a path -/

/-- A text that does not end in a slash is left as it is. -/
theorem trimSlashes_append (front : Text) {char : Char} (solid : char ≠ '/') :
    trimSlashes (front ++ [char]) = front ++ [char] := by
  induction front with
  | nil => simp [trimSlashes, solid]
  | cons first front inductionHypothesis =>
    obtain ⟨head, rest, shape⟩ := List.exists_cons_of_ne_nil
      (List.append_ne_nil_of_right_ne_nil front (List.cons_ne_nil char []))
    rw [List.cons_append, trimSlashes, inductionHypothesis, shape]

/-- A path with one name more has a slash and that name behind it; the root's own slash is not
repeated. -/
theorem ofSegments_concat (names : List Text) (last : Text) :
    ofSegments (names ++ [last]) = names.flatMap ('/' :: ·) ++ '/' :: last := by
  rw [← flatMap_slash (by simp), List.flatMap_append, List.flatMap_singleton]

/-- No slash ends a path but that of the root. -/
theorem ofSegments_ended (names : List Text) (name : Physical.IsName last) :
    ∃ front char, ofSegments (names ++ [last]) = front ++ [char] ∧ char ≠ '/' := by
  obtain ⟨nonempty, -, -, whole⟩ := name
  obtain ⟨front, char, rfl⟩ := List.eq_nil_or_concat' last |>.resolve_left nonempty
  refine ⟨names.flatMap ('/' :: ·) ++ '/' :: front, char, ?_, ?_⟩
  · rw [ofSegments_concat, List.append_assoc]
    rfl
  · rintro rfl
    exact whole (by simp)

/-- A path that ends in a name has no slash to be trimmed. -/
theorem trimSlashes_ofSegments (name : Physical.IsName last) :
    trimSlashes (ofSegments (names ++ [last])) = ofSegments (names ++ [last]) := by
  obtain ⟨front, char, shape, solid⟩ := ofSegments_ended names name
  rw [shape, trimSlashes_append front solid]

/-- The directory of a path has all names of the path but the last. -/
theorem parent?_ofSegments (name : Physical.IsName last) :
    parent? (ofSegments (names ++ [last])) = some (ofSegments names) := by
  have free : ∀ char ∈ last, (char == '/') = false := by
    intro char member
    have differs : char ≠ '/' := fun same => name.2.2.2 (same ▸ member)
    simpa using differs
  have cut : cutLast? (· == '/') (ofSegments (names ++ [last])) =
      some (names.flatMap ('/' :: ·), last) := by
    rw [ofSegments_concat, cutLast?_append '/' rfl free]
  unfold parent?
  rw [trimSlashes_ofSegments name, cut]
  cases names with
  | nil => rfl
  | cons first names =>
    rw [← flatMap_slash (List.cons_ne_nil first names), List.flatMap_cons]
    rfl

/-- Nothing lies above the root. -/
theorem parent?_root : parent? (ofSegments []) = none := rfl

/-! ## All directories of a path -/

/-- A directory that nothing lies above is its only ancestor. -/
theorem ancestors_of_none {directory : Text} (topmost : parent? directory = none) :
    ancestors directory = [directory] := by
  rw [ancestors]
  split
  · rfl
  · rename_i outer nearer
    rw [topmost] at nearer
    cases nearer

/-- The ancestors of any other directory are itself and those of the one above it. -/
theorem ancestors_of_some {directory outer : Text} (nearer : parent? directory = some outer) :
    ancestors directory = directory :: ancestors outer := by
  rw [ancestors]
  split
  · rename_i topmost
    rw [nearer] at topmost
    cases topmost
  · rename_i found
    rw [nearer] at found
    rw [Option.some.inj found]

/-- The directories from one up to the root are spelled by ever fewer of its names. -/
theorem ancestors_ofSegments (named : ∀ name ∈ names, Physical.IsName name) :
    ancestors (ofSegments names) =
      ((List.range (names.length + 1)).map fun depth => ofSegments (names.take depth)).reverse := by
  induction names using List.reverseRecOn with
  | nil => exact ancestors_of_none parent?_root
  | append_singleton names last inductionHypothesis =>
    have own : Physical.IsName last := named last (by simp)
    have above := inductionHypothesis fun name member => named name (by simp [member])
    have shorter : (List.range (names.length + 1)).map
          (fun depth => ofSegments ((names ++ [last]).take depth)) =
        (List.range (names.length + 1)).map fun depth => ofSegments (names.take depth) := by
      apply List.map_congr_left
      intro depth below
      rw [List.take_append_of_le_length (Nat.le_of_lt_succ (List.mem_range.mp below))]
    rw [ancestors_of_some (parent?_ofSegments own), above, List.length_append,
      List.length_singleton, @List.range_succ (names.length + 1), List.map_append, shorter, List.reverse_append,
      List.map_singleton, List.take_of_length_le (by simp)]
    rfl

/-- A file in a directory is spelled by the names of the directory and its own. -/
theorem join_ofSegments (named : ∀ name ∈ names, Physical.IsName name) (file : Text) :
    join (ofSegments names) file = ofSegments (names ++ [file]) := by
  rw [ofSegments_concat]
  cases names using List.reverseRecOn with
  | nil => rfl
  | append_singleton names last =>
    have unended : endsWith ['/'] (ofSegments (names ++ [last])) = false := by
      obtain ⟨front, char, shape, solid⟩ := ofSegments_ended names (named last (by simp))
      cases ended : endsWith ['/'] (ofSegments (names ++ [last])) with
      | false => rfl
      | true =>
        obtain ⟨before, found⟩ := Option.isSome_iff_exists.mp ended
        rw [beforeTail?_eq_some_iff, shape] at found
        exact absurd (List.append_singleton_inj.mp found).2 solid
    rw [join, unended, ← flatMap_slash (by simp)]
    rfl

/-- The candidates for the imports of a path are the chain of its directories, from the root
downwards, without the path itself. -/
theorem hierarchicalPaths_ofSegments (nonempty : names ≠ [])
    (named : ∀ name ∈ names, Physical.IsName name) (file : Text) :
    hierarchicalPaths (ofSegments names) file =
      (importChain names file).filter (· ≠ ofSegments names) := by
  obtain ⟨outer, last, rfl⟩ := List.eq_nil_or_concat' names |>.resolve_left nonempty
  have above : ∀ name ∈ outer, Physical.IsName name :=
    fun name member => named name (by simp [member])
  have chain : ((ancestors (ofSegments outer)).map (join · file)).reverse =
      importChain (outer ++ [last]) file := by
    rw [ancestors_ofSegments above, List.map_reverse, List.reverse_reverse, List.map_map,
      importChain, List.length_append, List.length_singleton]
    apply List.map_congr_left
    intro depth below
    have within : depth ≤ outer.length := Nat.le_of_lt_succ (List.mem_range.mp below)
    rw [List.take_append_of_le_length within]
    exact join_ofSegments (fun name member => above name (List.mem_of_mem_take member)) file
  rw [hierarchicalPaths, parent?_ofSegments (named last (by simp))]
  simp only [← List.filter_reverse, chain]

/-- The names of a canonical path are what stands between its slashes. -/
theorem pieces_ofSegments (named : ∀ name ∈ names, Physical.IsName name) :
    (pieces (· == '/') (ofSegments names)).filter (!·.isEmpty) = names := by
  have cut : pieces (· == '/') (ofSegments names) = [] :: pieces (· == '/') (joined ['/'] names) :=
    rfl
  rw [cut]
  by_cases nonempty : names = []
  · subst nonempty
    rfl
  · have whole : ∀ name ∈ names, ∀ char ∈ name, (char == '/') = false := by
      intro name member char inside
      have differs : char ≠ '/' := fun same => (named name member).2.2.2 (same ▸ inside)
      simpa using differs
    rw [pieces_joined rfl nonempty whole]
    simpa using fun name member => (named name member).1

/-- The candidates for the imports of a path are read off its canonical spelling. The root has
none. -/
theorem hierarchicalCandidates_canonical {path canonical : Text}
    (normal : normalize path = some canonical) (file : Text) :
    hierarchicalCandidates canonical file =
      (importChain ((pieces (· == '/') canonical).filter (!·.isEmpty)) file).filter
        (· ≠ canonical) := by
  obtain ⟨names, rfl, spelled⟩ := normalize_names normal
  have named : ∀ name ∈ names, Physical.IsName name := fun name member =>
    (spelled name member).1.physical
  rw [pieces_ofSegments named, hierarchicalCandidates, normalize_canonical normal]
  by_cases nonempty : names = []
  · subst nonempty
    exact rfl
  · exact hierarchicalPaths_ofSegments nonempty named file

/-- No directory is visited twice. -/
theorem importChain_nodup (named : ∀ name ∈ names, Physical.IsName name)
    (name : Physical.IsName file) : (importChain names file).Nodup := by
  apply List.Nodup.map_on _ List.nodup_range
  intro depth below other also same
  have spelled (depth : Nat) : ∀ name ∈ names.take depth ++ [file], Physical.IsName name := by
    intro segment member
    rcases List.mem_append.mp member with inside | own
    · exact named segment (List.mem_of_mem_take inside)
    · rwa [List.mem_singleton.mp own]
  have lengths := congrArg List.length (ofSegments_injective (spelled depth) (spelled other) same)
  have within : depth < names.length := List.mem_range.mp below
  have beneath : other < names.length := List.mem_range.mp also
  simp only [List.length_append, List.length_take, List.length_singleton] at lengths
  omega

/-- A file of the chain lies in a directory on the way to the path. -/
theorem mem_importChain {candidate : Text} (among : candidate ∈ importChain names file) :
    ∃ front, front <+: names ∧ candidate = ofSegments (front ++ [file]) := by
  obtain ⟨depth, -, rfl⟩ := List.mem_map.mp among
  exact ⟨names.take depth, List.take_prefix depth names, rfl⟩

/-- Every file of the chain is spelled canonically. -/
theorem normalize_importChain {candidate : Text} (named : ∀ name ∈ names, IsName name)
    (name : IsName file) (among : candidate ∈ importChain names file) :
    normalize candidate = some candidate := by
  obtain ⟨front, leading, rfl⟩ := mem_importChain among
  apply normalize_ofSegments
  intro segment member
  rcases List.mem_append.mp member with inside | own
  · exact named segment (leading.mem inside)
  · rwa [List.mem_singleton.mp own]

end Logical

open Logical

/-- A path that leaves the root or is the root has no chain of imports. -/
theorem hierarchicalCandidates_outside {path : Text}
    (outside : normalize path = none ∨ normalize path = some ['/']) (file : Text) :
    hierarchicalCandidates path file = [] := by
  rcases outside with leaves | root
  · rw [hierarchicalCandidates, leaves]
  · rw [hierarchicalCandidates, root]
    exact rfl

namespace TemplateUnit

variable {P Token : Type} [Project P Token] [Project.Sighted P]

/-- The candidates for the imports of a path with names are the files of the name that is looked
for in every directory from the root down to that of the path, each once and in this order,
except for the path itself. A unit of the path has the items of these candidates. It is watched
at the canonical spelling of the path first and then at the candidates, so at no path twice and at
every file of the chain, whatever exists. A path that leaves the root and the root itself have no
candidates. -/
theorem resolve_importChain (project : P) (path file : Text) :
    (∀ canonical, normalize path = some canonical → canonical ≠ ['/'] → IsName file →
      ∃ names, names ≠ [] ∧ (∀ name ∈ names, IsName name) ∧ canonical = ofSegments names ∧
        let chain := importChain names file
        let candidates := chain.filter (· ≠ canonical)
        chain.Nodup ∧ hierarchicalCandidates path file = candidates ∧
        ∀ options kind, Options.importName options kind = file →
          let unit := (resolve options kind path).run project
          unit.imports = candidates.map (Project.item project) ∧
          unit.watched = canonical :: candidates ∧
          unit.watched.Nodup ∧ ∀ candidate ∈ chain, candidate ∈ unit.watched) ∧
      (normalize path = none ∨ normalize path = some ['/'] →
        hierarchicalCandidates path file = [] ∧
        ∀ options kind, Options.importName options kind = file →
          let unit := (resolve options kind path).run project
          unit.imports = [] ∧ unit.watched = [unit.item.path]) := by
  constructor
  · intro canonical normal below name
    obtain ⟨names, rfl, spelled⟩ := normalize_names normal
    have named : ∀ name ∈ names, IsName name := fun segment member => (spelled segment member).1
    have physical : ∀ name ∈ names, Physical.IsName name := fun segment member =>
      (named segment member).physical
    have nonempty : names ≠ [] := by
      rintro rfl
      exact below rfl
    have once := importChain_nodup physical name.physical
    have found {path : Text} (normal : normalize path = some (ofSegments names)) :
        hierarchicalCandidates path file =
          (importChain names file).filter (· ≠ ofSegments names) := by
      rw [hierarchicalCandidates, normal]
      exact hierarchicalPaths_ofSegments nonempty physical file
    refine ⟨names, nonempty, named, rfl, once, found normal, ?_⟩
    rintro options kind rfl
    have watched : ((resolve options kind path).run project).watched = ofSegments names ::
        (importChain names (options.importName kind)).filter (· ≠ ofSegments names) := by
      rw [watched_resolve, normal, Option.getD_some, found (normalize_canonical normal),
        List.map_cons, normal, Option.getD_some]
      refine congrArg _ ((List.map_congr_left ?_).trans (List.map_id _))
      intro candidate member
      rw [normalize_importChain named name (List.mem_filter.mp member).1, Option.getD_some, id]
    refine ⟨?_, watched, ?_, ?_⟩
    · rw [resolve_items, normal, Option.getD_some, found (normalize_canonical normal)]
    · rw [watched]
      exact List.nodup_cons.mpr ⟨by simp, once.filter _⟩
    · intro candidate member
      rw [watched]
      by_cases own : candidate = ofSegments names
      · exact own ▸ List.mem_cons_self
      · exact List.mem_cons_of_mem _ (List.mem_filter.mpr ⟨member, decide_eq_true own⟩)
  · intro outside
    have none : hierarchicalCandidates ((normalize path).getD path) file = [] := by
      apply hierarchicalCandidates_outside
      rcases outside with leaves | root
      · rw [leaves]
        exact .inl leaves
      · rw [root]
        exact .inr rfl
    refine ⟨hierarchicalCandidates_outside outside file, ?_⟩
    rintro options kind rfl
    rw [resolve_items, none]
    exact ⟨rfl, rfl⟩

/-- An import file is a template among others when it is compiled, and no import of itself. -/
theorem resolve_importChain_own :
    let path : Text := "~/Views\\Home/../_ViewImports.cshtml"
    let unit := (resolve { defaults := [] } .views path).run (Memory.ofFiles [])
    normalize path = some "/Views/_ViewImports.cshtml" ∧
      unit.watched = ["/Views/_ViewImports.cshtml", "/_ViewImports.cshtml"] ∧
      unit.watched.Nodup := by
  intro path unit
  have normal : normalize path = some "/Views/_ViewImports.cshtml" := by decide
  have name : IsName "_ViewImports.cshtml" := by
    have whole : ("_ViewImports.cshtml" : Text).all (fun char => isSeparator char == false) := by
      decide
    exact ⟨by decide, by decide, by decide, by simpa using whole⟩
  have below := (resolve_importChain (Memory.ofFiles []) path "_ViewImports.cshtml").1
  obtain ⟨names, -, -, -, -, -, units⟩ := below _ normal (by decide) name
  obtain ⟨-, -, once, -⟩ := units { defaults := [] } .views rfl
  exact ⟨normal, by decide +kernel, once⟩

end TemplateUnit

end ViewCompiler
