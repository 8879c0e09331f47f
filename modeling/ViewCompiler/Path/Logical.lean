import ViewCompiler.Text

/-!
# Logical paths

A logical path names a template from the root of its project: `/` between segments,
letter case kept, `/Views/Home/Index.cshtml`. A text that begins with `~/` is named
from the application root, which is the same place. Texts come in many spellings;
`normalize` gives the one canonical spelling, or nothing when `..` would climb above
the root.

The import files that apply to a template are looked for in every directory from
the root down to its own, in that order.
-/

namespace ViewCompiler.Logical

open Text

/-- A text without the `~` of a leading `~/`. Keys of the cache are spelled this way
and not changed further. -/
def stripAppRoot : Text → Text
  | '~' :: '/' :: rest => '/' :: rest
  | path => path

/-- Both slashes separate segments. -/
def isSeparator (char : Char) : Bool := char == '/' || char == '\\'

/-- The segments of a spelling, in order, with empty and dotted ones. -/
def segments (path : Text) : List Text := pieces isSeparator (stripAppRoot path)

/-- Follows segments from a directory, given by its own segments with the innermost
first: an empty segment and `.` stay, `..` goes to the parent, which the root does
not have. -/
def follow : (directory : List Text) → List Text → Option (List Text)
  | directory, [] => some directory
  | directory, segment :: rest =>
    if segment = [] ∨ segment = ['.'] then follow directory rest
    else if segment = ['.', '.'] then
      match directory with
      | [] => none
      | _ :: outer => follow outer rest
    else follow (segment :: directory) rest

/-- The path with these segments. -/
def ofSegments (names : List Text) : Text := '/' :: joined ['/'] names

/-- The canonical spelling, if the path stays under the root. -/
def normalize (path : Text) : Option Text :=
  (follow [] (segments path)).map fun directory => ofSegments directory.reverse

/-- The text without the slashes it ends in. -/
def trimSlashes : Text → Text
  | [] => []
  | first :: rest =>
    match trimSlashes rest with
    | [] => if first = '/' then [] else [first]
    | kept => first :: kept

/-- The directory of a canonical path; the root has none. -/
def parent? (path : Text) : Option Text :=
  match cutLast? (· == '/') (trimSlashes path) with
  | none => none
  | some ([], _) => some ['/']
  | some (directory, _) => some directory

/-- What follows the last slash. -/
def fileName (path : Text) : Text :=
  match cutLast? (· == '/') path with
  | none => path
  | some (_, name) => name

/-- A name in a directory. -/
def join (directory name : Text) : Text :=
  if endsWith ['/'] directory then directory ++ name else directory ++ '/' :: name

/-- What stands before a cut is shorter than the text. -/
theorem cutLast?_length {cut : Char → Bool} {text before after : Text}
    (found : cutLast? cut text = some (before, after)) : before.length < text.length := by
  induction text generalizing before after with
  | nil => simp [cutLast?] at found
  | cons first rest inductionHypothesis =>
    simp only [cutLast?] at found
    split at found
    · rename_i inner innerAfter inside
      have shorter := inductionHypothesis inside
      simp only [Option.some.injEq, Prod.mk.injEq] at found
      rw [← found.1]
      simpa using shorter
    · split at found
      · simp only [Option.some.injEq, Prod.mk.injEq] at found
        simp [← found.1]
      · simp at found

/-- Trimming slashes makes no path longer. -/
theorem trimSlashes_length (path : Text) : (trimSlashes path).length ≤ path.length := by
  induction path with
  | nil => simp [trimSlashes]
  | cons first rest inductionHypothesis =>
    simp only [trimSlashes]
    split
    · split <;> simp
    · rename_i kept _
      simpa using inductionHypothesis

/-- The parent of a directory comes nearer to the root, counting the slashes at the
end of a spelling as nothing. -/
theorem parent?_trim_length {path directory : Text} (found : parent? path = some directory) :
    (trimSlashes directory).length < (trimSlashes path).length := by
  unfold parent? at found
  split at found
  · simp at found
  · rename_i name cut
    simp only [Option.some.injEq] at found
    subst found
    have shorter := cutLast?_length cut
    simpa [trimSlashes] using shorter
  · rename_i before name _ cut
    simp only [Option.some.injEq] at found
    subst found
    exact Nat.lt_of_le_of_lt (trimSlashes_length _) (cutLast?_length cut)

/-- The directory itself and every one above it, innermost first. -/
def ancestors (directory : Text) : List Text :=
  match _nearer : parent? directory with
  | none => [directory]
  | some outer => directory :: ancestors outer
termination_by (trimSlashes directory).length
decreasing_by exact parent?_trim_length _nearer

/-- Where files named `name` apply to a path: one candidate in every directory from
the root to that of the path, the path itself left out. -/
def hierarchicalPaths (path name : Text) : List Text :=
  match parent? path with
  | none => []
  | some directory =>
    ((ancestors directory).map (join · name)).filter (· ≠ path) |>.reverse

/-- Whether a path names a page rather than a view by where it lies. -/
def underPages (path : Text) : Bool := beginsWith "/Pages/" path

/-- The path without its last extension. -/
def stem (path : Text) : Text :=
  match cutLast? (· == '.') path with
  | none => path
  | some (before, _) => before

end ViewCompiler.Logical
