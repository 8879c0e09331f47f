/-!
# Text as a list of characters

Every path, line and message of the library is a list of Unicode scalar values,
so positions count scalar values and every operation recurses on the data. This
module holds the type and the cutting, searching and writing operations that no
character class enters. Strings enter through the coercion and leave through
`Text.string`.
-/

namespace ViewCompiler

/-- A sequence of Unicode scalar values. -/
abbrev Text := List Char

instance : Coe String Text := ⟨String.toList⟩

/-- The octets of a file. -/
abbrev Octets := List UInt8

namespace Text

/-- The same characters as a string. -/
def string (text : Text) : String := String.ofList text

/-- The pieces between the characters that `cut` selects, empty ones included:
there is always one piece more than there are cuts. -/
def pieces (cut : Char → Bool) : Text → List Text
  | [] => [[]]
  | first :: rest =>
    if cut first then [] :: pieces cut rest
    else match pieces cut rest with
      | [] => [[first]]
      | piece :: more => (first :: piece) :: more

/-- The pieces between line feeds. -/
def rows (text : Text) : List Text := pieces (· == '\n') text

/-- A line without the one carriage return it may end in. -/
def chopReturn : Text → Text
  | [] => []
  | ['\r'] => []
  | first :: rest => first :: chopReturn rest

/-- Lines ended by a line feed, or by a carriage return and a line feed. What
follows the last line feed is a line only if it is not empty, and it keeps its
carriage return. -/
def lines (text : Text) : List Text :=
  let rec settle : List Text → List Text
    | [] => []
    | [last] => if last.isEmpty then [] else [last]
    | row :: more => chopReturn row :: settle more
  settle (rows text)

/-- What follows `lead` if the text begins with it. -/
def afterLead? : (lead text : Text) → Option Text
  | [], text => some text
  | _ :: _, [] => none
  | expected :: lead, actual :: text =>
    if expected = actual then afterLead? lead text else none

/-- What precedes `tail` if the text ends in it. -/
def beforeTail? (tail text : Text) : Option Text :=
  (afterLead? tail.reverse text.reverse).map List.reverse

/-- Whether the text begins with `lead`. -/
def beginsWith (lead text : Text) : Bool := (afterLead? lead text).isSome

/-- Whether the text ends in `tail`. -/
def endsWith (tail text : Text) : Bool := (beforeTail? tail text).isSome

/-- The parts before and after the last character that `cut` selects. -/
def cutLast? (cut : Char → Bool) : Text → Option (Text × Text)
  | [] => none
  | first :: rest =>
    match cutLast? cut rest with
    | some (before, after) => some (first :: before, after)
    | none => if cut first then some ([], rest) else none

/-- The parts before and after the first occurrence of `mark`. -/
def cutFirst? (mark : Text) : Text → Option (Text × Text)
  | [] => if mark.isEmpty then some ([], []) else none
  | first :: rest =>
    match afterLead? mark (first :: rest) with
    | some after => some ([], after)
    | none => (cutFirst? mark rest).map fun (before, after) => (first :: before, after)

/-- Every occurrence of `mark` exchanged for `fill`, from the left and without
looking into what was filled in. The count says how many characters of an
exchanged occurrence are still to be passed over. -/
def exchange (mark fill : Text) : (passing : Nat) → Text → Text
  | _, [] => []
  | passing + 1, _ :: rest => exchange mark fill passing rest
  | 0, first :: rest =>
    if beginsWith mark (first :: rest) then
      fill ++ exchange mark fill (mark.length - 1) rest
    else first :: exchange mark fill 0 rest

/-- The texts one after the other with `mark` between them. -/
def joined (mark : Text) : List Text → Text
  | [] => []
  | [only] => only
  | first :: more => first ++ mark ++ joined mark more

/-- The text repeated. -/
def times (text : Text) (count : Nat) : Text := (List.replicate count text).flatten

/-- A number in decimal digits, without leading zeros. -/
def decimal (number : Nat) : Text := Nat.toDigits 10 number

/-- The number that a sequence of ASCII digits denotes; nothing else denotes one. -/
def number? (digits : Text) : Option Nat :=
  if digits.isEmpty then none
  else digits.foldl (fun value digit => value.bind fun so_far =>
    if digit.isDigit then some (so_far * 10 + (digit.toNat - '0'.toNat)) else none) (some 0)

/-- Whether the first text comes before the second or equals it: the first character
that differs decides, and a text comes before its continuations. It is the order of
the encoded octets too. -/
def atMost : Text → Text → Bool
  | [], _ => true
  | _ :: _, [] => false
  | one :: left, other :: right => if one = other then atMost left right else one.toNat < other.toNat

/-- Of two texts one comes first, or they are equal. -/
theorem atMost_total (left right : Text) : (atMost left right || atMost right left) = true := by
  induction left generalizing right with
  | nil => simp [atMost]
  | cons one left inductionHypothesis =>
    cases right with
    | nil => simp [atMost]
    | cons other right =>
      by_cases same : one = other
      · subst same
        simpa [atMost] using inductionHypothesis right
      · have differs : one.toNat ≠ other.toNat := fun equal => same (Char.toNat_inj.mp equal)
        simp only [atMost, same, Ne.symm same, ↓reduceIte, Bool.or_eq_true, decide_eq_true_eq]
        omega

/-- The order of texts is transitive. -/
theorem atMost_trans (left middle right : Text) (first : atMost left middle = true)
    (second : atMost middle right = true) : atMost left right = true := by
  induction left generalizing middle right with
  | nil => simp [atMost]
  | cons one left inductionHypothesis =>
    cases middle with
    | nil => simp [atMost] at first
    | cons two middle =>
      cases right with
      | nil => simp [atMost] at second
      | cons three right =>
        simp only [atMost] at first second ⊢
        split at first <;> split at second <;> rename_i near far
        · subst near far
          simpa using inductionHypothesis middle right first second
        · subst near
          simpa [far] using second
        · subst far
          simpa [near] using first
        · simp only [decide_eq_true_eq] at first second
          have differs : one ≠ three := fun equal => by subst equal; omega
          simp only [differs, ↓reduceIte, decide_eq_true_eq]
          omega

/-- Two texts of which each is at most the other are equal. -/
theorem atMost_antisymm {left right : Text} (first : atMost left right = true)
    (second : atMost right left = true) : left = right := by
  induction left generalizing right with
  | nil =>
    cases right with
    | nil => rfl
    | cons _ _ => simp [atMost] at second
  | cons one left inductionHypothesis =>
    cases right with
    | nil => simp [atMost] at first
    | cons other right =>
      by_cases same : one = other
      · subst same
        simp only [atMost, ↓reduceIte] at first second
        rw [inductionHypothesis first second]
      · simp only [atMost, same, Ne.symm same, ↓reduceIte, decide_eq_true_eq] at first second
        omega

/-- The texts in order. -/
def sort (texts : List Text) : List Text := texts.mergeSort atMost

/-- Sorted texts are in order. -/
theorem sort_ordered (texts : List Text) :
    (sort texts).Pairwise fun left right => atMost left right = true :=
  List.pairwise_mergeSort atMost_trans atMost_total texts

/-- Sorting keeps the texts. -/
@[simp] theorem mem_sort {text : Text} {texts : List Text} : text ∈ sort texts ↔ text ∈ texts :=
  List.mem_mergeSort

/-- A sorted list without neighbouring repetitions. -/
def withoutRepeats : List Text → List Text
  | [] => []
  | first :: rest =>
    match withoutRepeats rest with
    | [] => [first]
    | second :: more => if first = second then second :: more else first :: second :: more

/-- Leaving out repeats loses no text. -/
@[simp] theorem mem_withoutRepeats {text : Text} {texts : List Text} :
    text ∈ withoutRepeats texts ↔ text ∈ texts := by
  induction texts with
  | nil => rfl
  | cons first rest inductionHypothesis =>
    unfold withoutRepeats
    rw [List.mem_cons, ← inductionHypothesis]
    cases withoutRepeats rest with
    | nil => simp
    | cons second more =>
      by_cases same : first = second
      · simp [same]
      · simp [same]

end Text

/-- The noun in the number that goes with the count: `1 template`, `2 templates`. -/
def plural (count : Nat) : Text := if count = 1 then [] else ['s']

/-- A count with its noun in the right number. -/
def counted (count : Nat) (noun : Text) : Text := Text.decimal count ++ " " ++ noun ++ plural count

end ViewCompiler
