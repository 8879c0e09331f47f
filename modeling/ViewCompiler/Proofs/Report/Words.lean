import Mathlib.Data.UInt
import ViewCompiler.Proofs.Report.Carets
import ViewCompiler.Text.Utf8

/-!
# Snippets in machine words

A machine counts lines and columns in words of 64 bits, and some of what it does with words has no
result: a sum may be too large, a difference negative, and the bounds that a word is to be kept
between may cross. Here a snippet is printed in words, with every check that could break it off.
None of them fails, whatever numbers a fault comes with, and what is printed is what unbounded
numbers give.

This rests on the size of a line. No text takes 2^63 octets or more, so the width of a line is a
word, and so is the column behind its last character. The memory for what is printed is taken to
suffice.
-/

namespace ViewCompiler

open Text

namespace Word

/-- Why an operation on words has no result. -/
inductive Fault
  /-- The sum takes more than 64 bits. -/
  | tooLarge
  /-- The difference is below zero. -/
  | belowZero
  /-- The lower bound is above the upper one. -/
  | crossed
deriving DecidableEq, Repr

/-- The sum of two words. -/
def plus (left right : UInt64) : Except Fault UInt64 :=
  if left.toNat + right.toNat < UInt64.size then .ok (left + right) else .error .tooLarge

/-- The difference of two words. -/
def minus (left right : UInt64) : Except Fault UInt64 :=
  if right ≤ left then .ok (left - right) else .error .belowZero

/-- The difference of two words, or zero if there is none. -/
def minusOrZero (left right : UInt64) : UInt64 := (minus left right).toOption.getD 0

/-- The word between two bounds that is next to a word. -/
def clamp (value lower upper : UInt64) : Except Fault UInt64 :=
  if upper < lower then .error .crossed
  else .ok (if value < lower then lower else if upper < value then upper else value)

variable {left right value lower upper : UInt64}

/-- A sum that fits into a word is the sum. -/
theorem exists_plus (fits : left.toNat + right.toNat < UInt64.size) :
    ∃ sum, plus left right = .ok sum ∧ sum.toNat = left.toNat + right.toNat := by
  refine ⟨left + right, if_pos fits, ?_⟩
  rw [UInt64.toNat_add]
  exact Nat.mod_eq_of_lt fits

/-- A difference that is not below zero is the difference. -/
theorem exists_minus (ordered : right.toNat ≤ left.toNat) :
    ∃ difference, minus left right = .ok difference ∧
      difference.toNat = left.toNat - right.toNat := by
  have below : right ≤ left := UInt64.le_iff_toNat_le.mpr ordered
  exact ⟨left - right, if_pos below, UInt64.toNat_sub_of_le left right below⟩

/-- There is no word below zero. -/
theorem minus_eq_error (ordered : left.toNat < right.toNat) :
    minus left right = .error .belowZero :=
  if_neg fun below => Nat.not_le.mpr ordered (UInt64.le_iff_toNat_le.mp below)

/-- A difference that stops at zero is that of numbers, which stops there too. -/
theorem toNat_minusOrZero (left right : UInt64) :
    (minusOrZero left right).toNat = left.toNat - right.toNat := by
  rw [minusOrZero]
  rcases Nat.lt_or_ge left.toNat right.toNat with above | below
  · rw [minus_eq_error above]
    exact (Nat.sub_eq_zero_of_le (Nat.le_of_lt above)).symm
  · obtain ⟨difference, found, value⟩ := exists_minus below
    rw [found]
    exact value

/-- Between bounds that do not cross there is a word next to any other one. -/
theorem exists_clamp (ordered : lower.toNat ≤ upper.toNat) :
    ∃ kept, clamp value lower upper = .ok kept ∧
      kept.toNat = min (max value.toNat lower.toNat) upper.toNat := by
  have apart : ¬ upper < lower := by
    rw [UInt64.lt_iff_toNat_lt]
    exact Nat.not_lt.mpr ordered
  refine ⟨_, if_neg apart, ?_⟩
  simp only [UInt64.lt_iff_toNat_lt]
  split
  · omega
  · split <;> omega

end Word

/-- Every character takes an octet at least. -/
theorem Utf8.length_le_encode (text : Text) : text.length ≤ (Utf8.encode text).length := by
  induction text with
  | nil => exact Nat.le_refl 0
  | cons char text inductionHypothesis =>
    have octet : 0 < (String.utf8EncodeChar char).length := by
      rw [String.length_utf8EncodeChar]
      exact char.utf8Size_pos
    have apart : (Utf8.encode (char :: text)).length =
        (String.utf8EncodeChar char).length + (Utf8.encode text).length := by
      rw [encode, List.flatMap_cons, List.length_append]
      rfl
    rw [apart, List.length_cons]
    omega

/-- A line of a source. -/
structure SourceLine where
  text : Text
  /-- No text takes 2^63 octets or more. -/
  fits : (Utf8.encode text).length < 0x8000000000000000

namespace SourceLine

/-- How many characters the line has. -/
def width (line : SourceLine) : UInt64 := .ofNat line.text.length

variable (line : SourceLine)

/-- The column behind the last character is a word. -/
theorem length_lt : line.text.length + 1 < UInt64.size := by
  have octets := Utf8.length_le_encode line.text
  have fits := line.fits
  simp only [UInt64.size]
  omega

/-- The number of characters of a line fits into a word. -/
theorem toNat_width : line.width.toNat = line.text.length :=
  UInt64.toNat_ofNat_of_lt' (Nat.lt_of_succ_lt line.length_lt)

end SourceLine

/-- A fault as reported, its lines and columns in words. -/
structure WordMessage where
  message : Text
  formatted : Text
  file : Text
  startLine : UInt64
  startColumn : UInt64
  endLine : UInt64
  endColumn : UInt64
deriving DecidableEq, Repr

/-- The same fault with unbounded numbers. -/
def WordMessage.unbounded (message : WordMessage) : Message :=
  { message := message.message
    formatted := message.formatted
    file := message.file
    startLine := message.startLine.toNat
    startColumn := message.startColumn.toNat
    endLine := message.endLine.toNat
    endColumn := message.endColumn.toNat }

namespace Snippet

/-- Which characters of a line of this width the carets stand under, in words. -/
def wordExtent (width : UInt64) (message : WordMessage) : Except Word.Fault (UInt64 × UInt64) := do
  let start := min (Word.minusOrZero message.startColumn 1) width
  let next ← Word.plus start 1
  let last := max width next
  let stop ←
    if message.endLine = message.startLine then
      Word.clamp (Word.minusOrZero message.endColumn 1) next last
    else .ok last
  return (start, stop)

/-- The line of a fault, if there is one with its number, which is a word. -/
def wordLine? (lines : List SourceLine) (message : WordMessage) : Option SourceLine :=
  (Word.minus message.startLine 1).toOption.bind fun index => lines[index.toNat]?

/-- The line of a fault and the carets under it, computed in words. -/
def wordRender (lines : List SourceLine) (message : WordMessage) :
    Except Word.Fault (Option Text) :=
  match wordLine? lines message with
  | none => .ok none
  | some line => do
    let number := decimal message.startLine.toNat
    let (start, stop) ← wordExtent line.width message
    let carets ← Word.minus stop start
    return some (margin (Screen.dimmed number) ++ line.text ++ "\n" ++
      margin (List.replicate number.length ' ') ++ List.replicate start.toNat ' ' ++
      Screen.red (List.replicate carets.toNat '^') ++ "\n")

/-- Carets begin behind the last character of the line at the latest. There is one at least, and
they end with the line, unless they begin behind it. -/
theorem extent_within {message : Message} {width start stop : Nat}
    (reaches : extent width message = (start, stop)) :
    start < stop ∧ start ≤ width ∧ stop ≤ max width (start + 1) := by
  unfold extent at reaches
  split at reaches
  all_goals
    obtain ⟨rfl, rfl⟩ := Prod.mk.inj reaches
    omega

/-- There is no line with the number zero, and none behind the last one. -/
theorem line?_eq_none_iff {texts : List Text} {message : Message} :
    line? texts message = none ↔ message.startLine = 0 ∨ texts.length < message.startLine := by
  rw [line?]
  split
  · rename_i uncounted
    simp [uncounted]
  · rw [List.getElem?_eq_none_iff]
    omega

/-- Nothing is shown of a fault exactly if the source has no line with its number. Lines count from
one. -/
theorem render_eq_none_iff {texts : List Text} {message : Message} :
    render texts message = none ↔ message.startLine = 0 ∨ texts.length < message.startLine := by
  rw [render, Option.map_eq_none_iff, line?_eq_none_iff]

/-- The extent can be computed in words, if the column behind the line is one. -/
theorem wordExtent_eq {width : UInt64} (message : WordMessage)
    (room : width.toNat + 1 < UInt64.size) :
    ∃ start stop, wordExtent width message = .ok (start, stop) ∧
      extent width.toNat message.unbounded = (start.toNat, stop.toNat) := by
  obtain ⟨start, known, begins⟩ : ∃ start,
      min (Word.minusOrZero message.startColumn 1) width = start ∧
        start.toNat = min (message.startColumn.toNat - 1) width.toNat := by
    refine ⟨_, rfl, ?_⟩
    rw [UInt64.toNat_min, Word.toNat_minusOrZero, UInt64.toNat_one]
  obtain ⟨next, added, follows⟩ : ∃ next,
      Word.plus start 1 = .ok next ∧ next.toNat = start.toNat + 1 :=
    Word.exists_plus (by rw [begins, UInt64.toNat_one]; omega)
  have last : (max width next).toNat = max width.toNat (start.toNat + 1) := by
    rw [UInt64.toNat_max, follows]
  unfold wordExtent extent
  simp only [known, added, bind, Except.bind, WordMessage.unbounded, UInt64.toNat_inj, ← begins]
  split
  · -- The upper bound leaves room for one caret at the start, so the bounds do not cross.
    obtain ⟨stop, kept, ends⟩ : ∃ stop,
        Word.clamp (Word.minusOrZero message.endColumn 1) next (max width next) = .ok stop ∧ _ :=
      Word.exists_clamp (by rw [last]; omega)
    rw [kept]
    refine ⟨start, stop, rfl, ?_⟩
    rw [ends, last, follows, Word.toNat_minusOrZero, UInt64.toNat_one]
  · refine ⟨start, max width next, rfl, ?_⟩
    rw [last]

/-- The line can be found in words. -/
theorem wordLine?_eq (lines : List SourceLine) (message : WordMessage) :
    (wordLine? lines message).map SourceLine.text =
      line? (lines.map SourceLine.text) message.unbounded := by
  have numbered : message.unbounded.startLine = message.startLine.toNat := rfl
  rw [wordLine?, line?, numbered]
  rcases Nat.eq_zero_or_pos message.startLine.toNat with uncounted | counted
  · rw [Word.minus_eq_error (by rw [uncounted, UInt64.toNat_one]; decide), if_pos uncounted]
    rfl
  · obtain ⟨index, found, position⟩ : ∃ index,
        Word.minus message.startLine 1 = .ok index ∧ _ := Word.exists_minus counted
    rw [found, if_neg (Nat.ne_of_gt counted), List.getElem?_map]
    exact congrArg (fun place => lines[place]?.map SourceLine.text) position

/-- No check fails, and what is printed is what unbounded numbers give. -/
theorem wordRender_eq (lines : List SourceLine) (message : WordMessage) :
    wordRender lines message = .ok (render (lines.map SourceLine.text) message.unbounded) := by
  rw [wordRender, render, ← wordLine?_eq]
  cases wordLine? lines message with
  | none => rfl
  | some line =>
    have room : line.width.toNat + 1 < UInt64.size := by
      rw [line.toNat_width]
      exact line.length_lt
    obtain ⟨start, stop, computed, reaches⟩ := wordExtent_eq message room
    obtain ⟨ordered, -, -⟩ := extent_within reaches
    obtain ⟨carets, taken, count⟩ := Word.exists_minus (Nat.le_of_lt ordered)
    rw [line.toNat_width] at reaches
    rw [Option.map_some, Option.map_some, reaches]
    simp [computed, taken, count, bind, Except.bind, pure, Except.pure, margin,
      WordMessage.unbounded]

/-- A snippet is printed whatever the lines and columns of a fault are: no sum of words is too
large, no difference is negative, and no bounds cross. There is none if and only if the line of
the fault is zero or behind the last one. Otherwise it shows the line with one caret at least. The
carets begin at a column of the line or behind its last one, and they end with the line, or behind
one caret if they begin behind it. -/
theorem wordRender_unfailing (lines : List SourceLine) (message : WordMessage) :
    let texts := lines.map SourceLine.text
    let rendered := render texts message.unbounded
    wordRender lines message = .ok rendered ∧
      (rendered = none ↔ message.startLine = 0 ∨ lines.length < message.startLine.toNat) ∧
      ∀ printed, rendered = some printed → ∃ line start stop,
        texts[message.startLine.toNat - 1]? = some line ∧
        extent line.length message.unbounded = (start, stop) ∧
        Screen.Underlines printed line start stop ∧
        start < stop ∧ start ≤ line.length ∧
        (start < line.length → stop ≤ line.length) ∧
        (start = line.length → stop = start + 1) := by
  intro texts rendered
  refine ⟨wordRender_eq lines message, ?_, fun printed shown => ?_⟩
  · rw [render_eq_none_iff, List.length_map, ← UInt64.toNat_inj]
    rfl
  · obtain ⟨line, found, -⟩ := Option.map_eq_some_iff.mp shown
    have numbered : texts[message.startLine.toNat - 1]? = some line := by
      rw [line?] at found
      exact (Option.ite_none_left_eq_some.mp found).2
    obtain ⟨start, stop, reaches⟩ : ∃ start stop,
        extent line.length message.unbounded = (start, stop) := ⟨_, _, rfl⟩
    obtain ⟨ordered, begins, ends⟩ := extent_within reaches
    obtain ⟨printed', again, underlined⟩ :=
      render_underlines found reaches (Nat.le_of_lt ordered)
    obtain rfl := Option.some.inj (again.symm.trans shown)
    refine ⟨line, start, stop, numbered, reaches, underlined, ordered, begins, ?_, ?_⟩
    · omega
    · omega

/-- A fault that goes from far behind the end of its line back to before its first column has one
caret, behind the line. -/
theorem wordRender_unfailing_reversed :
    let line : SourceLine := ⟨"<p>", by decide⟩
    let message : WordMessage := ⟨[], [], [], 1, 0xFFFFFFFFFFFFFFFF, 1, 0⟩
    ∃ printed, wordRender [line] message = .ok (some printed) ∧
      Screen.Underlines printed "<p>" 3 4 := by
  intro line message
  obtain ⟨computed, absent, drawn⟩ := wordRender_unfailing [line] message
  obtain ⟨printed, shown⟩ : ∃ printed, render [line.text] message.unbounded = some printed :=
    Option.ne_none_iff_exists'.mp (mt absent.mp (by decide))
  obtain ⟨text, start, stop, numbered, reaches, underlined, -⟩ := drawn printed shown
  obtain rfl : "<p>" = text := Option.some.inj numbered
  have columns : extent 3 message.unbounded = (3, 4) := by decide
  obtain ⟨rfl, rfl⟩ := Prod.mk.inj (columns.symm.trans reaches)
  exact ⟨printed, computed.trans (congrArg Except.ok shown), underlined⟩

end Snippet

end ViewCompiler
