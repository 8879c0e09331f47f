import ViewCompiler.Text

/-!
# Blank characters and trimming

Blank means the Unicode property White_Space: the control characters from tab to
carriage return, the space, the next-line control, and the spaces and separators
beyond ASCII. The byte order mark and the zero-width space are not blank.
-/

namespace ViewCompiler.Text

/-- The property White_Space. -/
def isBlank (char : Char) : Bool :=
  let value := char.toNat
  (9 ≤ value && value ≤ 13) || value == 0x20 || value == 0x85 || value == 0xA0 ||
    value == 0x1680 || (0x2000 ≤ value && value ≤ 0x200A) || value == 0x2028 ||
    value == 0x2029 || value == 0x202F || value == 0x205F || value == 0x3000

/-- The text without the blanks it begins with. -/
def trimStart (text : Text) : Text := text.dropWhile isBlank

/-- The text without the blanks it ends in. -/
def trimEnd : Text → Text
  | [] => []
  | first :: rest =>
    match trimEnd rest with
    | [] => if isBlank first then [] else [first]
    | kept => first :: kept

/-- The text without blanks at either end. -/
def trim (text : Text) : Text := trimEnd (trimStart text)

end ViewCompiler.Text
