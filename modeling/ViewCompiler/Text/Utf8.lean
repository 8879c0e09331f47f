import ViewCompiler.Text

/-!
# Text in octets

Reading octets as UTF-8 goes from the left, one character at a time, and stops at
the first place where no character begins. The fault tells where that is and
whether more octets could still have completed a character.
-/

namespace ViewCompiler

/-- Why octets are not UTF-8. -/
inductive Utf8Fault
  /-- The octets from `index` on begin no character; `length` of them are at fault. -/
  | invalid (index length : Nat)
  /-- The octets end inside the character that begins at `index`. -/
  | incomplete (index : Nat)
deriving DecidableEq, Repr

/-- The wording of a fault. -/
def Utf8Fault.message : Utf8Fault → Text
  | .invalid index length =>
    "invalid utf-8 sequence of " ++ Text.decimal length ++ " bytes from index " ++ Text.decimal index
  | .incomplete index => "incomplete utf-8 byte sequence from index " ++ Text.decimal index

namespace Utf8

/-- The octets of a text. -/
def encode (text : Text) : Octets := text.flatMap String.utf8EncodeChar

/-- The least and the greatest octet that may follow a leading octet, and how many
octets follow it in all. -/
def following (lead : UInt8) : Option (UInt8 × UInt8 × Nat) :=
  if 0xC2 ≤ lead ∧ lead ≤ 0xDF then some (0x80, 0xBF, 1)
  else if lead = 0xE0 then some (0xA0, 0xBF, 2)
  else if lead = 0xED then some (0x80, 0x9F, 2)
  else if 0xE1 ≤ lead ∧ lead ≤ 0xEF then some (0x80, 0xBF, 2)
  else if lead = 0xF0 then some (0x90, 0xBF, 3)
  else if lead = 0xF4 then some (0x80, 0x8F, 3)
  else if 0xF1 ≤ lead ∧ lead ≤ 0xF3 then some (0x80, 0xBF, 3)
  else none

/-- The value that the leading octet contributes. -/
def leadValue (lead : UInt8) (count : Nat) : Nat :=
  if count = 1 then lead.toNat % 32 else if count = 2 then lead.toNat % 16 else lead.toNat % 8

/-- How far reading the inside of a character came. -/
inductive Tail
  /-- The character is complete. -/
  | whole (value : Nat) (rest : Octets)
  /-- This many octets of the character were right before one was wrong. -/
  | wrong (length : Nat)
  /-- The octets ran out. -/
  | ended

/-- Reads the octets that follow a leading octet. `taken` counts those read so far,
the leading one included. -/
def tail : (low high : UInt8) → (missing taken value : Nat) → Octets → Tail
  | _, _, 0, _, value, rest => .whole value rest
  | _, _, _ + 1, _, _, [] => .ended
  | low, high, missing + 1, taken, value, octet :: rest =>
    if low ≤ octet ∧ octet ≤ high then
      tail 0x80 0xBF missing (taken + 1) (value * 64 + octet.toNat % 64) rest
    else .wrong taken

/-- What is left behind a character is no longer than what it was read from. -/
theorem tail_length {low high : UInt8} {missing taken value result : Nat} {octets rest : Octets}
    (read : tail low high missing taken value octets = .whole result rest) :
    rest.length ≤ octets.length := by
  induction missing generalizing low high taken value octets with
  | zero =>
    simp only [tail, Tail.whole.injEq] at read
    simp [read.2]
  | succ missing inductionHypothesis =>
    cases octets with
    | nil => simp [tail] at read
    | cons octet octets =>
      simp only [tail] at read
      split at read
      · exact Nat.le_succ_of_le (inductionHypothesis read)
      · simp at read

/-- Reads octets from position `index` on. -/
def decodeFrom (index : Nat) (octets : Octets) : Except Utf8Fault Text :=
  match octets with
  | [] => .ok []
  | octet :: rest =>
    if octet < 0x80 then
      (decodeFrom (index + 1) rest).map (Char.ofNat octet.toNat :: ·)
    else match following octet with
      | none => .error (.invalid index 1)
      | some (low, high, count) =>
        match read : tail low high count 1 (leadValue octet count) rest with
        | .whole value after =>
          have := tail_length read
          (decodeFrom (index + 1 + count) after).map (Char.ofNat value :: ·)
        | .wrong length => .error (.invalid index length)
        | .ended => .error (.incomplete index)
termination_by octets.length

/-- Reads octets as text. -/
def decode (octets : Octets) : Except Utf8Fault Text := decodeFrom 0 octets

end Utf8

end ViewCompiler
