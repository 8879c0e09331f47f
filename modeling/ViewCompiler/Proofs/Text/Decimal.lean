import ViewCompiler.Text.Letters

/-!
# Numbers in decimal digits

The digits of a number are ASCII digits, there is at least one of them, and they denote
the number again.
-/

namespace ViewCompiler.Text

variable {number : Nat} {char : Char}

/-- A number is written in digits. -/
theorem isDigit_of_mem_decimal (member : char ∈ decimal number) : char.isDigit = true :=
  Nat.isDigit_of_mem_toDigits (by decide) (by decide) member

/-- No number is written without a digit. -/
theorem decimal_ne_nil (number : Nat) : decimal number ≠ [] := Nat.toDigits_ne_nil

/-- ASCII digits are the first of the decimal digits. -/
theorem isDecimalDigit_of_isDigit (digit : char.isDigit = true) : isDecimalDigit char = true := by
  have bounds : 0x30 ≤ char.toNat ∧ char.toNat ≤ 0x39 := Char.isDigit_iff_toNat.mp digit
  have above : ¬ char.toNat < 0x30 := by omega
  have within : char.toNat ≤ 0x39 := by omega
  obtain ⟨more, shape⟩ : ∃ more, digitRanges = (0x30, 0x39) :: more := ⟨_, rfl⟩
  rw [isDecimalDigit, shape, Text.within]
  simp [above, within]

/-- What comes before the ASCII digits is no digit. -/
theorem isDecimalDigit_of_lt (below : char.toNat < 0x30) : isDecimalDigit char = false := by
  obtain ⟨more, shape⟩ : ∃ more, digitRanges = (0x30, 0x39) :: more := ⟨_, rfl⟩
  rw [isDecimalDigit, shape, Text.within]
  simp [below]

/-- Reading ASCII digits from left to right gives the number that they denote. -/
theorem number?_eq_ofDigitChars {digits : Text} (nonempty : digits ≠ [])
    (ascii : ∀ char ∈ digits, char.isDigit = true) :
    number? digits = some (Nat.ofDigitChars 10 digits 0) := by
  have fold (value : Nat) : digits.foldl (fun value digit => value.bind fun so_far =>
      if digit.isDigit then some (so_far * 10 + (digit.toNat - '0'.toNat)) else none) (some value) =
      some (Nat.ofDigitChars 10 digits value) := by
    clear nonempty
    induction digits generalizing value with
    | nil => simp
    | cons first digits inductionHypothesis =>
      have head : first.isDigit = true := ascii first (by simp)
      have behind := inductionHypothesis (fun char member => ascii char (by simp [member]))
      rw [Nat.ofDigitChars_cons, ← behind]
      simp [head, Nat.mul_comm]
  have present : digits.isEmpty = false := by simpa using nonempty
  rw [number?, present]
  exact fold 0

/-- The digits of a number denote it. -/
@[simp] theorem number?_decimal (number : Nat) : number? (decimal number) = some number := by
  rw [number?_eq_ofDigitChars (decimal_ne_nil number) fun char member =>
    isDigit_of_mem_decimal member]
  exact congrArg some (Nat.ofDigitChars_toDigits (by decide) (by decide))

end ViewCompiler.Text
