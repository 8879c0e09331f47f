import ViewCompiler.Toml
import ViewCompiler.Toml.Quoted

/-!
# Numbers, dates and truth values of TOML

Integers are decimal with an optional sign, or hexadecimal, octal or binary without one,
and have 64 bits. Between two digits there may be an underscore. A number with a
fraction or an exponent is a float, and so are the infinities and what is not a number;
a positive float that is too great for a double is refused. A date has a month and a day
that the calendar has; a time of day may have a leap second.

Every reader gives what it read and what follows it.
-/

namespace ViewCompiler.Toml.Scalar

open Text

/-- More digits of a number, with single underscores between digits. -/
def moreDigits? (isDigit : Char → Bool) : Text → Option (Text × Text)
  | '_' :: digit :: rest =>
    if isDigit digit then (moreDigits? isDigit rest).map fun (digits, rest) => (digit :: digits, rest) else none
  | ['_'] => none
  | char :: rest =>
    if isDigit char then (moreDigits? isDigit rest).map fun (digits, rest) => (char :: digits, rest)
    else some ([], char :: rest)
  | [] => some ([], [])

/-- The digits of a number, at least one, without the underscores. -/
def digits? (isDigit : Char → Bool) : Text → Option (Text × Text)
  | first :: rest =>
    if isDigit first then (moreDigits? isDigit rest).map fun (digits, rest) => (first :: digits, rest) else none
  | [] => none

/-- The number that digits denote in a base. -/
def numberIn (base : Nat) (digits : Text) : Nat :=
  digits.foldl (fun value digit => value * base + (Quoted.hexDigit? digit).getD 0) 0

/-- Whether a text begins with a minus sign, and what follows a sign. -/
def sign : Text → Bool × Text
  | '-' :: rest => (true, rest)
  | '+' :: rest => (false, rest)
  | text => (false, text)

/-- Decimal digits without a zero in front of others. -/
def wholeDigits? : Text → Option (Text × Text)
  | '0' :: rest => some (['0'], rest)
  | text => digits? Char.isDigit text

/-- An integer with its sign, if it has 64 bits. -/
def bounded? (negative : Bool) (magnitude : Nat) : Option Toml :=
  if negative then (if magnitude ≤ 0x8000000000000000 then some (.integer (-(magnitude : Int))) else none)
  else if magnitude < 0x8000000000000000 then some (.integer magnitude) else none

/-- An integer in a base that is not ten. -/
def radix? (base : Nat) (isDigit : Char → Bool) (text : Text) : Option (Toml × Text) := do
  let (digits, rest) ← digits? isDigit text
  let value ← bounded? false (numberIn base digits)
  return (value, rest)

/-- Whether `mantissa * 10 ^ exponent` is rounded to infinity as a double: it is at least
half a unit above the greatest finite one. -/
def isHuge (mantissa : Nat) (exponent : Int) : Bool :=
  let size := (decimal mantissa).length + exponent
  if mantissa = 0 ∨ size < 300 then false
  else if 320 < size then true
  else
    let bound := 1 <<< 1024 - 1 <<< 970
    if 0 ≤ exponent then bound ≤ mantissa * Nat.pow 10 exponent.toNat
    else bound * Nat.pow 10 (-exponent).toNat ≤ mantissa

/-- The exponent of a float, zero if there is none. -/
def exponent? : Text → Option (Int × Text)
  | mark :: rest =>
    if mark = 'e' ∨ mark = 'E' then do
      let (negative, rest) := sign rest
      let (digits, rest) ← digits? Char.isDigit rest
      let size : Int := numberIn 10 digits
      return (if negative then -size else size, rest)
    else some (0, mark :: rest)
  | [] => some (0, [])

/-- A float, unless it is positive and huge. -/
def float? (negative : Bool) (whole fraction : Text) (text : Text) : Option (Toml × Text) := do
  let (exponent, rest) ← exponent? text
  if !negative && isHuge (numberIn 10 (whole ++ fraction)) (exponent - fraction.length) then none
  return (.float, rest)

/-- An integer in decimal digits, or a float. -/
def decimal? (text : Text) : Option (Toml × Text) := do
  let (negative, unsigned) := sign text
  if beginsWith "inf" unsigned || beginsWith "nan" unsigned then return (.float, unsigned.drop 3)
  let (whole, rest) ← wholeDigits? unsigned
  match rest with
  | '.' :: rest =>
    let (fraction, rest) ← digits? Char.isDigit rest
    float? negative whole fraction rest
  | 'e' :: _ | 'E' :: _ => float? negative whole [] rest
  | _ => return (← bounded? negative (numberIn 10 whole), rest)

/-- A number. -/
def number? (text : Text) : Option (Toml × Text) :=
  match text with
  | '0' :: 'x' :: rest => radix? 16 (fun char => (Quoted.hexDigit? char).isSome) rest
  | '0' :: 'o' :: rest => radix? 8 (fun char => '0' ≤ char && char ≤ '7') rest
  | '0' :: 'b' :: rest => radix? 2 (fun char => char == '0' || char == '1') rest
  | _ => decimal? text

/-- A number of exactly `size` digits between two bounds. -/
def fixed? (size low high : Nat) (text : Text) : Option (Nat × Text) :=
  let digits := text.take size
  let value := numberIn 10 digits
  if digits.length = size ∧ digits.all Char.isDigit ∧ low ≤ value ∧ value ≤ high then
    some (value, text.drop size)
  else none

/-- How many days a month has. -/
def daysIn (year month : Nat) : Nat :=
  if month = 2 then
    if year % 4 = 0 ∧ (year % 100 ≠ 0 ∨ year % 400 = 0) then 29 else 28
  else if month ∈ [4, 6, 9, 11] then 30
  else 31

/-- What follows a date. -/
def afterDate? (text : Text) : Option Text := do
  let (year, rest) ← fixed? 4 0 9999 text
  let rest ← afterLead? ['-'] rest
  let (month, rest) ← fixed? 2 1 12 rest
  let rest ← afterLead? ['-'] rest
  let (_, rest) ← fixed? 2 1 (daysIn year month) rest
  return rest

/-- The text without a fraction of a second that it begins with. -/
def afterFraction : Text → Text
  | '.' :: rest => if (rest.takeWhile Char.isDigit).isEmpty then '.' :: rest else rest.dropWhile Char.isDigit
  | text => text

/-- What follows a time of day. -/
def afterTime? (text : Text) : Option Text := do
  let (_, rest) ← fixed? 2 0 23 text
  let rest ← afterLead? [':'] rest
  let (_, rest) ← fixed? 2 0 59 rest
  let rest ← afterLead? [':'] rest
  let (_, rest) ← fixed? 2 0 60 rest
  return afterFraction rest

/-- What follows the distance from universal time. -/
def afterOffset? : Text → Option Text
  | 'Z' :: rest | 'z' :: rest => some rest
  | mark :: rest => do
    if mark ≠ '+' ∧ mark ≠ '-' then none
    let (_, rest) ← fixed? 2 0 23 rest
    let rest ← afterLead? [':'] rest
    let (_, rest) ← fixed? 2 0 59 rest
    return rest
  | [] => none

/-- What follows a time of day, possibly with its distance from universal time, that is
set off from a date. -/
def afterDateTime? : Text → Option Text
  | mark :: rest =>
    if mark ∈ ['T', 't', ' '] then (afterTime? rest).map fun rest => (afterOffset? rest).getD rest
    else none
  | [] => none

/-- A date, a time of day, or both. -/
def moment? (text : Text) : Option (Toml × Text) :=
  match afterDate? text with
  | some rest => some (.moment, (afterDateTime? rest).getD rest)
  | none => (afterTime? text).map fun rest => (.moment, rest)

/-- A value that is neither quoted nor bracketed. -/
def read? (text : Text) : Option (Toml × Text) :=
  match afterLead? "true" text with
  | some rest => some (.boolean true, rest)
  | none =>
  match afterLead? "false" text with
  | some rest => some (.boolean false, rest)
  | none =>
  match moment? text with
  | some read => some read
  | none => number? text

end ViewCompiler.Toml.Scalar
