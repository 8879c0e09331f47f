import ViewCompiler.Proofs.Text.Cutting
import ViewCompiler.Proofs.Text.Decimal
import ViewCompiler.Screen

/-!
# What stays of a status block

A status block takes the place of the one before it: the cursor goes up by the height of that
block, and everything from there on is cleared. The height is that of the text in lines, and what
the cursor has to cross are line feeds. They are as many as the lines unless the text itself ends
in a line feed, which begins no line of its own. Then the cursor stops one row short, and the first
row of the block stays on the screen for good. What was there before the first block always stays.
-/

namespace ViewCompiler

namespace Text

variable {text : Text}

/-- A character that breaks no row goes to the front of the first one. -/
theorem rows_cons {first : Char} (other : (first == '\n') = false) (rest : Text) :
    ∃ row more, rows rest = row :: more ∧ rows (first :: rest) = (first :: row) :: more :=
  pieces_cons first rest other

/-- A text has one row more than line feeds. -/
theorem rows_length (text : Text) : (rows text).length = text.count '\n' + 1 := by
  induction text with
  | nil => rfl
  | cons first rest inductionHypothesis =>
    cases feed : first == '\n' with
    | true =>
      obtain rfl := beq_iff_eq.mp feed
      simpa [rows, pieces] using inductionHypothesis
    | false =>
      obtain ⟨row, more, splits, joins⟩ := rows_cons feed rest
      rw [splits] at inductionHypothesis
      rw [joins, List.count_cons, feed]
      simpa using inductionHypothesis

/-- A text that ends in a line feed ends in an empty row. -/
theorem rows_feed (front : Text) : rows (front ++ ['\n']) = rows front ++ [[]] :=
  pieces_mark front [] rfl

/-- Any other character is in the last row. -/
theorem rows_concat (front : Text) {last : Char} (other : (last == '\n') = false) :
    ∃ before row, rows (front ++ [last]) = before ++ [row ++ [last]] := by
  induction front with
  | nil => exact ⟨[], [], pieces_of_free (by simpa using other)⟩
  | cons first rest inductionHypothesis =>
    obtain ⟨before, row, ends⟩ := inductionHypothesis
    cases feed : first == '\n' with
    | true =>
      obtain rfl := beq_iff_eq.mp feed
      refine ⟨[] :: before, row, ?_⟩
      rw [rows] at ends
      simp [rows, pieces, ends]
    | false =>
      obtain ⟨piece, more, splits, joins⟩ := rows_cons feed (rest ++ [last])
      rw [splits] at ends
      cases before with
      | nil =>
        obtain ⟨rfl, rfl⟩ := List.cons.inj ends
        exact ⟨[], first :: row, joins⟩
      | cons head before =>
        obtain ⟨rfl, rfl⟩ := List.cons.inj ends
        exact ⟨(first :: piece) :: before, row, joins⟩

/-- Every row is a line, but for an empty last one. -/
theorem settle_length (before : List Text) (row : Text) :
    (lines.settle (before ++ [row])).length = before.length + if row.isEmpty then 0 else 1 := by
  induction before with
  | nil => cases row <;> rfl
  | cons first before inductionHypothesis =>
    have several : before ++ [row] ≠ [] := by simp
    obtain ⟨second, more, splits⟩ := List.exists_cons_of_ne_nil several
    rw [splits] at inductionHypothesis
    rw [List.cons_append, splits, lines.settle, List.length_cons, inductionHypothesis,
      List.length_cons]
    · omega
    · intro alone
      cases alone

/-- A text that ends in a line feed has as many lines as line feeds, any other one more. -/
theorem lines_length (nonempty : text ≠ []) :
    (lines text).length + (if endsWith ['\n'] text then 1 else 0) = text.count '\n' + 1 := by
  obtain ⟨front, last, rfl⟩ := List.eq_nil_or_concat text |>.resolve_left nonempty
  have counts := rows_length (front ++ [last])
  rw [List.concat_eq_append]
  cases feed : last == '\n' with
  | true =>
    obtain rfl := beq_iff_eq.mp feed
    have ends : endsWith ['\n'] (front ++ ['\n']) = true := by
      rw [endsWith, beforeTail?_eq_some_iff.mpr rfl]
      rfl
    rw [← counts, rows_feed, if_pos ends, lines, rows_feed, settle_length]
    simp
  | false =>
    have ends : endsWith ['\n'] (front ++ [last]) = false := by
      rw [endsWith, Option.isSome_eq_false_iff, Option.isNone_iff_eq_none,
        Option.eq_none_iff_forall_ne_some]
      intro other found
      have same := List.append_inj_right' (beforeTail?_eq_some_iff.mp found) rfl
      obtain rfl := List.singleton_inj.mp same
      cases feed
    obtain ⟨before, row, splits⟩ := rows_concat front feed
    rw [← counts, ends, lines, splits, settle_length]
    simp

end Text

open Text

namespace Screen

/-- How many rows a text first moves the cursor up, if it then clears everything from there on,
and what it prints after that. -/
def upward? (text : Text) : Option (Nat × Text) :=
  (afterLead? (control []) text).bind fun sequence =>
    (number? (sequence.takeWhile Char.isDigit)).bind fun count =>
      (afterLead? ('A' :: control ['J']) (sequence.dropWhile Char.isDigit)).map fun printed =>
        (count, printed)

/-- The rows that a text takes that ends in a line feed, printed at the beginning of a row. -/
def printed (text : Text) : List Text := (rows text).dropLast

/-- The rows above the cursor after a text was printed, if the cursor stood at the beginning of
the first free row and everything printed ends in a line feed. -/
def after (above : List Text) (text : Text) : List Text :=
  match upward? text with
  | some (count, rest) => above.take (above.length - count) ++ printed rest
  | none => above ++ printed text

/-- A text takes a row for each of its line feeds. -/
theorem printed_length (text : Text) : (printed text).length = text.count '\n' := by
  rw [printed, List.length_dropLast, rows_length, Nat.add_sub_cancel]

/-- What clears some rows moves the cursor up by as many. -/
theorem upward?_clearUp (count : Nat) (rest : Text) :
    upward? (clearUp count ++ rest) = some (count, rest) := by
  have digits : ∀ char ∈ decimal count, char.isDigit = true := fun _ => isDigit_of_mem_decimal
  have sequence : afterLead? (control []) (clearUp count ++ rest) =
      some (decimal count ++ ('A' :: control ['J'] ++ rest)) := by
    rw [afterLead?_eq_some_iff]
    simp [clearUp, control]
  have taken : (decimal count ++ ('A' :: control ['J'] ++ rest)).takeWhile Char.isDigit =
      decimal count := by
    rw [List.takeWhile_append_of_pos digits]
    exact List.append_nil _
  have left : (decimal count ++ ('A' :: control ['J'] ++ rest)).dropWhile Char.isDigit =
      'A' :: control ['J'] ++ rest :=
    List.dropWhile_append_of_pos digits
  simp only [upward?, sequence, Option.bind_some, taken, number?_decimal, left]
  rw [afterLead?_eq_some_iff.mpr rfl]
  rfl

end Screen

namespace StatusBlock

open Screen

/-- What a status block tells. -/
inductive News
  | success (message : Text)
  | unchanged (message : Text)
  | error (summary detail : Text)

/-- A call for a status block, so many seconds after midnight of some day. -/
structure Call where
  seconds : Nat
  news : News

/-- Shows a status block in the place of the one before it. -/
def call (block : StatusBlock) (call : Call) : Text × StatusBlock :=
  match call.news with
  | .success message => block.success (clock call.seconds) message
  | .unchanged message => block.unchanged (clock call.seconds) message
  | .error summary detail => block.error (clock call.seconds) summary detail

/-- What is sent to the terminal by one call after the other. -/
def sent (block : StatusBlock) : List Call → List Text
  | [] => []
  | next :: calls => (block.call next).1 :: (block.call next).2.sent calls

namespace Call

/-- The text that the height of the block is told by. -/
def body (call : Call) : Text :=
  match call.news with
  | .success message => message
  | .unchanged message => dimmed message
  | .error summary detail => if detail = [] then summary else summary ++ "\n" ++ detail

/-- Whether the text ends in a line feed. -/
def isOpen (call : Call) : Bool := endsWith ['\n'] call.body

/-- The block itself, without what clears the one before it. -/
def block (call : Call) : Text := (({} : StatusBlock).call call).1

/-- The rows of a block that stay on the screen when the next one is shown: none as a rule, the
first one if its text ends in a line feed, and all if it is too high. -/
def stale (call : Call) : List Text :=
  if 0x10000 ≤ lineCount call.body then printed call.block
  else if call.isOpen then (printed call.block).take 1 else []

end Call

/-- The height of a text is by one less than the line feeds of its block if it ends in one. -/
theorem lineCount_eq (text : Text) :
    lineCount text + (if endsWith ['\n'] text then 1 else 0) = text.count '\n' + 1 := by
  by_cases empty : text = []
  · subst empty
    rfl
  · have lines := lines_length empty
    by_cases ends : endsWith ['\n'] text = true
    · have feeds : 0 < text.count '\n' := by
        obtain ⟨front, found⟩ := Option.isSome_iff_exists.mp ends
        rw [beforeTail?_eq_some_iff.mp found]
        simp
      rw [if_pos ends] at lines ⊢
      rw [lineCount]
      omega
    · rw [if_neg ends] at lines ⊢
      rw [lineCount]
      omega

/-- A number has no line feed. -/
theorem decimal_single (number : Nat) : (decimal number).count '\n' = 0 := by
  rw [List.count_eq_zero]
  intro member
  exact absurd (isDigit_of_mem_decimal member) (by decide)

/-- A clock is on one line. -/
theorem clock_single (seconds : Nat) : (clock seconds).count '\n' = 0 := by
  have digits (number : Nat) : (twoDigits number).count '\n' = 0 := by
    unfold twoDigits
    split
    · simpa using decimal_single number
    · exact decimal_single number
  simp [clock, digits]

/-- What clears a block prints no line feed. -/
theorem clearing_single (block : StatusBlock) : block.clearing.count '\n' = 0 := by
  unfold clearing
  split
  · simp [clearUp, Screen.control, escape, decimal_single]
  · rfl

/-- Showing a text clears the block before it, and prints one line feed more than the text has. What
it prints begins with the time and not with a move of the cursor. -/
theorem show_eq (before : StatusBlock) (seconds : Nat) (symbol : Option Text) (body : Text)
    (single : ∀ mark ∈ symbol, mark.count '\n' = 0) :
    let alone := (({} : StatusBlock).show_ (clock seconds) symbol body).1
    before.show_ (clock seconds) symbol body = (before.clearing ++ alone, ⟨lineCount body⟩) ∧
      upward? alone = none ∧ alone.count '\n' = body.count '\n' + 1 := by
  intro alone
  have time := clock_single seconds
  cases symbol with
  | none =>
    refine ⟨by simp [alone, show_, clearing], rfl, ?_⟩
    simp [alone, show_, clearing, dimmed, styled, Screen.control, escape, time]
  | some mark =>
    have own : mark.count '\n' = 0 := single mark rfl
    refine ⟨by simp [alone, show_, clearing], rfl, ?_⟩
    simp [alone, show_, clearing, dimmed, styled, Screen.control, escape, time, own]

/-- A call clears the block before it and prints its own one, which moves the cursor nowhere else
and has one line feed more than its text. The height is that of the text. -/
theorem call_eq (before : StatusBlock) (call : Call) :
    before.call call = (before.clearing ++ call.block, ⟨lineCount call.body⟩) ∧
      upward? call.block = none ∧ call.block.count '\n' = call.body.count '\n' + 1 := by
  obtain ⟨seconds, news⟩ := call
  cases news with
  | success message => exact before.show_eq seconds (some (green "✓")) message (by decide)
  | unchanged message => exact before.show_eq seconds none (dimmed message) nofun
  | error summary detail => exact before.show_eq seconds (some (red "✗")) _ (by decide)

/-- The height that a call leaves behind is told by its own text. -/
theorem call_height (before : StatusBlock) (call : Call) :
    (before.call call).2 = ⟨lineCount call.body⟩ := by
  rw [(before.call_eq call).1]

/-- A call on the height of a block prints its own block in the place of so many rows. -/
theorem after_call (above : List Text) (before : StatusBlock) (call : Call) :
    after above (before.call call).1 =
      (if before.height < 0x10000 then above.take (above.length - before.height) else above) ++
        printed call.block := by
  obtain ⟨calls, still, -⟩ := before.call_eq call
  rw [calls, clearing]
  by_cases none : before.height = 0
  · simp [none, after, still]
  · by_cases low : before.height < 0x10000
    · have clears : 0 < before.height ∧ before.height < 0x10000 := ⟨by omega, low⟩
      rw [if_pos clears, if_pos low, after, upward?_clearUp]
    · have stays : ¬ (0 < before.height ∧ before.height < 0x10000) := fun both => low both.2
      rw [if_neg stays, if_neg low, List.nil_append, after, still]

/-- The block of a call gives way to the next one but for what is stale of it. -/
theorem after_block (above : List Text) (earlier next : Call) :
    after (above ++ printed earlier.block) ((⟨lineCount earlier.body⟩ : StatusBlock).call next).1 =
      above ++ earlier.stale ++ printed next.block := by
  obtain ⟨-, -, feeds⟩ := ({} : StatusBlock).call_eq earlier
  have height := lineCount_eq earlier.body
  have rows := printed_length earlier.block
  rw [after_call, Call.stale, Call.isOpen]
  by_cases low : lineCount earlier.body < 0x10000
  · rw [if_pos low, if_neg (Nat.not_le.mpr low)]
    by_cases ends : endsWith ['\n'] earlier.body = true
    · rw [if_pos ends] at height ⊢
      have kept : (above ++ printed earlier.block).length - lineCount earlier.body =
          above.length + 1 := by
        rw [List.length_append]
        omega
      rw [kept, List.take_append, List.take_of_length_le (Nat.le_succ _), Nat.add_sub_cancel_left]
    · rw [if_neg ends] at height ⊢
      have kept : (above ++ printed earlier.block).length - lineCount earlier.body =
          above.length := by
        rw [List.length_append]
        omega
      rw [kept, List.take_left', List.append_nil]
      rfl
  · rw [if_neg low, if_pos (Nat.not_lt.mp low)]

/-- A run of calls after an earlier one leaves what is stale of each block but the last. -/
theorem after_sent (above : List Text) (earlier : Call) (calls : List Call) :
    ((⟨lineCount earlier.body⟩ : StatusBlock).sent calls).foldl after
        (above ++ printed earlier.block) =
      above ++ (earlier :: calls).dropLast.flatMap Call.stale ++
        printed ((earlier :: calls).getLast nofun).block := by
  induction calls generalizing above earlier with
  | nil => simp [sent]
  | cons next calls inductionHypothesis =>
    rw [sent, List.foldl_cons, after_block, call_height, inductionHypothesis]
    simp

/-- Each of the texts that are sent is of its own call, and goes by the height that the call before
it left. -/
theorem sent_getElem? (before : StatusBlock) {calls : List Call} {index : Nat} {call next : Call}
    (stands : calls[index]? = some call) (follows : calls[index + 1]? = some next) :
    (∃ block : StatusBlock, (before.sent calls)[index]? = some (block.call call).1) ∧
      (before.sent calls)[index + 1]? =
        some ((⟨lineCount call.body⟩ : StatusBlock).call next).1 := by
  induction calls generalizing before index with
  | nil => cases stands
  | cons first calls inductionHypothesis =>
    cases index with
    | zero =>
      obtain rfl := Option.some.inj stands
      obtain ⟨later, rfl⟩ : ∃ later, calls = next :: later := by
        cases calls with
        | nil => cases follows
        | cons second later => exact ⟨later, by rw [Option.some.inj follows]⟩
      refine ⟨⟨before, rfl⟩, ?_⟩
      rw [← before.call_height]
      rfl
    | succ index => exact inductionHypothesis _ stands follows

/-- A block leaves nothing behind exactly if it is not too high and its text ends in no line
feed. -/
theorem stale_eq_nil_iff (call : Call) :
    call.stale = [] ↔ lineCount call.body < 0x10000 ∧ call.isOpen = false := by
  obtain ⟨-, -, feeds⟩ := ({} : StatusBlock).call_eq call
  have rows : 0 < (printed call.block).length := by
    rw [printed_length, feeds]
    exact Nat.succ_pos _
  have nonempty : printed call.block ≠ [] := List.ne_nil_of_length_pos rows
  unfold Call.stale
  split
  · simp [nonempty, Nat.not_lt.mpr ‹_›]
  · split
    · simp [nonempty, ‹call.isOpen = true›]
    · simp [Nat.not_le.mp ‹_›, ‹¬ call.isOpen = true›]

/-- Whatever is shown in status blocks, one after the other: each one but the first moves the
cursor up by the line feeds of the one before it, or by one less if the text of that one ends in
a line feed, and clears everything from there on; on the screen then are the rows that were there
before, the rows that are stale of earlier blocks, and the last block; so only this and nothing of
an earlier one stays exactly if no earlier text is too high or ends in a line feed. -/
theorem blocks_replaced (above : List Text) (calls : List Call) :
    let texts := ({} : StatusBlock).sent calls
    let screen := texts.foldl after above
    let last := calls.getLast?.elim [] fun call => printed call.block
    (∀ index call, calls[index]? = some call → index + 1 < calls.length →
        lineCount call.body < 0x10000 → ∃ text next count rest, texts[index]? = some text ∧
          texts[index + 1]? = some next ∧ upward? next = some (count, rest) ∧
          text.count '\n' = count + if call.isOpen then 1 else 0) ∧
      screen = above ++ calls.dropLast.flatMap Call.stale ++ last ∧
      (screen = above ++ last ↔ ∀ call ∈ calls.dropLast,
        lineCount call.body < 0x10000 ∧ call.isOpen = false) := by
  intro texts screen last
  have shown : screen = above ++ calls.dropLast.flatMap Call.stale ++ last := by
    cases calls with
    | nil => simp [screen, last, texts, sent]
    | cons first calls =>
      have begun : after above (({} : StatusBlock).call first).1 = above ++ printed first.block := by
        rw [after_call]
        simp
      have run := after_sent above first calls
      rw [← begun, ← call_height {} first] at run
      simpa [screen, last, texts, sent, List.getLast?_eq_some_getLast] using run
  refine ⟨?_, shown, ?_⟩
  · intro index call stands further low
    have follows := List.getElem?_eq_getElem further
    obtain ⟨⟨block, own⟩, next⟩ := sent_getElem? {} stands follows
    obtain ⟨sends, -, feeds⟩ := block.call_eq call
    obtain ⟨clears, -, -⟩ := (⟨lineCount call.body⟩ : StatusBlock).call_eq calls[index + 1]
    have height := lineCount_eq call.body
    have positive : 0 < lineCount call.body := Nat.le_max_left 1 _
    refine ⟨_, _, lineCount call.body, calls[index + 1].block, own, next, ?_, ?_⟩
    · rw [clears, clearing, if_pos ⟨positive, low⟩]
      exact upward?_clearUp _ _
    · rw [sends, List.count_append, clearing_single, feeds, Call.isOpen, height, Nat.zero_add]
  · rw [shown, List.append_left_inj, List.append_right_eq_self, List.flatMap_eq_nil_iff]
    simp only [stale_eq_nil_iff]

/-- A summary with a detail that ends in a line feed, as a parser words its complaints: the next
block is printed one row below the first one. -/
theorem block_stale :
    let above : List Text := ["$"]
    let calls : List Call := [⟨0, .error "config reload failed" "no value\n"⟩, ⟨1, .success "compiled"⟩]
    let texts := ({} : StatusBlock).sent calls
    (texts.map fun text => (upward? text).map Prod.fst) = [none, some 2] ∧
      (texts.map fun text => text.count '\n') = [3, 1] ∧
      texts.foldl after above ≠ above ++ printed (calls.getLast (by simp)).block := by
  decide +kernel

end StatusBlock

end ViewCompiler
