import Mathlib.Data.List.Forall2
import ViewCompiler.Inquiry
import ViewCompiler.Proofs.Memory.Since

/-!
# What an inquiry depends on

An inquiry into a project in memory that keeps within some paths, whatever it is answered,
has the same answer on all states that agree on these paths. Nor does it matter which of
these states answers which of its questions.

Where no states need to agree, an inquiry still leads to some answers and not to others.
-/

namespace ViewCompiler.Inquiry

variable {α β : Type} {paths : List Text} {earlier later : Memory}

/-- An inquiry asks for no items but those at some paths, canonical as they stand, and
for no texts but of items at these paths, and only answers what `holds`. -/
def Within (paths : List Text) (holds : α → Prop) : Inquiry α → Prop
  | .answer value => holds value
  | .item path follow =>
    (path ∈ paths ∧ Logical.normalize path = some path) ∧
      ∀ present, (follow { path, present }).Within paths holds
  | .text asked follow =>
    (asked.present = true → asked.path ∈ paths ∧ Logical.normalize asked.path = some asked.path) ∧
      ∀ read, (follow read).Within paths holds

variable {holds : α → Prop} {inquiry : Inquiry α}

/-- Going on with what keeps within the paths keeps within the paths. -/
theorem within_andThen {then_ : β → Prop} {rest : α → Inquiry β}
    (first : inquiry.Within paths holds)
    (second : ∀ value, holds value → (rest value).Within paths then_) :
    (inquiry.andThen rest).Within paths then_ := by
  induction inquiry with
  | answer value => exact second value first
  | item path follow inductionHypothesis =>
    exact ⟨first.1, fun present => inductionHypothesis _ (first.2 present)⟩
  | text asked follow inductionHypothesis =>
    exact ⟨first.1, fun read => inductionHypothesis _ (first.2 read)⟩

variable {P Token : Type} [Project P Token]

/-- The answer of what goes on from an answer. -/
theorem run_andThen (project : P) (rest : α → Inquiry β) :
    (inquiry.andThen rest).run project = (rest (inquiry.run project)).run project := by
  induction inquiry with
  | answer value => rfl
  | item path follow inductionHypothesis => exact inductionHypothesis _
  | text asked follow inductionHypothesis => exact inductionHypothesis _

/-- What stops at an error only has a result if what came first had one. -/
theorem run_andThen_ok {ε : Type} {project : P} {first : Inquiry (Except ε α)}
    {rest : Except ε α → Inquiry (Except ε β)} {result : β}
    (given : (first.andThen rest).run project = .ok result)
    (stops : ∀ fault, rest (.error fault) = .answer (.error fault)) :
    ∃ value, first.run project = .ok value ∧ (rest (.ok value)).run project = .ok result := by
  rw [run_andThen] at given
  cases own : first.run project with
  | error fault =>
    rw [own, stops] at given
    cases given
  | ok value =>
    rw [own] at given
    exact ⟨value, rfl, given⟩

/-- To ask for each of several items is to get the answer for each. -/
theorem run_each (project : P) (ask : α → Inquiry β) (items : List α) :
    (each ask items).run project = items.map fun item => (ask item).run project := by
  induction items with
  | nil => rfl
  | cons first items inductionHypothesis =>
    simp only [each, run_andThen, inductionHypothesis, List.map_cons, run]

/-- Many inquiries keep within the paths if each one does. -/
theorem within_each {ask : α → Inquiry β} {items : List α}
    (single : ∀ item ∈ items, (ask item).Within paths fun _ => True) :
    (each ask items).Within paths fun _ => True := by
  induction items with
  | nil => trivial
  | cons first items inductionHypothesis =>
    apply within_andThen (single first (by simp))
    intro value _
    refine within_andThen (inductionHypothesis fun item member => single item (by simp [member]))
      fun values _ => ?_
    trivial

/-- The item at a path is the same as far as the path is. -/
theorem item_congr {path : Text} (agree : Memory.Agree paths earlier later)
    (member : path ∈ paths) : later.item path = earlier.item path := by
  unfold Memory.item
  cases normal : Logical.normalize path with
  | none => rfl
  | some canonical =>
    have same := Memory.content?_congr (agree path member canonical normal)
    simp only [same]

/-- The text of an item is the same as far as its path is. -/
theorem text_congr {asked : Item} (agree : Memory.Agree paths earlier later)
    (known : asked.present = true → asked.path ∈ paths ∧
      Logical.normalize asked.path = some asked.path) :
    Project.text later asked = Project.text earlier asked := by
  unfold Project.text
  cases present : asked.present with
  | false => rfl
  | true =>
    obtain ⟨member, canonical⟩ := known present
    have same := Memory.content?_congr (agree asked.path member asked.path canonical)
    have octets : later.octets asked = earlier.octets asked := by
      unfold Memory.octets
      rw [same]
    have asked_ : Project.octets later asked = Project.octets earlier asked := octets
    rw [asked_]

/-- The item at a canonical path is found under this path. -/
theorem item_canonical {path : Text} (memory : Memory)
    (canonical : Logical.normalize path = some path) :
    Project.item memory path = { path, present := (memory.content? path).isSome } := by
  have found : memory.item path = { path, present := (memory.content? path).isSome } := by
    unfold Memory.item
    rw [canonical]
  exact found

/-- The first question may be answered by any state. -/
theorem within_step (memory : Memory) (within : inquiry.Within paths holds) :
    (inquiry.step memory).Within paths holds := by
  cases inquiry with
  | answer value => exact within
  | item path follow =>
    rw [step, item_canonical memory within.1.2]
    exact within.2 _
  | text asked follow => exact within.2 _

/-- Answering the first question first makes no difference. -/
theorem run_step (project : P) (inquiry : Inquiry α) :
    (inquiry.step project).run project = inquiry.run project := by
  cases inquiry <;> rfl

/-- States that agree on the paths give the same answer. -/
theorem run_congr (agree : Memory.Agree paths earlier later) (within : inquiry.Within paths holds) :
    inquiry.run later = inquiry.run earlier := by
  induction inquiry with
  | answer value => rfl
  | item path follow inductionHypothesis =>
    have same : Project.item later path = Project.item earlier path := item_congr agree within.1.1
    have found := within_step earlier within
    simp only [run, same]
    exact inductionHypothesis _ found
  | text asked follow inductionHypothesis =>
    simp only [run, text_congr agree within.1]
    exact inductionHypothesis _ (within.2 _)

/-- An inquiry answers what `holds`, whichever states of a project it is about. -/
def LeadsTo (holds : α → Prop) : Inquiry α → Prop
  | .answer value => holds value
  | .item path follow => ∀ memory : Memory, (follow (memory.item path)).LeadsTo holds
  | .text _ follow => ∀ read, (follow read).LeadsTo holds

/-- What is asked after an inquiry is asked about one of its answers. -/
theorem leadsTo_andThen {then_ : β → Prop} {rest : α → Inquiry β} (first : inquiry.LeadsTo holds)
    (second : ∀ value, holds value → (rest value).LeadsTo then_) :
    (inquiry.andThen rest).LeadsTo then_ := by
  induction inquiry with
  | answer value => exact second value first
  | item path follow inductionHypothesis =>
    intro memory
    exact inductionHypothesis _ (first memory)
  | text asked follow inductionHypothesis =>
    intro read
    exact inductionHypothesis _ (first read)

/-- Many inquiries answer what holds of each one. -/
theorem leadsTo_each {relation : α → β → Prop} {ask : α → Inquiry β} {items : List α}
    (single : ∀ item, (ask item).LeadsTo (relation item)) :
    (each ask items).LeadsTo (List.Forall₂ relation items) := by
  induction items with
  | nil => exact List.Forall₂.nil
  | cons first items inductionHypothesis =>
    apply leadsTo_andThen (single first)
    intro value own
    exact leadsTo_andThen inductionHypothesis fun values related => List.Forall₂.cons own related

/-- What an inquiry leads to it still leads to after a step. -/
theorem leadsTo_step (memory : Memory) (leads : inquiry.LeadsTo holds) :
    (inquiry.step memory).LeadsTo holds := by
  cases inquiry with
  | answer value => exact leads
  | item path follow => exact leads memory
  | text asked follow => exact leads _

/-- An inquiry that is made of a project answers what it leads to. -/
theorem run_leadsTo (memory : Memory) (leads : inquiry.LeadsTo holds) :
    holds (inquiry.run memory) := by
  induction inquiry with
  | answer value => exact leads
  | item path follow inductionHypothesis => exact inductionHypothesis _ (leads memory)
  | text asked follow inductionHypothesis => exact inductionHypothesis _ (leads _)

end ViewCompiler.Inquiry
