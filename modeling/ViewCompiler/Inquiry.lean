import ViewCompiler.Project

/-!
# Inquiries into a project

A computation that looks at a project one question at a time: which item is at a path,
and what an item's text is. Written down as the questions and what follows from each
answer, it can be run on one state of the project, or one question at a time while the
project changes in between.
-/

namespace ViewCompiler

/-- A computation that asks a project. -/
inductive Inquiry (α : Type) : Type
  /-- Nothing more to ask. -/
  | answer (value : α)
  /-- Asks for the item at a path. -/
  | item (path : Text) (follow : Item → Inquiry α)
  /-- Asks for the text of an item. -/
  | text (item : Item) (follow : Except ReadFault Text → Inquiry α)

namespace Inquiry

variable {α β : Type}

/-- Goes on with what follows from the answer. -/
def andThen : Inquiry α → (α → Inquiry β) → Inquiry β
  | .answer value, rest => rest value
  | .item path follow, rest => .item path fun found => (follow found).andThen rest
  | .text asked follow, rest => .text asked fun read => (follow read).andThen rest

instance : Monad Inquiry where
  pure := .answer
  bind := andThen

/-- The answer on one state of a project. -/
def run {P Token : Type} [Project P Token] (project : P) : Inquiry α → α
  | .answer value => value
  | .item path follow => (follow (Project.item project path)).run project
  | .text asked follow => (follow (Project.text project asked)).run project

/-- What is left to ask after the first question was answered by a project. -/
def step {P Token : Type} [Project P Token] (project : P) : Inquiry α → Inquiry α
  | .answer value => .answer value
  | .item path follow => follow (Project.item project path)
  | .text asked follow => follow (Project.text project asked)

/-- The item at a path. -/
def itemAt (path : Text) : Inquiry Item := .item path .answer

/-- The text of an item. -/
def textOf (found : Item) : Inquiry (Except ReadFault Text) := .text found .answer

/-- One answer for each member of a list, in order. -/
def each (ask : α → Inquiry β) : List α → Inquiry (List β)
  | [] => .answer []
  | first :: rest => (ask first).andThen fun value => (each ask rest).andThen fun values => .answer (value :: values)

end Inquiry

end ViewCompiler
