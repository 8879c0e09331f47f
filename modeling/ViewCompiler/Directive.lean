import ViewCompiler.Document
import ViewCompiler.Text.Blank
import ViewCompiler.Text.Letters

/-!
# Directives

A directive stands alone on its line: blanks, `@`, a keyword, and its value up to the
end of the line. The keyword ends where its word ends, so `@models` is no directive.
A parenthesis after the keyword makes the line code, not a directive.

A directive is accepted or refused by itself and by the directives accepted before it
in the same document.
-/

namespace ViewCompiler

open Text

/-- The kinds of directives. -/
inductive DirectiveKind
  /-- A namespace whose names may be used. -/
  | opens
  /-- A property filled in when a page is made. -/
  | inject
  /-- The type of the page's model. -/
  | model
  /-- The base type of the page. -/
  | inherits
  /-- The namespace of the page. -/
  | within
  /-- The template is a page, possibly with a route. -/
  | page
  | addTagHelper
  | removeTagHelper
  | tagHelperPrefix
deriving DecidableEq, Repr

namespace DirectiveKind

/-- The keyword of a kind. -/
def keyword : DirectiveKind → Text
  | .opens => "using"
  | .inject => "inject"
  | .model => "model"
  | .inherits => "inherits"
  | .within => "namespace"
  | .page => "page"
  | .addTagHelper => "addTagHelper"
  | .removeTagHelper => "removeTagHelper"
  | .tagHelperPrefix => "tagHelperPrefix"

/-- All kinds. -/
def all : List DirectiveKind :=
  [.opens, .inject, .model, .inherits, .within, .page, .addTagHelper, .removeTagHelper, .tagHelperPrefix]

/-- Whether a kind may be accepted only once in a document. -/
def isSingle : DirectiveKind → Bool
  | .model | .inherits | .page | .within => true
  | _ => false

/-- Whether a kind is nothing without a value; only a page need not have a route. -/
def needsValue (kind : DirectiveKind) : Bool := kind != .page

end DirectiveKind

/-- A directive as accepted, with the line it stands on and the columns from its `@`
to just past its last character that is not blank. -/
structure Directive where
  kind : DirectiveKind
  value : Text
  line : Nat
  column : Nat
  endColumn : Nat
deriving DecidableEq, Repr

/-- Why a directive or a code block is refused. -/
inductive DirectiveFault
  /-- An import file cannot be a page. -/
  | pageInImport
  /-- There is no value. -/
  | noValue (kind : DirectiveKind)
  /-- An injection has a type or a name, but not both. -/
  | noName
  /-- A directive of this kind was accepted before. -/
  | repeated (kind : DirectiveKind)
  /-- A code block is open at the end of the document. -/
  | openBlock
deriving DecidableEq, Repr

/-- The wording of a fault. -/
def DirectiveFault.message : DirectiveFault → Text
  | .pageInImport => "The 'page' directive is not allowed in import files."
  | .noValue kind => "The '" ++ kind.keyword ++ "' directive expects a value."
  | .noName => "The 'inject' directive expects a type name followed by a property name."
  | .repeated kind => "Only one '" ++ kind.keyword ++ "' statement is allowed in a file."
  | .openBlock =>
    "The code block is missing a closing \"\x7d\" character. Make sure you have a matching " ++
      "\"\x7d\" character for all the \"\x7b\" characters within this block."

/-- Whether a word goes on at the beginning of the text. -/
def continuesWord : Text → Bool
  | [] => false
  | first :: _ => isWordChar first

/-- A text without one pair of double quotes around it. -/
def unquote (value : Text) : Text :=
  match value with
  | '"' :: inner => (beforeTail? ['"'] inner).getD value
  | _ => value

namespace Directive

/-- A directive as it stands on a line: the column of its `@`, its kind, and the rest of
the line after the keyword. -/
structure Written where
  column : Nat
  kind : DirectiveKind
  rest : Text

/-- Reads a line as a directive. -/
def read? (line : Text) : Option Written :=
  match line.dropWhile isBlank with
  | '@' :: body => do
    let (kind, rest) ← DirectiveKind.all.findSome? fun kind =>
      match afterLead? kind.keyword body with
      | some rest => if continuesWord rest then none else some (kind, rest)
      | none => none
    if beginsWith ['('] (trimStart rest) then none
    else some ⟨(line.takeWhile isBlank).length, kind, rest⟩
  | _ => none

/-- Why a directive is refused, if it is, given the kinds accepted before it. -/
def fault? (accepted : List DirectiveKind) (inImport : Bool) (kind : DirectiveKind) (value : Text) :
    Option DirectiveFault :=
  if kind = .page ∧ inImport then some .pageInImport
  else if kind.needsValue ∧ value = [] then some (.noValue kind)
  else if kind = .inject ∧ (cutLast? isBlank value).isNone then some .noName
  else if kind.isSingle ∧ kind ∈ accepted then some (.repeated kind)
  else none

end Directive

end ViewCompiler
