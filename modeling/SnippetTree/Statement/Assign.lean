import SnippetTree.Text.Blank

/-!
# Assignment operators

A line is split at its first assignment operator. An equals sign is one unless it is part of a
comparison: unless `=`, `!`, `<` or `>` stands before it or another `=` after it. An arithmetic
sign right before it belongs to it, unless that sign itself comes after a comparison mark.
-/

namespace SnippetTree

/-- The operators that assign. -/
inductive AssignOp where
  | set
  | add
  | subtract
  | multiply
  | divide
  | remainder
  deriving DecidableEq, Repr

namespace AssignOp

/-- How an operator is written. -/
def text : AssignOp → String
  | set => "="
  | add => "+="
  | subtract => "-="
  | multiply => "*="
  | divide => "/="
  | remainder => "%="

/-- The operator that an arithmetic sign makes with an equals sign after it. -/
def ofSign? : Char → Option AssignOp
  | '+' => some add
  | '-' => some subtract
  | '*' => some multiply
  | '/' => some divide
  | '%' => some remainder
  | _ => none

end AssignOp

/-- A text split at an assignment operator. -/
structure AssignSplit where
  target : Text
  operator : AssignOp
  value : Text
  deriving DecidableEq, Repr

namespace Text

/-- A character that makes an equals sign after it part of a comparison. -/
def isComparisonMark (c : Char) : Bool :=
  c == '=' || c == '!' || c == '<' || c == '>'

/-- The text after an equals sign that begins here and is not doubled. -/
def afterEquals? : Text → Option Text
  | '=' :: rest => if rest.head? = some '=' then none else some rest
  | _ => none

/-- The assignment operator that begins with the first character of a text, with what follows it.
`previous` is the character before the text. -/
def assignOpAt? (previous : Option Char) : Text → Option (AssignOp × Text)
  | [] => none
  | c :: rest =>
    if previous.any isComparisonMark then none
    else match AssignOp.ofSign? c with
      | some operator => (afterEquals? rest).map (operator, ·)
      | none => (afterEquals? (c :: rest)).map (.set, ·)

/-- Splits a text at its first assignment operator; `before`, back to front, has been passed. -/
def splitAssignFrom (before : Text) : Text → Option AssignSplit
  | [] => none
  | c :: rest =>
    match assignOpAt? before.head? (c :: rest) with
    | some (operator, value) => some ⟨trim before.reverse, operator, trim value⟩
    | none => splitAssignFrom (c :: before) rest

/-- Splits a text at its first assignment operator. -/
def splitAssign? (text : Text) : Option AssignSplit :=
  splitAssignFrom [] text

end Text

end SnippetTree
