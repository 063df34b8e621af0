import SnippetTree.Statement.Rule

/-!
# What becomes of a line

A line is brought into normal form, a rule is chosen for it, and the rule takes a statement out.
What becomes of a line depends on nothing but the line, the tables and the rules: no state is
carried from one line to the next.
-/

namespace SnippetTree

namespace Text

/-- A character of which lines without any statement consist. -/
def isStructural (c : Char) : Bool :=
  c == '\x7b' || c == '\x7d' || c == ';'

/-- The line without white space on either side and, unless nothing else would be left, without
the closing braces that it begins with. -/
def normalize (line : Text) : Text :=
  let text := trim line
  if text.head? == some '\x7d' && !text.all isStructural then
    trim (text.dropWhile (· == '\x7d'))
  else text

end Text

/-- What becomes of a line. -/
inductive Outcome where
  /-- There is nothing on the line. -/
  | blank
  /-- The line only opens, closes or ends something. -/
  | structural
  | kept (rule : Rule) (statement : Statement) (problems : List Problem)
  /-- The rule found no statement in the line. -/
  | dropped (rule : Rule) (text : Lexeme) (problems : List Problem)
  deriving Repr

namespace Outcome

/-- The statement of a line, if it has one. -/
def statement? : Outcome → Option Statement
  | kept _ statement _ => some statement
  | blank | structural | dropped _ _ _ => none

/-- The problems of a line; that it was dropped is the last of them. -/
def problems : Outcome → List Problem
  | blank | structural => []
  | kept _ _ problems => problems
  | dropped _ text problems => problems ++ [.droppedLine text]

/-- The problems of a line as warnings about it. -/
def warnings (outcome : Outcome) (line : Int) : List Warning :=
  outcome.problems.map fun problem => ⟨problem, line⟩

/-- The tree of the statement of a line, if it has one. -/
def toTree (outcome : Outcome) : Numbering (Option Tree) :=
  outcome.statement?.mapM Statement.toTree

end Outcome

/-- What becomes of a line under a table of rules. -/
def Reader.classify (r : Reader) (rules : List Rule) (line : Text) : Except Fault Outcome := do
  let text := Text.normalize line
  if text.isEmpty then return .blank
  else if text.all Text.isStructural then return .structural
  else
    let rule ← Rule.choose rules r.spec text
    let found ← rule.extract r text
    match found.value with
    | some statement => return .kept rule statement found.problems
    | none => return .dropped rule (String.ofList text) found.problems

/-- Classifies a line and numbers the nodes of its statement, if it has one, from `first` on. -/
def Reader.nodeFrom (r : Reader) (rules : List Rule) (line : Text) (first : Int) :
    Except Fault (Report (Option Tree × Int)) := do
  let outcome ← r.classify rules line
  return ⟨outcome.toTree.run first, outcome.problems⟩

end SnippetTree
