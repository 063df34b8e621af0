import SnippetTree.Settings
import SnippetTree.Note

/-!
# Programs

A snippet of flat expressions is one reading; a snippet of lines is the statements of its lines.
The tree of a program puts functions first, then the declarations and then all other statements,
the latter two under a node of their own. The nodes of a statement are numbered with its line, so
that regrouping leaves the numbers as they are.
-/

namespace SnippetTree

/-- What a snippet was understood as. -/
inductive Program where
  | expression (r : Reading)
  | lines (statements : List Statement)
  deriving Repr

namespace Program

open SnippetTree.Numbering

/-- The trees of those statements that satisfy `p`, in their order. -/
def select (p : Statement → Bool) (statements : List Statement) (trees : List Tree) : List Tree :=
  ((statements.zip trees).filter fun (statement, _) => p statement).map (·.2)

/-- The children of the root of a program. -/
def toTrees : Program → Numbering (List Tree)
  | expression r => do
    let t ← r.toTree
    return [← group .statementsGroup "Statements" [t]]
  | lines statements => do
    let trees ← statements.mapM Statement.toTree
    let functions := select Statement.isFunction statements trees
    let declarations ← groupIfAny .declarationsGroup "Declarations"
      (select Statement.isDeclaration statements trees)
    let others ← groupIfAny .statementsGroup "Statements"
      (select (fun s => !s.isFunction && !s.isDeclaration) statements trees)
    return functions ++ declarations ++ others

/-- The tree of a program. Its root has the first number. -/
def toTree (title : Lexeme) (program : Program) : Numbering Tree := do
  let id ← fresh
  return .mk id .program title .keyword (← program.toTrees) false

end Program

/-- A program with the warnings and the notes that belong to it. -/
structure Understood where
  program : Program
  warnings : List Warning
  notes : List Note

/-- The lines of a snippet that are neither blank nor comments, trimmed, with their numbers counted
from one. -/
def Settings.codeLines (settings : Settings) (text : Text) : List (Int × Text) :=
  let numbered := (Text.lines text).zipIdx 1
  (numbered.map fun (line, number) => ((number : Int), Text.trim line)).filter
    fun (_, line) => !line.isEmpty && !settings.isComment line

namespace Reader

/-- What becomes of each line of a snippet. -/
def outcomes (r : Reader) (settings : Settings) (text : Text) :
    Except Fault (List (Int × Outcome)) :=
  (settings.codeLines text).mapM fun (number, line) => do
    return (number, ← r.classify Rule.standard line)

/-- Understands a snippet of lines. -/
def readLines (r : Reader) (settings : Settings) (text : Text) : Except Fault Understood := do
  let outcomes ← r.outcomes settings text
  return {
    program := .lines (outcomes.filterMap fun (_, outcome) => outcome.statement?)
    warnings := outcomes.flatMap fun (line, outcome) => outcome.warnings line
    notes := outcomes.flatMap fun (line, outcome) => Note.ofOutcome line outcome }

/-- Understands a snippet that is one expression. It counts as the first line. -/
def readExpression (r : Reader) (text : Text) : Understood :=
  let reading := r.read (Text.trim text)
  { program := .expression reading.value
    warnings := reading.problems.map fun problem => ⟨problem, 1⟩
    notes := Note.ofProblems 1 reading.problems }

/-- Understands a snippet. -/
def understand (r : Reader) (settings : Settings) (text : Text) : Except Fault Understood :=
  if r.spec.dialect.isLineOriented then r.readLines settings text
  else .ok (r.readExpression text)

end Reader

end SnippetTree
