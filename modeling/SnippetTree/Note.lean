import SnippetTree.Statement.Outcome

/-!
# Notes

Notes tell what the library decided, for whoever wants to follow it step by step. They are made
from the decisions themselves, so they cannot disagree with them.
-/

namespace SnippetTree

/-- A decision worth telling. -/
inductive Note where
  /-- A text was kept raw. -/
  | keptRaw (line : Int) (text : Lexeme)
  /-- A line holds nothing but structure. -/
  | structural (line : Int)
  | classified (line : Int) (rule : Rule)
  /-- A rule found nothing in a line. -/
  | dropped (line : Int) (rule : Rule) (text : Lexeme)
  /-- Another dialect was used in place of an unknown one. -/
  | replacedDialect (name : String) (used : Dialect)
  | built (dialect : Dialect) (nodes : Int) (warnings : Nat)
  deriving DecidableEq, Repr

namespace Note

/-- The words of a note about a line. -/
def atLine (line : Int) (words : String) : String :=
  "line " ++ toString line ++ ": " ++ words

/-- The words of a note. -/
def message : Note → String
  | keptRaw line text => atLine line ("no expression in " ++ quoted text ++ ", keeping raw text")
  | structural line => atLine line "structural only, skipped"
  | classified line rule => atLine line ("classified as " ++ rule.name)
  | dropped line rule text =>
    atLine line ("rule " ++ rule.name ++ " produced nothing for " ++ quoted text)
  | replacedDialect name used => "unknown dialect " ++ quoted name ++ ", using " ++ used.label
  | built dialect nodes warnings =>
    "built " ++ dialect.label ++ " tree with " ++ toString nodes ++ " nodes and " ++
      toString warnings ++ " warnings"

/-- The notes about the texts that were kept raw, according to the problems of a line. -/
def ofProblems (line : Int) (problems : List Problem) : List Note :=
  problems.filterMap fun
    | .keptRaw text => some (keptRaw line text)
    | _ => none

/-- The notes about a line. -/
def ofOutcome (line : Int) : Outcome → List Note
  | .blank => []
  | .structural => [structural line]
  | .kept rule _ problems => ofProblems line problems ++ [classified line rule]
  | .dropped rule text problems => ofProblems line problems ++ [dropped line rule text]

end Note

end SnippetTree
