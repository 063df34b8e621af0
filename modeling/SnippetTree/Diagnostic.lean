import SnippetTree.Text.Basic
import SnippetTree.Text.Uppercase
import SnippetTree.Text.Quoted

/-!
# Diagnostics

A diagnostic is a remark about the input as a reader sees it. It names a whole line and no column,
since snippets are read line by line; line nought stands for no line in particular.
-/

namespace SnippetTree

/-- A remark about the input. -/
structure Diagnostic where
  message : String
  line : Int
  severity : String
  code : Option String
  help : Option String
  suggestions : Option (List String)
  deriving DecidableEq, Repr

namespace Diagnostic

/-- A remark that stops nothing. -/
def warning (message : String) (line : Int) (code help : Option String)
    (suggestions : Option (List String)) : Diagnostic :=
  { message, line, severity := "warning", code, help, suggestions }

/-- What is printed before the message: the code between brackets, if there is one. -/
def codeMark (code : Option String) : String :=
  match code with
  | none | some "" => ""
  | some code => "[" ++ code ++ "] "

/-- The line of help, if there is any. -/
def helpLine (help : Option String) : String :=
  match help with
  | none | some "" => ""
  | some help => "  help: " ++ help ++ "\n"

/-- The list of suggestions, if there are any. -/
def suggestionLines (suggestions : Option (List String)) : String :=
  match suggestions with
  | none | some [] => ""
  | some suggestions =>
    "  suggestions:\n" ++ String.join (suggestions.map fun s => "    - " ++ s ++ "\n")

/-- The diagnostic as printed text. -/
def render (d : Diagnostic) : String :=
  String.ofList (Text.upper d.severity.toList) ++ ": " ++ codeMark d.code ++ d.message ++ "\n" ++
    "  --> line " ++ toString d.line ++ "\n" ++ helpLine d.help ++ suggestionLines d.suggestions

/-- The diagnostic in one line, for a list of them. -/
def brief (d : Diagnostic) : String :=
  "ParseWarning(" ++ d.code.getD "None" ++ ", " ++ quoted d.message ++ ")"

end Diagnostic

end SnippetTree
