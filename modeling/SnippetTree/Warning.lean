import SnippetTree.Diagnostic
import SnippetTree.Lexeme

/-!
# Problems and warnings

Nothing in a snippet is an error: what cannot be understood is repaired or left out, and every
repair is put down as a problem. A problem knows its cause and not its line; the line is added
where it is known, which makes a warning. The wording of all of them stands here and nowhere else.
-/

namespace SnippetTree

/-- What was wrong with a piece of the input. -/
inductive Problem where
  /-- A quoted literal that the tokenizer took apart. -/
  | cutLiteral (start : Lexeme)
  /-- An operator without one of its operands. -/
  | missingOperand (operator : Lexeme)
  /-- A delimiter that is never closed. -/
  | unclosedGroup (opener : Lexeme)
  /-- Lexemes after the end of the expression. -/
  | trailingLexemes (rest : List Lexeme)
  /-- No lexeme at all where an expression was expected. -/
  | emptyExpression
  /-- A line that gave no statement. -/
  | droppedLine (text : String)
  /-- A name that no dialect answers to. -/
  | unknownDialect (name : String) (used : String)
  /-- A text that is no expression and was kept as it was. -/
  | keptRaw (text : String)
  /-- An expression that nests more deeply than the parser follows. -/
  | nestedTooDeep (limit : Int)
  deriving DecidableEq, Repr

namespace Problem

/-- The code under which a kind of problem is listed. -/
def code : Problem → String
  | cutLiteral _ => "L101"
  | missingOperand _ => "P101"
  | unclosedGroup _ => "P102"
  | trailingLexemes _ => "P103"
  | emptyExpression => "P104"
  | droppedLine _ => "P105"
  | unknownDialect _ _ => "P106"
  | keptRaw _ => "P107"
  | nestedTooDeep _ => "P108"

/-- The codes of problems that the tokenizer meets, with their titles. -/
def tokenizerCodes : List (String × String) :=
  [("L101", "String literal split by whitespace or operator glyph")]

/-- The codes of all other problems, with their titles. -/
def parserCodes : List (String × String) :=
  [("P101", "Missing operand"),
   ("P102", "Unterminated group"),
   ("P103", "Trailing tokens ignored"),
   ("P104", "Empty expression"),
   ("P105", "Unrecognized line dropped"),
   ("P106", "Unknown dialect, default used"),
   ("P107", "Expression kept as raw text"),
   ("P108", "Nesting too deep")]

/-- The delimiter that closes an opener; anything else closes itself. -/
def closer (opener : Lexeme) : Lexeme :=
  match opener with
  | "(" => ")"
  | "[" => "]"
  | "\x7b" => "\x7d"
  | other => other

/-- The first five lexemes, and a sign that there are more. -/
def excerpt (lexemes : List Lexeme) : String :=
  " ".intercalate (lexemes.take 5) ++ if lexemes.length > 5 then " ..." else ""

/-- What is said about a problem. -/
def message : Problem → String
  | cutLiteral start => "Quoted literal starting at " ++ quoted start ++ " was split into several tokens"
  | missingOperand operator => "Operator '" ++ operator ++ "' is missing an operand"
  | unclosedGroup opener => "Unclosed delimiter '" ++ opener ++ "'"
  | trailingLexemes rest => "Ignored trailing tokens: " ++ excerpt rest
  | emptyExpression => "Empty expression"
  | droppedLine text => "Could not interpret line " ++ quoted text ++ "; it was left out of the tree"
  | unknownDialect name used => "Unknown dialect " ++ quoted name ++ ", parsed as " ++ quoted used
  | keptRaw text => "Could not structure " ++ quoted text ++ "; kept as raw text"
  | nestedTooDeep limit =>
    "Expression nested deeper than " ++ toString limit ++ " levels; the nested part was skipped"

/-- How the problem was dealt with. -/
def help? : Problem → Option String
  | cutLiteral _ =>
    some ("The tokenizer has no quoting rules; whitespace and operator " ++
      "glyphs inside quotes still separate tokens.")
  | missingOperand _ => some "The operator node was built with the operands that were found."
  | unclosedGroup _ =>
    some "Everything up to the end of the input was taken as the group's content."
  | trailingLexemes _ => some "Only the first complete expression is kept."
  | emptyExpression => some "An empty identifier was used in its place."
  | nestedTooDeep _ => some "An empty identifier stands in for the skipped operand."
  | droppedLine _ | unknownDialect _ _ | keptRaw _ => none

/-- What the writer of the snippet can do about it. -/
def suggestions? : Problem → Option (List String)
  | cutLiteral _ => some ["Avoid spaces and operators inside string literals"]
  | missingOperand _ => some ["Ensure all operators have operands"]
  | unclosedGroup opener => some ["Add a closing '" ++ closer opener ++ "'"]
  | unknownDialect _ _ => some ["Use one of: expression, c, python, java"]
  | trailingLexemes _ | emptyExpression | droppedLine _ | keptRaw _ | nestedTooDeep _ => none

/-- The problems of a list of lexemes: those that open a literal and do not close it. -/
def ofLexemes (lexemes : List Lexeme) : List Problem :=
  (lexemes.filter Lexeme.isCutLiteral).map cutLiteral

end Problem

/-- A problem and the line that it is about. -/
structure Warning where
  problem : Problem
  line : Int
  deriving DecidableEq, Repr

namespace Warning

/-- The remark that a reader gets to see. -/
def diagnostic (w : Warning) : Diagnostic :=
  .warning w.problem.message w.line (some w.problem.code) w.problem.help? w.problem.suggestions?

end Warning

end SnippetTree
