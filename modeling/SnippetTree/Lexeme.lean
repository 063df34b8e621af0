import SnippetTree.Text.Basic
import SnippetTree.Text.DecimalDigit
import SnippetTree.Text.Lowercase

/-!
# Lexemes

A lexeme is a piece of a snippet that the tokenizer cuts out: a number, a quoted literal, a name,
an operator, or anything else that stood between two blanks. What it is can be told from its
spelling alone, and this module holds those tests. The category is what a reader of the finished
tree sees; no parsing decision rests on it.

One final line feed is overlooked by the three tests of form, since they look at a lexeme as at a
line.
-/

namespace SnippetTree

/-- A piece of a snippet. -/
abbrev Lexeme := String

/-- The lexical category of a node. -/
inductive Category where
  | keyword
  | operator
  | identifier
  | constant
  deriving DecidableEq, Repr

namespace Category

/-- Every category, in the order in which they are listed to a reader. -/
def all : List Category := [.keyword, .operator, .identifier, .constant]

/-- How a category is written in a tree. -/
def label : Category → String
  | .keyword => "keyword"
  | .operator => "operator"
  | .identifier => "identifier"
  | .constant => "constant"

/-- How a category is written in the description of a single node. -/
def symbol (category : Category) : String :=
  category.label.map Char.toUpper

end Category

namespace Text

/-- The text without one line feed at its end. -/
def dropFinalLineFeed (text : Text) : Text :=
  if text.getLast? = some '\n' then text.dropLast else text

/-- Decimal digits, at least one. -/
def isDigits (text : Text) : Bool :=
  !text.isEmpty && text.all isDecimalDigit

/-- Digits, or digits on both sides of one point. -/
def isNumeral (text : Text) : Bool :=
  match cutAt? '.' text with
  | none => isDigits text
  | some (whole, fraction) => isDigits whole && isDigits fraction

/-- At least two characters, the first and the last of which are the same quote. -/
def isBetweenQuotes (text : Text) : Bool :=
  2 ≤ text.length && text.head? == text.getLast? &&
    (text.head? == some '"' || text.head? == some '\'')

/-- A character that a name may begin with. -/
def isNameStart (c : Char) : Bool :=
  c.isAlpha || c == '_'

/-- A character that a name may go on with. -/
def isNameChar (c : Char) : Bool :=
  c.isAlphanum || c == '_'

/-- A single ASCII name. -/
def isName : Text → Bool
  | [] => false
  | c :: rest => isNameStart c && rest.all isNameChar

/-- Names joined by points, so that the callee of a member call is one lexeme. -/
def isDottedName (text : Text) : Bool :=
  (splitAt '.' text).all isName

end Text

namespace Lexeme

/-- A number: decimal digits with at most one point, which has digits on both sides. -/
def isNumber (lexeme : Lexeme) : Bool :=
  Text.isNumeral (Text.dropFinalLineFeed lexeme.toList)

/-- A quoted literal. -/
def isQuoted (lexeme : Lexeme) : Bool :=
  Text.isBetweenQuotes (Text.dropFinalLineFeed lexeme.toList)

/-- A name or several names joined by points. -/
def isIdentifier (lexeme : Lexeme) : Bool :=
  Text.isDottedName (Text.dropFinalLineFeed lexeme.toList)

/-- The lexeme opens a quoted literal and does not close it: it is the first piece of a literal that
the tokenizer took apart. -/
def isCutLiteral (lexeme : Lexeme) : Bool :=
  match lexeme.toList with
  | [] => false
  | mark :: rest => (mark == '"' || mark == '\'') && rest.getLast? != some mark

/-- Words that stand for a value. Their case matters. -/
def literalWords : List Lexeme := ["true", "false", "null", "True", "False", "None"]

/-- A lexeme that is a value by itself. -/
def isConstant (lexeme : Lexeme) : Bool :=
  lexeme.isNumber || lexeme.isQuoted || literalWords.contains lexeme

/-- The lexeme is one of the keywords, whatever the case of either. -/
def isKeyword (keywords : List Lexeme) (lexeme : Lexeme) : Bool :=
  keywords.any fun keyword => Text.lower keyword.toList == Text.lower lexeme.toList

/-- Keywords of every dialect. -/
def coreKeywords : List Lexeme :=
  ["int", "float", "double", "char", "void", "bool", "string",
   "if", "else", "while", "for", "return",
   "def", "class", "public", "private", "static",
   "import", "from", "as"]

/-- Every lexeme that is shown as an operator, punctuation included. -/
def operators : List Lexeme :=
  ["+", "-", "*", "/", "=", "==", "!=", "<", ">", "<=", ">=", "&&", "||", "!",
   "%", "++", "--", "+=", "-=", "*=", "/=", "%=", "^",
   "(", ")", "\x7b", "\x7d", "[", "]", ";", ","]

/-- The category of a lexeme: values first, then keywords, then operators; all else counts as an
identifier, whatever it looks like. -/
def category (keywords : List Lexeme) (lexeme : Lexeme) : Category :=
  if lexeme.isConstant then .constant
  else if lexeme.isKeyword keywords then .keyword
  else if operators.contains lexeme then .operator
  else .identifier

end Lexeme

end SnippetTree
