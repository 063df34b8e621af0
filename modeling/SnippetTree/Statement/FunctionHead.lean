import SnippetTree.Text.Parenthesized
import SnippetTree.Statement.Basic
import SnippetTree.Statement.Fault

/-!
# Heads of functions

A line with a group in it is the head of a function if it opens a block or ends as a head does,
does not begin with a control keyword, and has a name right before the group. Parameters are
separated by commas and written as the dialect has it: a type and a name, or a name with a type
after a colon and a default after an equals sign.
-/

namespace SnippetTree

namespace Text

/-- The words with single spaces between them. -/
def joinWords (words : List Text) : Lexeme :=
  String.ofList (join [' '] words)

/-- The type after the first arrow that is followed by any text; it ends before a colon, an opening
brace or a semicolon. -/
def arrowType? : Text → Option Text
  | [] => none
  | c :: rest =>
    match after? ['-', '>'] (c :: rest) with
    | none => arrowType? rest
    | some body =>
      let typeName := body.takeWhile fun c => !(c == ':' || c == '\x7b' || c == ';')
      if typeName.isEmpty then arrowType? rest else some (trim typeName)

end Text

/-- The parameter that a text between two commas declares, if it declares one. -/
def Dialect.Spec.parameter? (spec : Dialect.Spec) (text : Text) : Option Parameter :=
  if spec.bareParameters then
    let declared := Text.trim (text.takeWhile (· != '='))
    let (name, typeName) := (Text.cutAt? ':' declared).getD (declared, [])
    let name := Text.trim name
    let typeName := Text.trim typeName
    if name.isEmpty then none
    else some ⟨if typeName.isEmpty then none else some (String.ofList typeName), String.ofList name⟩
  else
    let words := Text.words text
    match words.getLast? with
    | none => none
    | some name =>
      let typeWords := words.dropLast
      if typeWords.isEmpty then none
      else some ⟨some (Text.joinWords typeWords), String.ofList name⟩

namespace FunctionHead

/-- The line looks like the head of a function. A bare call counts too. -/
def isHead (spec : Dialect.Spec) (text : Text) : Bool :=
  let head := text.takeWhile (· != '(')
  text.contains '(' && text.contains ')' &&
    (text.contains '\x7b' || (Text.trimEnd text).getLast?.any spec.headerEndings.contains) &&
    !Text.leadsWith controlKeywords text && !head.contains '=' &&
    (Text.words head).getLast?.any fun word => Lexeme.isIdentifier (String.ofList word)

/-- The return type: the words before the name, else the type after an arrow, else the one that
the dialect supplies. -/
def returnTypeOf (spec : Dialect.Spec) (before : List Text) (afterCloser : Text) : Lexeme :=
  let words := before.filter fun word => !spec.functionKeywords.contains (String.ofList word)
  if (Text.joinWords words).isEmpty then
    match Text.arrowType? afterCloser with
    | none | some [] => spec.returnType
    | some typeName => String.ofList typeName
  else Text.joinWords words

/-- Takes the head of a function out of a line. -/
def extract (spec : Dialect.Spec) (text : Text) : Except Fault FunctionHead := do
  let some (head, _) := Text.cutAt? '(' text | throw .noOpener
  let words := Text.words head
  let some name := words.getLast? | throw .noWord
  let some (_, afterCloser) := Text.cutAt? ')' text | throw .noCloser
  let fields := Text.splitAt ',' ((Text.parenthesized? text).getD [])
  return {
    returnType := returnTypeOf spec words.dropLast afterCloser
    name := String.ofList name
    parameters := fields.filterMap spec.parameter? }

end FunctionHead

end SnippetTree
