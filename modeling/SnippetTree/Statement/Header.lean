import SnippetTree.Text.Blank
import SnippetTree.Text.WordChar
import SnippetTree.Lexeme

/-!
# Header words

Control statements are told by the word that a line begins with. Two questions are asked about it:
which word it is, as far as ASCII letters go and whatever their case (`leadingWord`), and whether
the line begins with a certain keyword after which no word goes on (`afterKeyword?`).
-/

namespace SnippetTree

/-- The words that an if or while header begins with. -/
inductive ConditionWord where
  | ifWord
  | whileWord
  | elifWord
  | elseIfWord
  deriving DecidableEq, Repr

/-- How a header word is written, with single spaces. -/
def ConditionWord.text : ConditionWord → String
  | ifWord => "if"
  | whileWord => "while"
  | elifWord => "elif"
  | elseIfWord => "else if"

/-- Words that begin a control statement and never name a function. -/
def controlKeywords : List Lexeme :=
  ["if", "else", "elif", "while", "for", "return", "switch", "do", "case"]

namespace Text

/-- The ASCII name that a text begins with after white space, in lower case; empty if there is
none. -/
def leadingWord (text : Text) : Text :=
  match trimStart text with
  | [] => []
  | c :: rest => if isNameStart c then lower (c :: rest.takeWhile isNameChar) else []

/-- The leading word is one of the given ones. -/
def leadsWith (keywords : List Lexeme) (text : Text) : Bool :=
  keywords.contains (String.ofList (leadingWord text))

/-- What follows a keyword at the beginning of a text, if the word ends there. -/
def afterKeyword? (keyword : Lexeme) (text : Text) : Option Text :=
  (after? keyword.toList text).filter atWordEnd

/-- What follows `else if` at the beginning of a text; any white space may separate the two. -/
def afterElseIf? (text : Text) : Option Text :=
  match after? ['e', 'l', 's', 'e'] text with
  | none => none
  | some rest =>
    if (rest.takeWhile isBlank).isEmpty then none else afterKeyword? "if" (trimStart rest)

/-- The word of an if or while header and what follows it. -/
def conditionHeader? (text : Text) : Option (ConditionWord × Text) :=
  ((afterKeyword? "if" text).map (.ifWord, ·)).or <|
  ((afterKeyword? "while" text).map (.whileWord, ·)).or <|
  ((afterKeyword? "elif" text).map (.elifWord, ·)).or <|
  (afterElseIf? text).map (.elseIfWord, ·)

/-! ## Loops over an iterable -/

/-- What follows white space, the word `in` and more white space, up to the end of the line. The
text must not end with white space. -/
def afterIn? (text : Text) : Option Text :=
  if (text.takeWhile isBlank).isEmpty then none
  else match after? ['i', 'n'] (trimStart text) with
    | none => none
    | some rest =>
      let iterable := trimStart rest
      if (rest.takeWhile isBlank).isEmpty || iterable.isEmpty || iterable.contains '\n' then none
      else some iterable

/-- Splits a text at the first `in` with something before it on the same line; `before`, back to
front, belongs to the target. -/
def splitInFrom (before : Text) : Text → Option (Text × Text)
  | [] => none
  | c :: rest =>
    if c = '\n' then none
    else match afterIn? rest with
      | some iterable => some ((c :: before).reverse, iterable)
      | none => splitInFrom (c :: before) rest

/-- The target and the iterable of a `for … in …` header. The target begins as late as possible
after the white space that follows `for`: only if no target is found does some of that white space
count as one. -/
def forIn? (text : Text) : Option (Text × Text) :=
  match after? ['f', 'o', 'r'] text with
  | none => none
  | some rest =>
    let gap := rest.takeWhile isBlank
    (List.range gap.length).findSome? fun kept => splitInFrom [] (rest.drop (gap.length - kept))

end Text

end SnippetTree
