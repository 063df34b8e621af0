import SnippetTree.Text.Basic
import SnippetTree.Text.Printable

/-!
# Quoted texts

Messages and outlines show a text between quotes, on one line and with every character visible.
The single quote is used unless the text holds one and no double quote. Inside, the quote in use
and the backslash are escaped, the three common control characters have escapes of their own, and
any other character that is not printable is given by its code in two, four or eight hexadecimal
digits, whichever is the shortest that holds it.
-/

namespace SnippetTree

namespace Text

/-- The quote that a text is put between. -/
def quoteMark (text : Text) : Char :=
  if text.contains '\'' && !text.contains '"' then '"' else '\''

/-- The last `width` hexadecimal digits of a number, in lower case. -/
def hexDigits : (width : Nat) → Nat → Text
  | 0, _ => []
  | width + 1, code => hexDigits width (code / 16) ++ [Nat.digitChar (code % 16)]

/-- The escape that gives a character by its code. -/
def escapeCode (c : Char) : Text :=
  let code := c.toNat
  if code < 0x100 then '\\' :: 'x' :: hexDigits 2 code
  else if code < 0x10000 then '\\' :: 'u' :: hexDigits 4 code
  else '\\' :: 'U' :: hexDigits 8 code

/-- How a character is written between quotes of the given kind. -/
def quoteChar (mark c : Char) : Text :=
  if c = mark || c = '\\' then ['\\', c]
  else if c = '\n' then ['\\', 'n']
  else if c = '\r' then ['\\', 'r']
  else if c = '\t' then ['\\', 't']
  else if isPrintable c then [c]
  else escapeCode c

/-- The text between quotes. -/
def quote (text : Text) : Text :=
  let mark := quoteMark text
  mark :: (text.flatMap (quoteChar mark) ++ [mark])

end Text

/-- A string between quotes, as messages show it. -/
def quoted (text : String) : String :=
  String.ofList (Text.quote text.toList)

end SnippetTree
