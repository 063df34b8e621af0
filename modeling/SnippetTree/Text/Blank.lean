import SnippetTree.Text.Basic

/-!
# Blank characters

The one notion of white space that all rules share: it ends a word, it is trimmed from both ends
of a line, and it separates lexemes. The set holds the separators of every script, the control
characters that move the print position, and the four information separators; it does not hold
the zero-width characters.
-/

namespace SnippetTree.Text

/-- White space, in every script. -/
def isBlank (c : Char) : Bool :=
  let code := c.toNat
  (0x09 ≤ code && code ≤ 0x0D) || (0x1C ≤ code && code ≤ 0x20) || code == 0x85 || code == 0xA0 ||
    code == 0x1680 || (0x2000 ≤ code && code ≤ 0x200A) || code == 0x2028 || code == 0x2029 ||
    code == 0x202F || code == 0x205F || code == 0x3000

/-- The text without the white space it begins with. -/
def trimStart (text : Text) : Text :=
  text.dropWhile isBlank

/-- The text without the white space it ends with. -/
def trimEnd (text : Text) : Text :=
  text.dropEndWhile isBlank

/-- The text without the white space on either side. -/
def trim (text : Text) : Text :=
  text.trimStart.trimEnd

/-- The longest pieces of a text that hold no white space, in order. -/
def words (text : Text) : List Text :=
  (splitWhere isBlank text).filter (! ·.isEmpty)

end SnippetTree.Text
