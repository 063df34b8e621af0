import SnippetTree.Text.Basic
import SnippetTree.Text.CaseTable

/-!
# Upper case

The severity of a diagnostic is printed in capitals. One character may become several, as the
sharp s does.
-/

namespace SnippetTree.Text

/-- The upper-case form of one character. -/
def upperChar (c : Char) : Text :=
  if c.toNat < 0x80 then [c.toUpper]
  else match upperExpansions.lookup c.toNat with
    | some codes => codes.map Char.ofNat
    | none => [Char.ofNat (CodeRun.move upperRuns c.toNat)]

/-- The upper-case form of a text. -/
def upper (text : Text) : Text :=
  text.flatMap upperChar

end SnippetTree.Text
