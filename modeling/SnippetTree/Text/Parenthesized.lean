import SnippetTree.Text.Basic

/-!
# The first group in a text

Conditions, parameters and loop headers stand between the first opening parenthesis of a line and
the one that closes it. A group that is never closed reaches to the end of the text.
-/

namespace SnippetTree.Text

/-- The text up to the parenthesis that closes the enclosing group, when that many groups have
been opened inside it. -/
def untilClosed : (opened : Nat) → Text → Text
  | _, [] => []
  | opened, c :: rest =>
    if c = '(' then c :: untilClosed (opened + 1) rest
    else if c = ')' then
      match opened with
      | 0 => []
      | opened + 1 => c :: untilClosed opened rest
    else c :: untilClosed opened rest

/-- The content of the first group, if there is an opening parenthesis. -/
def parenthesized? (text : Text) : Option Text :=
  (cutAt? '(' text).map fun (_, inside) => untilClosed 0 inside

end SnippetTree.Text
