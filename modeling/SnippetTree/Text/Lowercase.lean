import SnippetTree.Text.Basic
import SnippetTree.Text.CaseTable

/-!
# Lower case

Names of dialects and keywords are compared without regard to case, by the lower-case form of
the whole text. Two rules go beyond a table of single characters: the dotted capital I leaves its
dot behind as a mark, and a capital sigma becomes the final form at the end of a word.
-/

namespace SnippetTree.Text

/-- The nearest character that is not passed over is a cased letter. -/
def meetsCasedLetter (text : Text) : Bool :=
  match text.dropWhile fun c => inRanges caseIgnorables c.toNat with
  | [] => false
  | c :: _ => inRanges casedLetters c.toNat

/-- A capital sigma ends a word if a letter comes before it and none after it. The text before it
is given back to front. -/
def endsWord (before after : Text) : Bool :=
  meetsCasedLetter before && !meetsCasedLetter after

/-- The lower-case form of one character that is not a capital sigma. -/
def lowerChar (c : Char) : Text :=
  if c.toNat < 0x80 then [c.toLower]
  else if c = 'İ' then ['i', '\u0307']
  else [Char.ofNat (CodeRun.move lowerRuns c.toNat)]

/-- The lower-case form of the second text, which follows the first one, given back to front. -/
def lowerAfter (before : Text) : Text → Text
  | [] => []
  | c :: rest =>
    let here := if c = 'Σ' then [if endsWord before rest then 'ς' else 'σ'] else lowerChar c
    here ++ lowerAfter (c :: before) rest

/-- The lower-case form of a text. -/
def lower (text : Text) : Text :=
  lowerAfter [] text

end SnippetTree.Text
