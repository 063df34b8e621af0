import SnippetTree.Text.Blank
import SnippetTree.Lexeme

/-!
# Glyph profiles and the tokenizer

The tokenizer makes one pass from left to right and keeps the word it is in the middle of. White
space ends the word and is dropped; a glyph ends the word and is a lexeme of its own; anything
else joins the word. Glyphs of two characters are looked for before single ones. There is no
quoting: a literal that holds white space or a glyph falls apart.
-/

namespace SnippetTree

/-- The glyphs that a tokenizer splits on. -/
structure Profile where
  name : String
  /-- Glyphs of one character. -/
  singles : List Char
  /-- Glyphs of two characters, which win over single ones. -/
  doubles : List (Char × Char)

namespace Profile

/-- A pair of characters, if the string is exactly that. -/
def pair? (glyph : String) : Option (Char × Char) :=
  match glyph.toList with
  | [c, d] => some (c, d)
  | _ => none

/-- A single character, if the string is exactly that. -/
def single? (glyph : String) : Option Char :=
  match glyph.toList with
  | [c] => some c
  | _ => none

/-- A profile from written glyphs. A glyph of the wrong length can match nothing and is left out. -/
def ofGlyphs (name : String) (singles doubles : List String) : Profile :=
  ⟨name, singles.filterMap single?, doubles.filterMap pair?⟩

/-- The glyphs of flat expressions. -/
def simple : Profile :=
  { name := "simple"
    singles := ['+', '-', '*', '/', '(', ')', '^', ',']
    doubles := [] }

/-- The glyphs of dialects that are read line by line. -/
def extended : Profile :=
  { name := "extended"
    singles := ['+', '-', '*', '/', '%', '(', ')', '^', '<', '>', '=', '!', ',', ';',
      '\x7b', '\x7d', '[', ']']
    doubles := [('=', '='), ('!', '='), ('<', '='), ('>', '='), ('&', '&'), ('|', '|'),
      ('+', '+'), ('-', '-'), ('+', '='), ('-', '='), ('*', '='), ('/', '='), ('%', '=')] }

/-! ## Cutting a text into lexemes -/

/-- The lexeme made of the pending word, which is kept back to front; none if it is empty. -/
def flush : (pending : Text) → List Lexeme
  | [] => []
  | pending => [String.ofList pending.reverse]

/-- Takes in one character that begins no glyph of two: the lexemes it completes, and the word
that is pending after it. -/
def absorb (profile : Profile) (pending : Text) (c : Char) : List Lexeme × Text :=
  if Text.isBlank c then (flush pending, [])
  else if profile.singles.contains c then (flush pending ++ [String.ofList [c]], [])
  else ([], c :: pending)

/-- The lexemes of a text that follows a pending word. -/
def lexemesFrom (profile : Profile) : (pending : Text) → Text → List Lexeme
  | pending, [] => flush pending
  | pending, [c] =>
    let (done, kept) := profile.absorb pending c
    done ++ flush kept
  | pending, c :: d :: rest =>
    if !Text.isBlank c && profile.doubles.contains (c, d) then
      flush pending ++ String.ofList [c, d] :: profile.lexemesFrom [] rest
    else
      let (done, kept) := profile.absorb pending c
      done ++ profile.lexemesFrom kept (d :: rest)

/-- The lexemes of a text. -/
def tokenize (profile : Profile) (text : Text) : List Lexeme :=
  profile.lexemesFrom [] text

end Profile

end SnippetTree
