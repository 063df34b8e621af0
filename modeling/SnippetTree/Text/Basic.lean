/-!
# Texts

Everything this library decides about a snippet it decides character by character, so a text is
the list of its characters. Positions and lengths then count code points, and each rule below is
a recursion or one of the standard list operators, which keeps the laws short.

A text is cut in two ways: at *every* character of a kind (`splitWhere`, from which lines, fields
and words come) and at the *first* occurrence of a mark (`cutAt?`).
-/

namespace SnippetTree

/-- A text as the sequence of its characters. -/
abbrev Text := List Char

namespace Text

/-- Cuts a text at every character that satisfies `p`. The cutting characters are dropped, so
`n` of them leave `n + 1` parts, some of which may be empty. -/
def splitWhere (p : Char → Bool) : Text → List Text
  | [] => [[]]
  | c :: rest =>
    if p c then [] :: splitWhere p rest
    else match splitWhere p rest with
      | [] => [[c]]
      | part :: parts => (c :: part) :: parts

/-- The parts of a text between the occurrences of one character. -/
def splitAt (mark : Char) (text : Text) : List Text :=
  splitWhere (· == mark) text

/-- The lines of a text. Only the line feed separates lines; the last line may be empty. -/
def lines (text : Text) : List Text :=
  splitAt '\n' text

/-- The text before and the text after the first occurrence of `mark`. -/
def cutAt? (mark : Char) (text : Text) : Option (Text × Text) :=
  match text.dropWhile (· != mark) with
  | [] => none
  | _ :: after => some (text.takeWhile (· != mark), after)

/-- What follows `lead` in a text that begins with it. -/
def after? : (lead : Text) → Text → Option Text
  | [], text => some text
  | _ :: _, [] => none
  | c :: lead, d :: text => if c = d then after? lead text else none

/-- The text without the longest tail of characters that satisfy `p`. -/
def dropEndWhile (p : Char → Bool) (text : Text) : Text :=
  (text.reverse.dropWhile p).reverse

/-- The parts with `separator` between neighbours. -/
def join (separator : Text) (parts : List Text) : Text :=
  separator.intercalate parts

theorem splitWhere_ne_nil (p : Char → Bool) (text : Text) : splitWhere p text ≠ [] := by
  cases text with
  | nil => simp [splitWhere]
  | cons c rest =>
    rw [splitWhere]
    split
    · simp
    · split <;> simp

/-- A text begins with `lead` exactly if it is `lead` and what follows it. -/
theorem after?_eq_some_iff {lead text rest : Text} :
    after? lead text = some rest ↔ text = lead ++ rest := by
  induction lead generalizing text with
  | nil => simp [after?]
  | cons c lead ih =>
    cases text with
    | nil => simp [after?]
    | cons d text =>
      rw [after?]
      by_cases h : c = d
      · simp [h, ih]
      · simp [h, Ne.symm h]

/-- There is one part more than there are cutting characters. -/
theorem length_splitWhere (p : Char → Bool) (text : Text) :
    (splitWhere p text).length = text.countP p + 1 := by
  induction text with
  | nil => rfl
  | cons c rest ih =>
    rw [splitWhere]
    by_cases hc : p c = true
    · simp [hc, ih]
    · cases hs : splitWhere p rest with
      | nil => exact absurd hs (splitWhere_ne_nil p rest)
      | cons part parts =>
        rw [hs] at ih
        simpa [hc] using ih

end Text

end SnippetTree
