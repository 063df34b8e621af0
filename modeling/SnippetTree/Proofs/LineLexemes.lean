import SnippetTree.Proofs.Names

/-!
# Lexemes as they stand in a line

The lexemes of an expression stand in a line with spaces between them, and the line is looked at by
rules that know nothing of lexemes. What these rules might stumble over is settled here for each
lexeme alone (`Dialect.Lexical`): that it is cut out of itself, that no assignment operator begins
in it, that nothing in it ends a line or a part of a header.

For operators and marks this is a matter of a finite table. A value or a name can be any word that
is cut out of itself. Such a word is no glyph, so it holds none of the single ones; that settles all
but the quotes and the colon, for which its form is needed.
-/

namespace SnippetTree

/-! ## The forms of values and names -/

namespace Text

/-- A character of numbers and of names that are joined by points. -/
def isTame (c : Char) : Bool :=
  isNameChar c || isDecimalDigit c || c == '.'

theorem ne_of_isTame {c d : Char} (h : isTame c = true) (hd : isTame d = false) : c ≠ d := by
  intro heq
  rw [heq, hd] at h
  exact Bool.noConfusion h

theorem isTame_of_isNumeral {x : Text} (h : isNumeral x = true) : ∀ c ∈ x, isTame c = true := by
  have hdigits : ∀ {digits : Text}, isDigits digits = true → ∀ c ∈ digits, isTame c = true := by
    intro digits hall c hc
    rw [isDigits, Bool.and_eq_true, List.all_eq_true] at hall
    rw [isTame, hall.2 c hc, Bool.or_true, Bool.true_or]
  unfold isNumeral at h
  split at h
  · exact hdigits h
  · rename_i whole fraction hcut
    rw [Bool.and_eq_true] at h
    intro c hc
    rw [eq_append_of_cutAt? hcut, List.mem_append, List.mem_cons] at hc
    rcases hc with hc | rfl | hc
    · exact hdigits h.1 c hc
    · rfl
    · exact hdigits h.2 c hc

theorem isTame_of_isDottedName {x : Text} (h : isDottedName x = true) :
    ∀ c ∈ x, isTame c = true := by
  intro c hc
  rcases nameChar_or_point h hc with hname | rfl
  · rw [isTame, hname]
    rfl
  · decide

end Text

/-- A value or a name on one line consists of tame characters or stands between quotes. -/
theorem Lexeme.tame_or_quoted {w : Lexeme} (hline : '\n' ∉ w.toList)
    (h : w.isConstant = true ∨ w.isIdentifier = true) :
    (∀ c ∈ w.toList, Text.isTame c = true) ∨ Text.isBetweenQuotes w.toList = true := by
  have hdrop := Text.dropFinalLineFeed_of_not_mem hline
  rcases h with h | h
  · rw [isConstant, Bool.or_eq_true, Bool.or_eq_true, isNumber, isQuoted, hdrop] at h
    rcases h with (h | h) | h
    · exact .inl (Text.isTame_of_isNumeral h)
    · exact .inr h
    · have hwords : ∀ word ∈ literalWords, word.toList.all Text.isTame = true := by decide
      exact .inl (List.all_eq_true.mp (hwords w (List.contains_iff_mem.mp h)))
  · rw [isIdentifier, hdrop] at h
    exact .inl (Text.isTame_of_isDottedName h)

namespace Lexeme

variable {w : Lexeme}

/-- No tame character is a quote or ends a line. -/
theorem ends_of_tame (h : ∀ c ∈ w.toList, Text.isTame c = true) :
    (∀ c ∈ w.toList.getLast?, Text.isLineEnd c = false) ∧ w.isCutLiteral = false := by
  refine ⟨?_, ?_⟩
  · intro c hc
    have htame := h c (List.mem_of_getLast? hc)
    rw [Text.isLineEnd, beq_eq_false_iff_ne.mpr (Text.ne_of_isTame htame (by decide)),
      beq_eq_false_iff_ne.mpr (Text.ne_of_isTame htame (by decide)),
      beq_eq_false_iff_ne.mpr (Text.ne_of_isTame htame (by decide))]
    rfl
  · rw [isCutLiteral]
    cases htext : w.toList with
    | nil => rfl
    | cons c rest =>
        have htame := h c (by rw [htext]; exact List.mem_cons_self ..)
        dsimp only
        rw [beq_eq_false_iff_ne.mpr (Text.ne_of_isTame htame (by decide)),
          beq_eq_false_iff_ne.mpr (Text.ne_of_isTame htame (by decide))]
        rfl

/-- The last character of a quoted literal is the quote that the first one is. -/
theorem ends_of_quoted (h : Text.isBetweenQuotes w.toList = true) :
    (∀ c ∈ w.toList.getLast?, Text.isLineEnd c = false) ∧ w.isCutLiteral = false := by
  rw [Text.isBetweenQuotes, Bool.and_eq_true, Bool.and_eq_true, decide_eq_true_eq, beq_iff_eq,
    Bool.or_eq_true, beq_iff_eq, beq_iff_eq] at h
  obtain ⟨⟨hlength, hends⟩, hquote⟩ := h
  refine ⟨?_, ?_⟩
  · intro c hc
    rw [← hends] at hc
    rcases hquote with hquote | hquote
    · obtain rfl : '"' = c := Option.some.inj (hquote.symm.trans hc)
      decide
    · obtain rfl : '\'' = c := Option.some.inj (hquote.symm.trans hc)
      decide
  · rw [isCutLiteral]
    cases htext : w.toList with
    | nil => rfl
    | cons c rest =>
        rw [htext] at hlength hends
        have hrest : rest ≠ [] := by
          intro hnil
          rw [hnil, List.length_singleton] at hlength
          omega
        have hlast : rest.getLast? = some c := by
          rw [List.getLast?_cons_of_ne_nil hrest] at hends
          exact hends.symm
        dsimp only
        rw [hlast, bne_self_eq_false, Bool.and_false]

end Lexeme

/-! ## Lexemes of a line -/

namespace Dialect

/-- The lexeme may stand in a line of the dialect without being taken for anything else. -/
structure Lexical (dialect : Dialect) (w : Lexeme) : Prop where
  /-- It is cut out of itself. -/
  whole : Profile.extended.tokenize w.toList = [w]
  ne_nil : w.toList ≠ []
  /-- It holds no white space, and nothing that separates the parts of a header. -/
  chars : ∀ c ∈ w.toList, Text.isBlank c = false ∧ c ≠ ';'
  /-- It does not end with what ends a line. -/
  last : ∀ c ∈ w.toList.getLast?, Text.isLineEnd c = false
  /-- No assignment begins in it, nor at the space before it. -/
  inert : Text.Inert w.toList ∧ Text.Inert (' ' :: w.toList)
  uncut : w.isCutLiteral = false
  /-- It is not taken for the type of a declaration. -/
  no_type : Text.leadsWith dialect.spec.typeKeywords w.toList = false

/-- The operators of the dialects that are read line by line, and the marks of groups and calls. -/
def lineSymbols : List Lexeme :=
  ["||", "or", "&&", "and", "==", "!=", "<", ">", "<=", ">=", "+", "-", "*", "/", "%", "!", "++",
    "--", "not", "(", ")", ","]

theorem inert_of_mem_lineSymbols {w : Lexeme} (h : w ∈ lineSymbols) :
    Text.Inert w.toList ∧ Text.Inert (' ' :: w.toList) := by
  have hall : ∀ w ∈ lineSymbols, '=' ∉ w.toList ∨
      w.toList ∈ [['=', '='], ['!', '='], ['<', '='], ['>', '=']] := by decide
  rcases hall w h with hnone | hcomparison
  · exact Text.inert_both_of_not_mem hnone
  · simp only [List.mem_cons, List.not_mem_nil, or_false] at hcomparison
    rcases hcomparison with heq | heq | heq | heq
    all_goals
      rw [heq]
      exact Text.inert_comparison rfl

theorem lexical_of_mem_lineSymbols (dialect : Dialect) {w : Lexeme} (h : w ∈ lineSymbols) :
    dialect.Lexical w := by
  have hwhole : ∀ w ∈ lineSymbols, Profile.extended.tokenize w.toList = [w] := by decide +kernel
  have hne : ∀ w ∈ lineSymbols, w.toList ≠ [] := by decide
  have hsome : ∀ w ∈ lineSymbols,
      w.toList.any (fun c => Text.isBlank c || Text.isLineEnd c) = false := by decide
  have hchars : ∀ c ∈ w.toList, Text.isBlank c = false ∧ Text.isLineEnd c = false := by
    intro c hc
    have hc' := Bool.eq_false_iff.mpr (List.any_eq_false.mp (hsome w h) c hc)
    exact Bool.or_eq_false_iff.mp hc'
  have huncut : ∀ w ∈ lineSymbols, w.isCutLiteral = false := by decide
  have htype : ∀ w ∈ lineSymbols, Text.leadsWith dialect.spec.typeKeywords w.toList = false := by
    cases dialect <;> decide +kernel
  refine ⟨hwhole w h, hne w h, ?_, ?_, inert_of_mem_lineSymbols h, huncut w h, htype w h⟩
  · intro c hc
    refine ⟨(hchars c hc).1, ?_⟩
    rintro rfl
    exact absurd (hchars _ hc).2 (by decide)
  · intro c hc
    exact (hchars c (List.mem_of_getLast? hc)).2

/-- A word that may be written into a line: it is cut out of itself, and does not lead with a type
word. -/
structure LineWord (dialect : Dialect) (w : Lexeme) : Prop where
  whole : Profile.extended.tokenize w.toList = [w]
  no_type : Text.leadsWith dialect.spec.typeKeywords w.toList = false

/-- Names that are joined by points are cut out of themselves: of a callee there is nothing to ask
but that it does not lead with a type word. -/
theorem LineWord.of_isDottedName {dialect : Dialect} {w : Lexeme}
    (h : Text.isDottedName w.toList = true)
    (no_type : Text.leadsWith dialect.spec.typeKeywords w.toList = false) :
    dialect.LineWord w where
  whole := by rw [Text.tokenize_of_isDottedName h, String.ofList_toList]
  no_type := no_type

/-- A value or a name that is cut out of itself is no glyph. -/
theorem LineWord.isWord {dialect : Dialect} {w : Lexeme} (h : dialect.LineWord w)
    (hform : w.isConstant = true ∨ w.isIdentifier = true) : Profile.extended.IsWord w := by
  have hmem : w ∈ Profile.extended.tokenize w.toList := by
    rw [h.whole]
    exact List.mem_cons_self ..
  rcases Profile.glyph_or_word hmem with (⟨c, hc, rfl⟩ | ⟨c, d, hglyph, rfl⟩) | hword
  · have hsingles : Profile.extended.singles.any (fun c =>
        Lexeme.isConstant (String.ofList [c]) || Lexeme.isIdentifier (String.ofList [c])) =
          false := by decide
    exact absurd (Bool.or_eq_true_iff.mpr hform) (List.any_eq_false.mp hsingles c hc)
  · have hdoubles : ∀ glyph ∈ Profile.extended.doubles,
        ¬ (Lexeme.isConstant (String.ofList [glyph.1, glyph.2]) = true ∨
          Lexeme.isIdentifier (String.ofList [glyph.1, glyph.2]) = true) := by decide
    exact absurd hform (hdoubles (c, d) hglyph)
  · exact hword

/-- **A value or a name that may be written into a line is not taken for anything else**, and holds
no parenthesis. -/
theorem LineWord.lexical {dialect : Dialect} {w : Lexeme} (h : dialect.LineWord w)
    (hform : w.isConstant = true ∨ w.isIdentifier = true) :
    dialect.Lexical w ∧ ∀ c ∈ w.toList, c ≠ '(' ∧ c ≠ ')' := by
  -- most of what is asked holds of every word; only the ends need the form of the lexeme
  have hword := h.isWord hform
  have hequals := hword.not_mem (c := '=') (by decide)
  have hne : w.toList ≠ [] := by
    intro hnil
    have hwhole := h.whole
    rw [hnil] at hwhole
    cases hwhole
  have hother : ∀ {d : Char}, Profile.extended.joins d = false → ∀ c ∈ w.toList, c ≠ d := by
    intro d hd c hc heq
    exact hword.not_mem hd (heq ▸ hc)
  have hinert := Text.inert_both_of_not_mem hequals
  have hchars : ∀ c ∈ w.toList, Text.isBlank c = false ∧ c ≠ ';' := by
    intro c hc
    have hjoins := hword c hc
    rw [Profile.joins, Bool.and_eq_true, Bool.not_eq_true'] at hjoins
    exact ⟨hjoins.1, hother (by decide) c hc⟩
  have hends : (∀ c ∈ w.toList.getLast?, Text.isLineEnd c = false) ∧ w.isCutLiteral = false := by
    rcases Lexeme.tame_or_quoted (hword.not_mem (by decide)) hform with htame | hquoted
    · exact Lexeme.ends_of_tame htame
    · exact Lexeme.ends_of_quoted hquoted
  exact ⟨⟨h.whole, hne, hchars, hends.1, hinert, hends.2, h.no_type⟩,
    fun c hc => ⟨hother (by decide) c hc, hother (by decide) c hc⟩⟩

end Dialect

end SnippetTree
