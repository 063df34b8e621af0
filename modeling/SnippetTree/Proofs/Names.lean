import Mathlib.Data.List.Basic
import Mathlib.Data.List.DropRight
import Mathlib.Data.List.TakeWhile
import SnippetTree.Proofs.Cuts
import SnippetTree.Proofs.LineStart
import SnippetTree.Proofs.Tokens

/-!
# Names at the beginning of a line

Every statement that is written down here begins with a name and a space. That settles what the line
leads with, and which keyword it begins with: the name and no other, for a keyword that is longer
would have to hold the space, and after one that is shorter the word goes on.

A *solid* text is one that trimming and the dropping of what ends a line leave alone, so that it is
found again between what was written around it.
-/

namespace SnippetTree

namespace Text

/-! ## Characters of names -/

theorem nat_bounds_of_isNameChar {c : Char} (h : isNameChar c = true) :
    0x30 ≤ c.toNat ∧ c.toNat ≤ 0x7A := by
  have hparts : (c.isAlpha || c.isDigit || c == '_') = true := h
  rw [Bool.or_eq_true, Bool.or_eq_true] at hparts
  rcases hparts with (halpha | hdigit) | hunderscore
  · have hstart : isNameStart c = true := by rw [isNameStart, halpha, Bool.true_or]
    have hbounds := nat_bounds_of_isNameStart hstart
    omega
  · have hrange : (decide ('0'.val ≤ c.val) && decide (c.val ≤ '9'.val)) = true := hdigit
    rw [Bool.and_eq_true, decide_eq_true_eq, decide_eq_true_eq] at hrange
    have hlow : 0x30 ≤ c.toNat := UInt32.le_iff_toNat_le.mp hrange.1
    have hhigh : c.toNat ≤ 0x39 := UInt32.le_iff_toNat_le.mp hrange.2
    omega
  · rw [beq_iff_eq.mp hunderscore]
    decide

theorem isNameChar_of_isNameStart {c : Char} (h : isNameStart c = true) : isNameChar c = true := by
  rw [isNameStart, Bool.or_eq_true] at h
  rw [isNameChar, Char.isAlphanum]
  rcases h with h | h
  · rw [h]
    rfl
  · rw [h, Bool.or_true]

theorem not_isBlank_of_isNameChar {c : Char} (h : isNameChar c = true) : isBlank c = false := by
  have hbounds := nat_bounds_of_isNameChar h
  simp only [isBlank, Bool.or_eq_false_iff, Bool.and_eq_false_iff, decide_eq_false_iff_not,
    beq_eq_false_iff_ne]
  omega

theorem isWordChar_of_isNameChar {c : Char} (h : isNameChar c = true) : isWordChar c = true := by
  have hbounds := nat_bounds_of_isNameChar h
  have hascii : c.toNat < 0x80 := by omega
  rw [isWordChar, if_pos hascii]
  exact h

theorem ne_of_isNameChar {c d : Char} (h : isNameChar c = true) (hd : isNameChar d = false) :
    c ≠ d := by
  intro heq
  rw [heq, hd] at h
  exact Bool.noConfusion h

/-- No glyph of a line begins with a character of a name. -/
theorem joins_of_isNameChar {c : Char} (h : isNameChar c = true) :
    Profile.extended.joins c = true := by
  have hsingles : Profile.extended.singles.any isNameChar = false := by decide
  have hnone : Profile.extended.singles.contains c = false := by
    rw [Bool.eq_false_iff]
    intro hmem
    exact List.any_eq_false.mp hsingles c (List.contains_iff_mem.mp hmem) h
  rw [Profile.joins, not_isBlank_of_isNameChar h, hnone]
  rfl

/-! ## Names -/

theorem isNameChar_of_mem {x : Text} (h : isName x = true) {c : Char} (hc : c ∈ x) :
    isNameChar c = true := by
  cases x with
  | nil => cases hc
  | cons d rest =>
      rw [isName, Bool.and_eq_true, List.all_eq_true] at h
      rcases List.mem_cons.mp hc with rfl | hc
      · exact isNameChar_of_isNameStart h.1
      · exact h.2 c hc

theorem not_mem_of_isName {x : Text} (h : isName x = true) {d : Char} (hd : isNameChar d = false) :
    d ∉ x := by
  intro hmem
  exact ne_of_isNameChar (isNameChar_of_mem h hmem) hd rfl

theorem beginsWithName_of_isName {x : Text} (h : isName x = true) (rest : Text) :
    BeginsWithName (x ++ rest) := by
  cases x with
  | nil => cases h
  | cons c x =>
      rw [isName, Bool.and_eq_true] at h
      exact ⟨c, x ++ rest, rfl, h.1⟩

theorem ne_nil_of_isName {x : Text} (h : isName x = true) : x ≠ [] := by
  intro heq
  rw [heq] at h
  cases h

theorem dropFinalLineFeed_of_not_mem {x : Text} (h : '\n' ∉ x) : dropFinalLineFeed x = x := by
  rw [dropFinalLineFeed, if_neg]
  intro hlast
  exact h (List.mem_of_getLast? hlast)

/-- A name has the form of a name and not that of a value. -/
theorem forms_of_isName {x : Text} (h : isName x = true) :
    isDottedName x = true ∧ isNumeral x = false ∧ isBetweenQuotes x = false := by
  have hpoint : '.' ∉ x := not_mem_of_isName h (by decide)
  have hfirst : ∃ c rest, x = c :: rest ∧ isNameStart c = true := by
    have hbegins := beginsWithName_of_isName h []
    rwa [List.append_nil] at hbegins
  obtain ⟨c, rest, rfl, hc⟩ := hfirst
  have hdigit : isDecimalDigit c = false := by
    have hbounds := nat_bounds_of_isNameStart hc
    have hascii : c.toNat < 0x80 := by omega
    rw [isDecimalDigit, if_pos hascii, Bool.eq_false_iff]
    intro hrange
    rw [Char.isDigit, Bool.and_eq_true, decide_eq_true_eq, decide_eq_true_eq] at hrange
    have hhigh : c.toNat ≤ 0x39 := UInt32.le_iff_toNat_le.mp hrange.2
    omega
  refine ⟨?_, ?_, ?_⟩
  · rw [isDottedName, splitAt_of_not_mem hpoint, List.all_cons, h]
    rfl
  · have hcut : cutAt? '.' (c :: rest) = none := cutAt?_eq_none_iff.mpr hpoint
    rw [isNumeral, hcut]
    dsimp only
    rw [isDigits, List.all_cons, hdigit, Bool.false_and, Bool.and_false]
  · have hdouble : (some c == some '"') = false := by
      rw [beq_eq_false_iff_ne]
      exact fun heq => ne_of_isNameStart hc (by decide) (Option.some.inj heq)
    have hsingle : (some c == some '\'') = false := by
      rw [beq_eq_false_iff_ne]
      exact fun heq => ne_of_isNameStart hc (by decide) (Option.some.inj heq)
    rw [isBetweenQuotes, List.head?_cons, hdouble, hsingle, Bool.or_false, Bool.and_false]

/-- Names that are joined by points consist of their characters and of points. -/
theorem nameChar_or_point {x : Text} (h : isDottedName x = true) {c : Char} (hc : c ∈ x) :
    isNameChar c = true ∨ c = '.' := by
  rcases cuts_or_mem_part (p := (· == '.')) hc with hpoint | ⟨part, hpart, hc⟩
  · exact .inr (beq_iff_eq.mp hpoint)
  · rw [isDottedName, List.all_eq_true] at h
    exact .inl (isNameChar_of_mem (h part hpart) hc)

/-- Names that are joined by points are one lexeme. -/
theorem tokenize_of_isDottedName {x : Text} (h : isDottedName x = true) :
    Profile.extended.tokenize x = [String.ofList x] := by
  have hfirsts : ∀ glyph ∈ Profile.extended.doubles,
      isNameChar glyph.1 = false ∧ glyph.1 ≠ '.' := by decide
  have hjoins : ∀ c ∈ x, Profile.extended.joins c = true := by
    intro c hc
    rcases nameChar_or_point h hc with hname | rfl
    · exact joins_of_isNameChar hname
    · decide
  have hno_double : ∀ c d, [c, d] <:+: x → (c, d) ∉ Profile.extended.doubles := by
    intro c d hpair hglyph
    obtain ⟨hletter, hpoint⟩ := hfirsts (c, d) hglyph
    rcases nameChar_or_point h (hpair.subset (List.mem_cons_self ..)) with hname | heq
    · exact ne_of_isNameChar hname hletter rfl
    · exact hpoint heq
  have hwhole := Profile.lexemesFrom_word hjoins hno_double []
  rw [Profile.tokenize, hwhole, List.append_nil]
  cases hx : x.reverse with
  | nil =>
      rw [List.reverse_eq_nil_iff.mp hx] at h
      cases h
  | cons c rest =>
      rw [Profile.flush, ← hx, List.reverse_reverse]
      exact List.cons_ne_nil c rest

/-! ## What a line leads with -/

/-- What a text leads with is found in its first word. -/
theorem leadingWord_append {x rest : Text} (hne : x ≠ [])
    (hfirst : ∀ c ∈ x.head?, isBlank c = false)
    (hrest : ∀ c ∈ rest.head?, isNameChar c = false) : leadingWord (x ++ rest) = leadingWord x := by
  cases x with
  | nil => exact absurd rfl hne
  | cons c x =>
      have hc : ¬ isBlank c = true := Bool.eq_false_iff.mp (hfirst c rfl)
      -- the run of name characters does not go on into the rest
      have hstop : rest.takeWhile isNameChar = [] := by
        cases rest with
        | nil => rfl
        | cons d rest => exact List.takeWhile_cons_of_neg (Bool.eq_false_iff.mp (hrest d rfl))
      have htake : (x ++ rest).takeWhile isNameChar = x.takeWhile isNameChar := by
        rw [List.takeWhile_append]
        split
        · rename_i hall
          rw [hstop, List.append_nil, (List.takeWhile_prefix isNameChar).eq_of_length hall]
        · rfl
      rw [leadingWord, leadingWord, List.cons_append, trimStart, trimStart,
        List.dropWhile_cons_of_neg hc, List.dropWhile_cons_of_neg hc]
      dsimp only
      rw [htake]

theorem leadingWord_of_isName {x : Text} (h : isName x = true) : leadingWord x = lower x := by
  cases x with
  | nil => cases h
  | cons c x =>
      rw [isName, Bool.and_eq_true, List.all_eq_true] at h
      have hc : ¬ isBlank c = true := Bool.eq_false_iff.mp (not_isBlank_of_isNameStart h.1)
      have htake : x.takeWhile isNameChar = x := List.takeWhile_eq_self_iff.mpr h.2
      rw [leadingWord, trimStart, List.dropWhile_cons_of_neg hc]
      dsimp only
      rw [if_pos h.1, htake]

/-! ## Which keyword a line begins with -/

section Keywords

variable {text rest : Text}

theorem afterKeyword?_eq_some_iff {keyword : Lexeme} :
    afterKeyword? keyword text = some rest ↔
      text = keyword.toList ++ rest ∧ atWordEnd rest = true := by
  rw [afterKeyword?, Option.filter_eq_some_iff, after?_eq_some_iff]

/-- The gap between the two words is all of the white space after the first one. -/
theorem afterElseIf?_eq_some_iff :
    afterElseIf? text = some rest ↔ ∃ gap, gap ≠ [] ∧ (∀ c ∈ gap, isBlank c = true) ∧
      text = "else".toList ++ gap ++ "if".toList ++ rest ∧ atWordEnd rest = true := by
  refine ⟨fun h => ?_, ?_⟩
  · unfold afterElseIf? at h
    split at h
    · cases h
    · rename_i tail htail
      split at h
      · cases h
      · rename_i hgap
        obtain ⟨hif, hend⟩ := afterKeyword?_eq_some_iff.mp h
        refine ⟨tail.takeWhile isBlank, fun hnil => hgap (List.isEmpty_iff.mpr hnil),
          fun c hc => List.mem_takeWhile_imp hc, ?_, hend⟩
        rw [after?_eq_some_iff.mp htail, List.append_assoc, List.append_assoc, ← hif, trimStart,
          List.takeWhile_append_dropWhile]
        rfl
  · rintro ⟨gap, hne, hgap, rfl, hend⟩
    have hafter : after? ['e', 'l', 's', 'e'] ("else".toList ++ gap ++ "if".toList ++ rest) =
        some (gap ++ ("if".toList ++ rest)) := by
      rw [after?_eq_some_iff, List.append_assoc, List.append_assoc]
      rfl
    have htake : (gap ++ ("if".toList ++ rest)).takeWhile isBlank = gap := by
      rw [List.takeWhile_append_of_pos hgap]
      exact List.append_nil gap
    have hdrop : trimStart (gap ++ ("if".toList ++ rest)) = "if".toList ++ rest :=
      List.dropWhile_append_of_pos hgap
    rw [afterElseIf?, hafter]
    dsimp only
    rw [htake, if_neg fun hnil => hne (List.isEmpty_iff.mp hnil), hdrop]
    exact afterKeyword?_eq_some_iff.mpr ⟨rfl, hend⟩

end Keywords

theorem afterKeyword?_self {keyword : Lexeme} (rest : Text) :
    afterKeyword? keyword (keyword.toList ++ ' ' :: rest) = some (' ' :: rest) :=
  afterKeyword?_eq_some_iff.mpr ⟨rfl, rfl⟩

/-- After a name, a shorter keyword leaves a character that goes on with the word. -/
theorem after?_headed {x keyword : Text} (hx : isName x = true) (hkeyword : isName keyword = true)
    {rest tail : Text} (h : after? keyword (x ++ ' ' :: rest) = some tail) :
    (x = keyword ∧ tail = ' ' :: rest) ∨ ∃ c more, isNameChar c = true ∧ tail = c :: more := by
  rw [after?_eq_some_iff, List.append_eq_append_iff] at h
  rcases h with ⟨more, hlonger, htail⟩ | ⟨more, hshorter, htail⟩
  · cases more with
    | nil =>
        rw [List.append_nil] at hlonger
        exact .inl ⟨hlonger.symm, htail.symm⟩
    | cons c more =>
        -- the keyword would hold the space
        obtain ⟨rfl, -⟩ := List.cons.inj htail
        have hspace : ' ' ∈ keyword := by
          rw [hlonger]
          exact List.mem_append_right _ (List.mem_cons_self ..)
        exact absurd hspace (not_mem_of_isName hkeyword (by decide))
  · cases more with
    | nil =>
        rw [List.append_nil] at hshorter
        exact .inl ⟨hshorter, htail⟩
    | cons c more =>
        have hc : c ∈ x := by
          rw [hshorter]
          exact List.mem_append_right _ (List.mem_cons_self ..)
        exact .inr ⟨c, more ++ ' ' :: rest, isNameChar_of_mem hx hc, htail⟩

/-- A line begins with no keyword but the name at its beginning. -/
theorem afterKeyword?_other {x : Text} {keyword : Lexeme} (hx : isName x = true)
    (hkeyword : isName keyword.toList = true) (hne : x ≠ keyword.toList) (rest : Text) :
    afterKeyword? keyword (x ++ ' ' :: rest) = none := by
  rw [Option.eq_none_iff_forall_ne_some]
  intro tail hafter
  obtain ⟨heq, hend⟩ := afterKeyword?_eq_some_iff.mp hafter
  rcases after?_headed hx hkeyword (after?_eq_some_iff.mpr heq) with ⟨h, -⟩ | ⟨c, more, hc, rfl⟩
  · exact hne h
  · rw [atWordEnd, isWordChar_of_isNameChar hc] at hend
    cases hend

/-- **A header word is recognised**, however it goes on. -/
theorem conditionHeader?_word (word : ConditionWord) (rest : Text) :
    conditionHeader? (word.text.toList ++ ' ' :: rest) = some (word, ' ' :: rest) := by
  cases word with
  | ifWord =>
      rw [conditionHeader?, ConditionWord.text, afterKeyword?_self]
      rfl
  | whileWord =>
      rw [conditionHeader?, ConditionWord.text,
        afterKeyword?_other (by decide) (by decide) (by decide),
        afterKeyword?_self]
      rfl
  | elifWord =>
      rw [conditionHeader?, ConditionWord.text,
        afterKeyword?_other (by decide) (by decide) (by decide),
        afterKeyword?_other (by decide) (by decide) (by decide), afterKeyword?_self]
      rfl
  | elseIfWord =>
      have hwords : ConditionWord.elseIfWord.text.toList ++ ' ' :: rest =
          ['e', 'l', 's', 'e'] ++ ' ' :: ("if".toList ++ ' ' :: rest) := rfl
      have hif : afterElseIf? (['e', 'l', 's', 'e'] ++ ' ' :: ("if".toList ++ ' ' :: rest)) =
          some (' ' :: rest) :=
        afterElseIf?_eq_some_iff.mpr
          ⟨[' '], List.cons_ne_nil _ _, List.forall_mem_singleton.mpr rfl, rfl, rfl⟩
      rw [hwords, conditionHeader?, afterKeyword?_other (by decide) (by decide) (by decide),
        afterKeyword?_other (by decide) (by decide) (by decide),
        afterKeyword?_other (by decide) (by decide) (by decide), hif]
      rfl

/-! ## Solid texts -/

/-- A character that may end a line of some dialect. -/
def isLineEnd (c : Char) : Bool :=
  c == ';' || c == ':' || c == '\x7b'

/-- Neither trimming nor the dropping of what ends a line changes the text. -/
structure Solid (x : Text) : Prop where
  ne_nil : x ≠ []
  first : ∀ c ∈ x.head?, isBlank c = false
  last : ∀ c ∈ x.getLast?, isBlank c = false ∧ isLineEnd c = false

theorem dropEndWhile_append {p : Char → Bool} {tail : Text} (htail : ∀ c ∈ tail, p c = true)
    (x : Text) : dropEndWhile p (x ++ tail) = dropEndWhile p x := by
  have hreverse : ∀ c ∈ tail.reverse, p c = true := by
    intro c hc
    exact htail c (List.mem_reverse.mp hc)
  rw [dropEndWhile, dropEndWhile, List.reverse_append, List.dropWhile_append_of_pos hreverse]

theorem dropEndWhile_of_last {p : Char → Bool} {x : Text} (h : ∀ c ∈ x.getLast?, p c = false) :
    dropEndWhile p x = x := by
  rw [dropEndWhile]
  cases hx : x.reverse with
  | nil =>
      rw [List.reverse_eq_nil_iff.mp hx]
      rfl
  | cons c rest =>
      have hlast : x.getLast? = some c := by rw [← List.head?_reverse, hx]; rfl
      have hc : ¬ p c = true := Bool.eq_false_iff.mp (h c hlast)
      rw [List.dropWhile_cons_of_neg hc, ← hx, List.reverse_reverse]

/-- What is dropped at the end satisfies the test. -/
theorem exists_eq_dropEndWhile_append (p : Char → Bool) (text : Text) :
    ∃ tail, text = dropEndWhile p text ++ tail ∧ ∀ c ∈ tail, p c = true :=
  ⟨text.rtakeWhile p, List.rdropWhile_append_rtakeWhile.symm,
    fun _ => List.mem_rtakeWhile_imp⟩

theorem exists_eq_append_trim (text : Text) :
    ∃ front back, text = front ++ (trim text ++ back) ∧
      (∀ c ∈ front, isBlank c = true) ∧ ∀ c ∈ back, isBlank c = true := by
  obtain ⟨back, heq, hback⟩ := exists_eq_dropEndWhile_append isBlank (trimStart text)
  refine ⟨text.takeWhile isBlank, back, ?_, fun c hc => List.mem_takeWhile_imp hc, hback⟩
  rw [trim, trimEnd, ← heq]
  exact List.takeWhile_append_dropWhile.symm

/-- White space around a text that has none at its ends is trimmed, and nothing else is. -/
theorem trim_append {before x after : Text} (hbefore : ∀ c ∈ before, isBlank c = true)
    (hafter : ∀ c ∈ after, isBlank c = true) (hne : x ≠ [])
    (hfirst : ∀ c ∈ x.head?, isBlank c = false) (hlast : ∀ c ∈ x.getLast?, isBlank c = false) :
    trim (before ++ x ++ after) = x := by
  have hstart : trimStart (before ++ x ++ after) = x ++ after := by
    rw [trimStart, List.append_assoc, List.dropWhile_append_of_pos hbefore]
    cases x with
    | nil => exact absurd rfl hne
    | cons c x =>
        have hc : ¬ isBlank c = true := Bool.eq_false_iff.mp (hfirst c rfl)
        rw [List.cons_append, List.dropWhile_cons_of_neg hc]
  rw [trim, hstart, trimEnd, dropEndWhile_append hafter, dropEndWhile_of_last hlast]

namespace Solid

variable {x y : Text}

theorem trim (h : Solid x) {before after : Text} (hbefore : ∀ c ∈ before, isBlank c = true)
    (hafter : ∀ c ∈ after, isBlank c = true) : Text.trim (before ++ x ++ after) = x :=
  trim_append hbefore hafter h.ne_nil h.first fun c hc => (h.last c hc).1

theorem trim_eq (h : Solid x) : Text.trim x = x := by
  have hnone : ∀ c ∈ ([] : Text), isBlank c = true := by simp
  have hwhole := h.trim hnone hnone
  rwa [List.nil_append, List.append_nil] at hwhole

theorem trim_space (h : Solid x) : Text.trim (' ' :: x) = x := by
  have hnone : ∀ c ∈ ([] : Text), isBlank c = true := by simp
  have hspace : ∀ c ∈ [' '], isBlank c = true := List.forall_mem_singleton.mpr rfl
  have hwhole := h.trim hspace hnone
  rwa [List.append_nil] at hwhole

theorem trim_append_space (h : Solid x) : Text.trim (x ++ [' ']) = x := by
  have hnone : ∀ c ∈ ([] : Text), isBlank c = true := by simp
  have hspace : ∀ c ∈ [' '], isBlank c = true := List.forall_mem_singleton.mpr rfl
  exact h.trim hnone hspace

theorem append (hx : Solid x) (hy : Solid y) (between : Text) : Solid (x ++ (between ++ y)) where
  ne_nil := List.append_ne_nil_of_left_ne_nil hx.ne_nil _
  first := by
    intro c hc
    rw [List.head?_append_of_ne_nil _ hx.ne_nil] at hc
    exact hx.first c hc
  last := by
    intro c hc
    rw [← List.append_assoc, List.getLast?_append_of_ne_nil _ hy.ne_nil] at hc
    exact hy.last c hc

end Solid

theorem solid_of_isName {x : Text} (h : isName x = true) : Solid x where
  ne_nil := ne_nil_of_isName h
  first := by
    intro c hc
    exact not_isBlank_of_isNameChar (isNameChar_of_mem h (List.mem_of_mem_head? hc))
  last := by
    intro c hc
    have hname := isNameChar_of_mem h (List.mem_of_getLast? hc)
    refine ⟨not_isBlank_of_isNameChar hname, ?_⟩
    rw [isLineEnd, beq_eq_false_iff_ne.mpr (ne_of_isNameChar hname (by decide)),
      beq_eq_false_iff_ne.mpr (ne_of_isNameChar hname (by decide)),
      beq_eq_false_iff_ne.mpr (ne_of_isNameChar hname (by decide))]
    rfl

end Text

namespace Dialect

theorem isLineEnd_of_isTerminator (dialect : Dialect) {c : Char}
    (h : dialect.spec.isTerminator c = true) : Text.isLineEnd c = true := by
  have hparts : c = ';' ∨ c = dialect.spec.blockOpener := by
    rw [Spec.isTerminator, Bool.or_eq_true, beq_iff_eq, beq_iff_eq] at h
    exact h
  rcases hparts with rfl | rfl
  · decide
  · cases dialect <;> decide

/-- **A solid text is found between the white space before it and what ends the line.** -/
theorem strip_append (dialect : Dialect) {before x after : Text} (h : x.Solid)
    (hbefore : ∀ c ∈ before, Text.isBlank c = true)
    (hafter : ∀ c ∈ after, dialect.spec.isTerminator c = true) :
    dialect.spec.strip (before ++ x ++ after) = x := by
  have hends : ∀ c ∈ (x ++ after).getLast?, Text.isBlank c = false := by
    intro c hc
    cases after with
    | nil =>
        rw [List.append_nil] at hc
        exact (h.last c hc).1
    | cons d after =>
        rw [List.getLast?_append_of_ne_nil _ (List.cons_ne_nil d after)] at hc
        have hend := dialect.isLineEnd_of_isTerminator (hafter c (List.mem_of_getLast? hc))
        rw [Text.isLineEnd, Bool.or_eq_true, Bool.or_eq_true, beq_iff_eq, beq_iff_eq,
          beq_iff_eq] at hend
        rcases hend with (rfl | rfl) | rfl <;> decide
  have hfirst : ∀ c ∈ (x ++ after).head?, Text.isBlank c = false := by
    intro c hc
    rw [List.head?_append_of_ne_nil _ h.ne_nil] at hc
    exact h.first c hc
  have hnone : ∀ c ∈ ([] : Text), Text.isBlank c = true := by simp
  have htrim : Text.trim (before ++ x ++ after) = x ++ after := by
    have hwhole := Text.trim_append hbefore hnone
      (List.append_ne_nil_of_left_ne_nil h.ne_nil after) hfirst hends
    rwa [List.append_nil, ← List.append_assoc] at hwhole
  have hlast : ∀ c ∈ x.getLast?, dialect.spec.isTerminator c = false := by
    intro c hc
    rw [Bool.eq_false_iff]
    intro hterminator
    have hend := dialect.isLineEnd_of_isTerminator hterminator
    rw [(h.last c hc).2] at hend
    exact Bool.noConfusion hend
  rw [Spec.strip, htrim, Text.dropEndWhile_append hafter, Text.dropEndWhile_of_last hlast,
    h.trim_eq]

section

variable (dialect : Dialect) {x after : Text} (h : x.Solid)
  (hafter : ∀ c ∈ after, dialect.spec.isTerminator c = true)

include h hafter

theorem strip_tail : dialect.spec.strip (x ++ after) = x := by
  have hnone : ∀ c ∈ ([] : Text), Text.isBlank c = true := by simp
  have hstrip := dialect.strip_append h hnone hafter
  rwa [List.nil_append] at hstrip

theorem strip_space : dialect.spec.strip (' ' :: (x ++ after)) = x := by
  have hspace : ∀ c ∈ [' '], Text.isBlank c = true := List.forall_mem_singleton.mpr rfl
  have hstrip := dialect.strip_append h hspace hafter
  rwa [List.append_assoc, List.singleton_append] at hstrip

end

theorem strip_solid (dialect : Dialect) {x : Text} (h : x.Solid) : dialect.spec.strip x = x := by
  have hnone : ∀ c ∈ ([] : Text), dialect.spec.isTerminator c = true := by simp
  have hstrip := dialect.strip_tail h hnone
  rwa [List.append_nil] at hstrip

end Dialect

end SnippetTree
