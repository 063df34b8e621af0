import SnippetTree.Proofs.Tokens
import Mathlib.Data.List.Chain

/-!
# Nothing is lost in cutting

What the tokenizer cuts out lies in the text, in order, and only white space is left over between
the lexemes (`Laid`). A word is closed by white space, by a glyph or by the end of the text, so two
words that follow each other have white space between them: that is the one condition on neighbours
that `Laid` has. What a reader of the lexemes can rely on is then read off it (`Lossless`).

The word that the tokenizer is in the middle of is kept back to front. No two of its characters in a
row are a glyph, and neither are the last one of them and the character that is read next; it is the
second half that makes the first one last (`Pending`).
-/

namespace SnippetTree.Profile

/-- A word: it is not empty, and no glyph is in it. -/
structure IsPlainWord (profile : Profile) (lexeme : Lexeme) : Prop where
  ne_empty : lexeme ≠ ""
  /-- It holds neither white space nor a glyph of one character. -/
  isWord : profile.IsWord lexeme
  /-- No two characters that follow each other in it are a glyph. -/
  not_double : ∀ c d, [c, d] <:+: lexeme.toList → (c, d) ∉ profile.doubles

/-- The characters of a text that are not white space. -/
def inked (text : Text) : Text :=
  text.filter fun c => !Text.isBlank c

/-- The lexemes are what a text is made of. -/
structure Lossless (profile : Profile) (text : Text) (lexemes : List Lexeme) : Prop where
  /-- Put together they are the text without its white space. -/
  joined : lexemes.flatMap String.toList = inked text
  /-- Each is a glyph or a word, and not empty. -/
  shape : ∀ lexeme ∈ lexemes, lexeme ≠ "" ∧ (profile.IsGlyph lexeme ∨ profile.IsPlainWord lexeme)
  /-- Where one word follows another, the text has both with nothing but white space between them,
  and some of it; what stands before and after is the text of the other lexemes. -/
  separated : ∀ before v w after, lexemes = before ++ v :: w :: after →
    profile.IsPlainWord v → profile.IsPlainWord w →
    ∃ front gap back, text = front ++ v.toList ++ gap ++ w.toList ++ back ∧
      gap ≠ [] ∧ (∀ c ∈ gap, Text.isBlank c = true) ∧
      inked front = before.flatMap String.toList ∧ inked back = after.flatMap String.toList

/-- The text begins with white space. -/
def BlankFirst (text : Text) : Prop :=
  ∃ c rest, text = c :: rest ∧ Text.isBlank c = true

/-- What follows a word in the text, and the lexemes that follow it: they do not begin with another
word, unless white space stands in between. -/
def Closes (profile : Profile) (text : Text) (lexemes : List Lexeme) : Prop :=
  ∀ next ∈ lexemes.head?, profile.IsPlainWord next → BlankFirst text

/-- The lexemes lie in the text, in order, with only white space left over. -/
inductive Laid (profile : Profile) : Text → List Lexeme → Prop where
  | done : Laid profile [] []
  | blank {c : Char} {text : Text} {lexemes : List Lexeme} :
      Text.isBlank c = true → Laid profile text lexemes → Laid profile (c :: text) lexemes
  | glyph {lexeme : Lexeme} {text : Text} {lexemes : List Lexeme} :
      profile.IsGlyph lexeme → (∀ c ∈ lexeme.toList, Text.isBlank c = false) →
      Laid profile text lexemes → Laid profile (lexeme.toList ++ text) (lexeme :: lexemes)
  | word {lexeme : Lexeme} {text : Text} {lexemes : List Lexeme} :
      profile.IsPlainWord lexeme → profile.Closes text lexemes →
      Laid profile text lexemes → Laid profile (lexeme.toList ++ text) (lexeme :: lexemes)

/-- A word in the middle of a text, kept back to front, and the rest of the text. -/
structure Pending (profile : Profile) (pending text : Text) : Prop where
  joins : ∀ c ∈ pending, profile.joins c = true
  /-- No two characters in a row are a glyph, the one that is read next included. -/
  apart : (text.take 1 ++ pending).IsChain fun d c => (c, d) ∉ profile.doubles

variable {profile : Profile} {text : Text} {lexemes : List Lexeme}

/-! ## Characters that are not white space -/

theorem inked_append (u v : Text) : inked (u ++ v) = inked u ++ inked v :=
  List.filter_append ..

theorem inked_of_blank (h : ∀ c ∈ text, Text.isBlank c = true) : inked text = [] := by
  rw [inked, List.filter_eq_nil_iff]
  intro c hc
  simp [h c hc]

theorem inked_of_not_blank (h : ∀ c ∈ text, Text.isBlank c = false) : inked text = text := by
  rw [inked, List.filter_eq_self]
  intro c hc
  simp [h c hc]

/-! ## Words and glyphs -/

theorem isBlank_of_joins {c : Char} (h : profile.joins c = true) : Text.isBlank c = false := by
  rw [joins, Bool.and_eq_true, Bool.not_eq_true'] at h
  exact h.1

theorem IsPlainWord.not_blank {lexeme : Lexeme} (h : profile.IsPlainWord lexeme) :
    ∀ c ∈ lexeme.toList, Text.isBlank c = false :=
  fun c hc => isBlank_of_joins (h.isWord c hc)

theorem IsGlyph.ne_empty {lexeme : Lexeme} (h : profile.IsGlyph lexeme) : lexeme ≠ "" := by
  rcases h with ⟨c, -, rfl⟩ | ⟨c, d, -, rfl⟩
  · exact mt String.ofList_eq_empty_iff.mp (List.cons_ne_nil _ _)
  · exact mt String.ofList_eq_empty_iff.mp (List.cons_ne_nil _ _)

theorem IsGlyph.not_isPlainWord {lexeme : Lexeme} (h : profile.IsGlyph lexeme) :
    ¬ profile.IsPlainWord lexeme := by
  intro hword
  rcases h with ⟨c, hc, rfl⟩ | ⟨c, d, hdouble, rfl⟩
  · have hjoins : profile.joins c = false := by
      rw [joins, List.contains_iff_mem.mpr hc, Bool.not_true, Bool.and_false]
    exact hword.isWord.not_mem hjoins (by simp)
  · exact hword.not_double c d (by simp) hdouble

/-! ## Lexemes in a text -/

/-- The first lexeme, with the white space before it. -/
theorem Laid.cons_inv {lexeme : Lexeme} (h : profile.Laid text (lexeme :: lexemes)) :
    ∃ gap back, text = gap ++ lexeme.toList ++ back ∧ (∀ c ∈ gap, Text.isBlank c = true) ∧
      (∀ c ∈ lexeme.toList, Text.isBlank c = false) ∧ profile.Laid back lexemes ∧
      (profile.IsPlainWord lexeme → profile.Closes back lexemes) := by
  generalize hall : lexeme :: lexemes = all at h
  induction h with
  | done => cases hall
  | @blank c text _ hc _ ih =>
      obtain ⟨gap, back, rfl, hgap, hrest⟩ := ih hall
      exact ⟨c :: gap, back, rfl, List.forall_mem_cons.mpr ⟨hc, hgap⟩, hrest⟩
  | @glyph _ text _ hglyph hink hlaid =>
      cases hall
      exact ⟨[], text, rfl, by simp, hink, hlaid, fun hword => absurd hword hglyph.not_isPlainWord⟩
  | @word _ text _ hword hcloses hlaid =>
      cases hall
      exact ⟨[], text, rfl, by simp, hword.not_blank, hlaid, fun _ => hcloses⟩

theorem Laid.inked_eq (h : profile.Laid text lexemes) :
    lexemes.flatMap String.toList = inked text := by
  induction h with
  | done => rfl
  | @blank c text _ hc _ ih =>
      rw [ih, inked, inked, List.filter_cons_of_neg (by simp [hc])]
  | glyph _ hink _ ih => rw [List.flatMap_cons, ih, inked_append, inked_of_not_blank hink]
  | word hword _ _ ih =>
      rw [List.flatMap_cons, ih, inked_append, inked_of_not_blank hword.not_blank]

theorem Laid.shape (h : profile.Laid text lexemes) : ∀ lexeme ∈ lexemes,
    lexeme ≠ "" ∧ (profile.IsGlyph lexeme ∨ profile.IsPlainWord lexeme) := by
  induction h with
  | done => simp
  | blank _ _ ih => exact ih
  | glyph hglyph _ _ ih => exact List.forall_mem_cons.mpr ⟨⟨hglyph.ne_empty, .inl hglyph⟩, ih⟩
  | word hword _ _ ih => exact List.forall_mem_cons.mpr ⟨⟨hword.ne_empty, .inr hword⟩, ih⟩

/-- Some lexemes from the front, and the text they lie in. -/
theorem Laid.split {before after : List Lexeme} (h : profile.Laid text (before ++ after)) :
    ∃ front back, text = front ++ back ∧ inked front = before.flatMap String.toList ∧
      profile.Laid back after := by
  induction before generalizing text with
  | nil => exact ⟨[], text, rfl, rfl, h⟩
  | cons lexeme before ih =>
      obtain ⟨gap, rest, rfl, hgap, hink, hlaid, -⟩ := h.cons_inv
      obtain ⟨front, back, rfl, hfront, hback⟩ := ih hlaid
      refine ⟨gap ++ lexeme.toList ++ front, back, by simp only [List.append_assoc], ?_, hback⟩
      rw [inked_append, inked_append, inked_of_blank hgap, inked_of_not_blank hink, hfront,
        List.flatMap_cons, List.nil_append]

/-- White space stands in front of a word that follows another one. -/
theorem Laid.separated {before after : List Lexeme} {v w : Lexeme}
    (h : profile.Laid text (before ++ v :: w :: after))
    (hv : profile.IsPlainWord v) (hw : profile.IsPlainWord w) :
    ∃ front gap back, text = front ++ v.toList ++ gap ++ w.toList ++ back ∧
      gap ≠ [] ∧ (∀ c ∈ gap, Text.isBlank c = true) ∧
      inked front = before.flatMap String.toList ∧ inked back = after.flatMap String.toList := by
  obtain ⟨front, rest, rfl, hfront, hrest⟩ := h.split
  obtain ⟨margin, rest, rfl, hmargin, -, hlaid, hcloses⟩ := hrest.cons_inv
  obtain ⟨gap, back, rfl, hgap, hink, hback, -⟩ := hlaid.cons_inv
  refine ⟨front ++ margin, gap, back, by simp only [List.append_assoc], ?_, hgap, ?_,
    hback.inked_eq.symm⟩
  · rintro rfl
    obtain ⟨c, tail, heq, hc⟩ := hcloses hv w rfl hw
    -- the word itself would begin with white space
    obtain ⟨d, word, hword⟩ := List.exists_cons_of_ne_nil (mt String.toList_eq_nil_iff.mp hw.ne_empty)
    rw [hword, List.nil_append, List.cons_append, List.cons.injEq] at heq
    have hd := hink d (by rw [hword]; exact List.mem_cons_self ..)
    rw [heq.1, hc] at hd
    exact Bool.noConfusion hd
  · rw [inked_append, inked_of_blank hmargin, List.append_nil, hfront]

theorem Laid.lossless (h : profile.Laid text lexemes) : profile.Lossless text lexemes where
  joined := h.inked_eq
  shape := h.shape
  separated := by
    rintro before v w after rfl hv hw
    exact h.separated hv hw

/-! ## The pending word -/

theorem Pending.empty (text : Text) : profile.Pending [] text where
  joins := by simp
  apart := by cases text <;> simp

theorem Pending.isPlainWord {c : Char} {pending : Text} (h : profile.Pending (c :: pending) text) :
    profile.IsPlainWord (String.ofList (c :: pending).reverse) where
  ne_empty := mt String.ofList_eq_empty_iff.mp (by simp)
  isWord := by
    intro d hd
    rw [String.toList_ofList, List.mem_reverse] at hd
    exact h.joins d hd
  not_double := by
    intro d e hinfix
    rw [String.toList_ofList] at hinfix
    have hword : ((c :: pending).reverse).IsChain fun d e => (d, e) ∉ profile.doubles :=
      List.isChain_reverse.mpr h.apart.right_of_append
    have hpair := List.IsChain.infix hword hinfix
    exact List.isChain_pair.mp hpair

/-- The pending word is closed by what follows it. -/
theorem Pending.laid_flush {pending : Text} (h : profile.Pending pending text)
    (hcloses : profile.Closes text lexemes) (hlaid : profile.Laid text lexemes) :
    profile.Laid (pending.reverse ++ text) (flush pending ++ lexemes) := by
  cases pending with
  | nil => exact hlaid
  | cons c pending =>
      have hword := Laid.word h.isPlainWord hcloses hlaid
      rwa [String.toList_ofList] at hword

theorem closes_nil : profile.Closes text [] := by
  intro next h
  cases h

theorem closes_glyph {lexeme : Lexeme} (h : profile.IsGlyph lexeme) :
    profile.Closes text (lexeme :: lexemes) := by
  intro next hnext hword
  cases hnext
  exact absurd hword h.not_isPlainWord

/-- A glyph closes the pending word and is the next lexeme. -/
theorem Pending.laid_glyph {pending glyph : Text}
    (h : profile.Pending pending (glyph ++ text)) (hglyph : profile.IsGlyph (String.ofList glyph))
    (hink : ∀ c ∈ glyph, Text.isBlank c = false) (hlaid : profile.Laid text lexemes) :
    profile.Laid (pending.reverse ++ (glyph ++ text))
      (flush pending ++ String.ofList glyph :: lexemes) := by
  have hfirst := Laid.glyph hglyph (by rwa [String.toList_ofList]) hlaid
  rw [String.toList_ofList] at hfirst
  exact h.laid_flush (closes_glyph hglyph) hfirst

/-- One character, if it does not begin a glyph of two: the word that is pending after it is as good
as the one before, and what is laid after it is laid from it on. -/
theorem Pending.absorb {c : Char} {pending : Text} (h : profile.Pending pending (c :: text))
    (hnext : Text.isBlank c = false → ∀ d ∈ text.head?, (c, d) ∉ profile.doubles) :
    profile.Pending (profile.absorb pending c).2 text ∧
      ∀ lexemes, profile.Laid ((profile.absorb pending c).2.reverse ++ text) lexemes →
        profile.Laid (pending.reverse ++ c :: text) ((profile.absorb pending c).1 ++ lexemes) := by
  unfold Profile.absorb
  split
  next hblank =>
    refine ⟨.empty text, fun lexemes hlaid => ?_⟩
    exact h.laid_flush (fun _ _ _ => ⟨c, text, rfl, hblank⟩) (.blank hblank hlaid)
  next hblank =>
    have hink := Bool.eq_false_iff.mpr hblank
    split
    next hsingle =>
      refine ⟨.empty text, fun lexemes hlaid => ?_⟩
      rw [List.append_assoc]
      exact h.laid_glyph (.inl ⟨c, List.contains_iff_mem.mp hsingle, rfl⟩) (by simpa using hink)
        hlaid
    next hsingle =>
      -- the character joins the word, and nothing is completed
      refine ⟨⟨?_, ?_⟩, fun lexemes hlaid => by simpa using hlaid⟩
      · have hjoins : profile.joins c = true := by
          rw [Profile.joins, hink, Bool.eq_false_iff.mpr hsingle]
          rfl
        exact List.forall_mem_cons.mpr ⟨hjoins, h.joins⟩
      · cases text with
        | nil => exact h.apart
        | cons d text => exact List.isChain_cons_cons.mpr ⟨hnext hink d rfl, h.apart⟩

/-- What is cut out of a text lies in it. -/
theorem laid_lexemesFrom (hlocal : profile.Local) {pending : Text}
    (h : profile.Pending pending text) :
    profile.Laid (pending.reverse ++ text) (profile.lexemesFrom pending text) := by
  -- the four cases are the end of the text, its last character, a glyph of two, and any other
  induction pending, text using lexemesFrom.induct profile with
  | case1 pending =>
      rw [lexemesFrom_nil, ← List.append_nil (flush pending)]
      exact h.laid_flush closes_nil .done
  | case2 pending c =>
      obtain ⟨hkept, hlaid⟩ := h.absorb (by simp)
      rw [lexemesFrom_one]
      have hlast := hkept.laid_flush closes_nil .done
      rw [List.append_nil (flush _)] at hlast
      exact hlaid _ hlast
  | case3 pending c d rest hglyph ih =>
      rw [lexemesFrom_glyph hglyph]
      rw [Bool.and_eq_true, Bool.not_eq_true', List.contains_iff_mem] at hglyph
      have hink : ∀ e ∈ [c, d], Text.isBlank e = false := by
        simpa using ⟨hglyph.1, hlocal c d hglyph.2⟩
      have hall : profile.Pending pending ([c, d] ++ rest) := h
      exact hall.laid_glyph (.inr ⟨c, d, hglyph.2, rfl⟩) hink (ih (.empty rest))
  | case4 pending c d rest hglyph done kept habsorb ih =>
      have hnext : Text.isBlank c = false → ∀ e ∈ (d :: rest).head?, (c, e) ∉ profile.doubles := by
        rintro hink e he hdouble
        cases he
        rw [hink, List.contains_iff_mem.mpr hdouble] at hglyph
        exact hglyph rfl
      obtain ⟨hkept, hlaid⟩ := h.absorb hnext
      rw [lexemesFrom_other hglyph]
      rw [habsorb] at hkept hlaid ⊢
      exact hlaid _ (ih hkept)

/-! ## The tokenizer -/

/-- **The tokenizer loses nothing.** The lexemes of a text, put together, are the text without its
white space; each is a glyph or a word that no glyph is in; and two words in a row stand apart in the
text. It is enough that the second character of a glyph of two is not white space: a glyph that
begins with white space is never found. -/
theorem lossless_tokenize (hlocal : profile.Local) (text : Text) :
    profile.Lossless text (profile.tokenize text) :=
  (laid_lexemesFrom hlocal (.empty text)).lossless

/-- Half a glyph is a part of a word, the whole glyph closes it. -/
theorem lossless_tokenize_halves : extended.Local ∧
    extended.tokenize "a&b&&c d+=|".toList = ["a&b", "&&", "c", "d", "+=", "|"] ∧
    extended.Lossless "a&b&&c d+=|".toList ["a&b", "&&", "c", "d", "+=", "|"] := by
  have htokens : extended.tokenize "a&b&&c d+=|".toList =
      ["a&b", "&&", "c", "d", "+=", "|"] := by decide
  exact ⟨local_extended, htokens, htokens ▸ lossless_tokenize local_extended _⟩

end SnippetTree.Profile
