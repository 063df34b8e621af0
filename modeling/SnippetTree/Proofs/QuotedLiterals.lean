import SnippetTree.Proofs.Lossless
import SnippetTree.Warning
import Mathlib.Data.List.Infix

/-!
# Quoted literals and the tokenizer

The tokenizer has no quoting rules: whether a quoted literal survives is decided by what it holds.
This file is about texts in which every literal is set off, by white space, by a glyph or by an end
of the text (`Profile.SetOff`). Such a text is cut in front of each literal and behind it
(`lexemesFrom_of_apart`), whatever the literal holds, so each can be looked at by itself. If its
content has neither white space nor a glyph in it, it is one lexeme (`Literal.tokenize_text`). If it
has, the first lexeme that is cut out of it opens the literal and does not close it, since the quote
stands nowhere in the content (`Literal.exists_isCutLiteral`). That is the lexeme the warning is
about, and outside of literals there are no quotes to begin another one with.
-/

namespace SnippetTree

/-- A mark that quoted literals begin and end with. -/
def Text.isQuote (c : Char) : Bool :=
  c == '"' || c == '\''

/-- A text between two quotes of the same sort, which it does not hold itself. -/
structure Literal where
  mark : Char
  content : Text
  isQuote : Text.isQuote mark = true
  closed : mark ∉ content

namespace Literal

/-- The literal with its quotes. -/
def text (l : Literal) : Text :=
  l.mark :: (l.content ++ [l.mark])

/-- The literal as a lexeme. -/
def lexeme (l : Literal) : Lexeme :=
  String.ofList l.text

end Literal

/-- What a text with literals is put together from. -/
inductive Segment where
  | plain (text : Text) (noQuote : ∀ c ∈ text, Text.isQuote c = false)
  | literal (l : Literal)

namespace Segment

/-- The text of a segment. -/
def text : Segment → Text
  | plain text _ => text
  | literal l => l.text

/-- The text of several segments, one after the other. -/
def written (segments : List Segment) : Text :=
  segments.flatMap text

theorem written_cons (first : Segment) (rest : List Segment) :
    written (first :: rest) = first.text ++ written rest :=
  List.flatMap_cons

theorem written_append (front back : List Segment) :
    written (front ++ back) = written front ++ written back :=
  List.flatMap_append

end Segment

namespace Profile

/-- Each literal among the segments is set off: what stands in front of it and what stands behind it
is white space, a glyph of one character, or an end of the text. The segments come after `before`. -/
def SetOff (profile : Profile) : (before : Text) → List Segment → Prop
  | _, [] => True
  | before, .plain text _ :: rest => SetOff profile (before ++ text) rest
  | before, .literal l :: rest =>
    (∀ c ∈ before.getLast?, profile.joins c = false) ∧
      (∀ c ∈ (Segment.written rest).head?, profile.joins c = false) ∧
        SetOff profile (before ++ l.text) rest

/-- There is white space or a glyph in the text. -/
def Breaks (profile : Profile) (text : Text) : Prop :=
  (∃ c ∈ text, profile.joins c = false) ∨ ∃ glyph ∈ profile.doubles, [glyph.1, glyph.2] <:+: text

-- the instances are spelled out, since others would go through all characters there are
instance (profile : Profile) (text : Text) : Decidable (profile.Breaks text) :=
  @instDecidableOr _ _ (List.decidableBEx _ text) (List.decidableBEx _ profile.doubles)

instance decidableSetOff (profile : Profile) :
    (before : Text) → (segments : List Segment) → Decidable (profile.SetOff before segments)
  | _, [] => instDecidableTrue
  | before, .plain text _ :: rest => decidableSetOff profile (before ++ text) rest
  | before, .literal l :: rest =>
    @instDecidableAnd _ _ (Option.decidableForallMem before.getLast?)
      (@instDecidableAnd _ _ (Option.decidableForallMem (Segment.written rest).head?)
        (decidableSetOff profile (before ++ l.text) rest))

/-- The profile has no glyph with a quote in it. -/
structure SparesQuotes (profile : Profile) : Prop where
  joins : ∀ q, Text.isQuote q = true → profile.joins q = true
  doubles : ∀ c d, (c, d) ∈ profile.doubles → Text.isQuote c = false ∧ Text.isQuote d = false

theorem joins_quote {profile : Profile} (hdouble : profile.joins '"' = true)
    (hsingle : profile.joins '\'' = true) (q : Char) (h : Text.isQuote q = true) :
    profile.joins q = true := by
  rw [Text.isQuote, Bool.or_eq_true, beq_iff_eq, beq_iff_eq] at h
  rcases h with rfl | rfl
  · exact hdouble
  · exact hsingle

theorem sparesQuotes_simple : simple.SparesQuotes where
  joins := joins_quote (by decide) (by decide)
  doubles := by
    intro c d h
    cases h

theorem sparesQuotes_extended : extended.SparesQuotes where
  joins := joins_quote (by decide) (by decide)
  doubles := by
    have hdoubles : ∀ glyph ∈ extended.doubles,
        Text.isQuote glyph.1 = false ∧ Text.isQuote glyph.2 = false := by decide
    intro c d h
    exact hdoubles (c, d) h

variable {profile : Profile} {pending u : Text} {c : Char}

/-! ## What is cut out of a literal -/

theorem not_breaks_nil : ¬ profile.Breaks [] := by
  rintro (⟨c, hc, -⟩ | ⟨glyph, -, hinfix⟩)
  · cases hc
  · exact absurd (List.infix_nil.mp hinfix) (List.cons_ne_nil _ _)

/-- What breaks does so at its first character, or after it. -/
theorem Breaks.tail (h : profile.Breaks (c :: u)) (hc : profile.joins c = true)
    (hdouble : ∀ d ∈ u.head?, (c, d) ∉ profile.doubles) : profile.Breaks u := by
  rcases h with ⟨d, hd, hbreak⟩ | ⟨⟨d, e⟩, hglyph, hinfix⟩
  · refine .inl ⟨d, ?_, hbreak⟩
    rcases List.mem_cons.mp hd with rfl | hd
    · exact absurd (hc.symm.trans hbreak) Bool.noConfusion
    · exact hd
  · refine .inr ⟨(d, e), hglyph, ?_⟩
    rcases List.infix_cons_iff.mp hinfix with hprefix | hinfix
    · obtain ⟨rfl, hrest⟩ := List.cons_prefix_cons.mp hprefix
      obtain ⟨more, rfl⟩ := hrest
      exact absurd hglyph (hdouble e rfl)
    · exact hinfix

theorem flush_of_ne_nil (h : pending ≠ []) : flush pending = [String.ofList pending.reverse] := by
  cases pending with
  | nil => exact absurd rfl h
  | cons c pending => rfl

/-- The first lexeme of a text that breaks is what is pending and the part of the text in front of
the break. -/
theorem Breaks.lexemesFrom (h : profile.Breaks u) (hpending : pending ≠ []) (q : Char) :
    ∃ kept more, (∀ c ∈ kept, c ∈ u) ∧
      profile.lexemesFrom pending (u ++ [q]) = String.ofList (pending.reverse ++ kept) :: more := by
  -- the four cases are the end of the text, its last character, a glyph of two, and any other
  induction pending, u using lexemesFrom.induct profile with
  | case1 pending => exact absurd h not_breaks_nil
  | case2 pending c =>
      have hc : profile.joins c = false := by
        by_contra hjoins
        exact not_breaks_nil (h.tail (Bool.of_not_eq_false hjoins) (by simp))
      refine ⟨[], profile.lexemesFrom [] [c, q], by simp, ?_⟩
      have hends : ∀ d ∈ [c, q].head?, profile.joins d = false := by
        intro d hd
        obtain rfl : c = d := Option.some.inj hd
        exact hc
      rw [List.singleton_append, lexemesFrom_flush hends, flush_of_ne_nil hpending, List.append_nil]
      rfl
  | case3 pending c d rest hglyph ih =>
      refine ⟨[], String.ofList [c, d] :: profile.lexemesFrom [] (rest ++ [q]), by simp, ?_⟩
      rw [List.cons_append, List.cons_append, lexemesFrom_glyph hglyph, flush_of_ne_nil hpending,
        List.append_nil]
      rfl
  | case4 pending c d rest hglyph done kept habsorb ih =>
      by_cases hc : profile.joins c = true
      · have hdouble : ∀ e ∈ (d :: rest ++ [q]).head?, (c, e) ∉ profile.doubles := by
          rintro e he hmem
          obtain rfl : d = e := Option.some.inj he
          rw [isBlank_of_joins hc, List.contains_iff_mem.mpr hmem] at hglyph
          exact hglyph rfl
        rw [absorb_of_joins hc] at habsorb
        obtain ⟨rfl, rfl⟩ := Prod.mk.inj habsorb
        obtain ⟨kept, more, hkept, hlexemes⟩ := ih (h.tail hc hdouble) (List.cons_ne_nil c pending)
        refine ⟨c :: kept, more, ?_, ?_⟩
        · exact List.forall_mem_cons.mpr
            ⟨List.mem_cons_self .., fun e he => List.mem_cons_of_mem _ (hkept e he)⟩
        · rw [List.cons_append, lexemesFrom_joins hc hdouble, hlexemes, List.reverse_cons,
            List.append_assoc]
          rfl
      · refine ⟨[], profile.lexemesFrom [] (c :: d :: rest ++ [q]), by simp, ?_⟩
        have hends : ∀ e ∈ (c :: d :: rest ++ [q]).head?, profile.joins e = false := by
          intro e he
          obtain rfl : c = e := Option.some.inj he
          exact Bool.eq_false_iff.mpr hc
        rw [lexemesFrom_flush hends, flush_of_ne_nil hpending, List.append_nil]
        rfl

end Profile

namespace Literal

variable {profile : Profile} {l : Literal}

theorem not_mem_doubles (hprofile : profile.SparesQuotes) (l : Literal) (c : Char) :
    (c, l.mark) ∉ profile.doubles ∧ (l.mark, c) ∉ profile.doubles := by
  refine ⟨fun h => ?_, fun h => ?_⟩
  · exact Bool.noConfusion ((hprofile.doubles _ _ h).2.symm.trans l.isQuote)
  · exact Bool.noConfusion ((hprofile.doubles _ _ h).1.symm.trans l.isQuote)

/-- **A literal that nothing breaks is one lexeme.** -/
theorem tokenize_text (hprofile : profile.SparesQuotes) (h : ¬ profile.Breaks l.content) :
    profile.tokenize l.text = [l.lexeme] := by
  have hmark : profile.joins l.mark = true := hprofile.joins l.mark l.isQuote
  have hjoins : ∀ c ∈ l.text, profile.joins c = true := by
    intro c hc
    rw [text, List.mem_cons, List.mem_append, List.mem_singleton] at hc
    rcases hc with rfl | hc | rfl
    · exact hmark
    · exact Bool.of_not_eq_false fun hbreak => h (.inl ⟨c, hc, hbreak⟩)
    · exact hmark
  have hdoubles : ∀ c d, [c, d] <:+: l.text → (c, d) ∉ profile.doubles := by
    intro c d hinfix hglyph
    obtain ⟨hc, hd⟩ := hprofile.doubles c d hglyph
    rcases List.infix_cons_iff.mp hinfix with hprefix | hinfix
    · rw [(List.cons_prefix_cons.mp hprefix).1, l.isQuote] at hc
      exact Bool.noConfusion hc
    rcases List.infix_concat_iff.mp hinfix with hsuffix | hinfix
    · obtain ⟨front, hfront⟩ := hsuffix
      have hlast := congrArg List.getLast? hfront
      rw [List.getLast?_append_of_ne_nil _ (List.cons_ne_nil _ _), List.getLast?_concat] at hlast
      have hmark : d = l.mark := Option.some.inj hlast
      rw [hmark, l.isQuote] at hd
      exact Bool.noConfusion hd
    · exact h (.inr ⟨(c, d), hglyph, hinfix⟩)
  rw [Profile.tokenize, Profile.lexemesFrom_word hjoins hdoubles, List.append_nil,
    Profile.flush_of_ne_nil (by simp [text]), List.reverse_reverse]
  rfl

/-- **A literal that something breaks leaves a lexeme that opens it and does not close it.** -/
theorem exists_isCutLiteral (hprofile : profile.SparesQuotes) (h : profile.Breaks l.content) :
    ∃ lexeme ∈ profile.tokenize l.text, lexeme.isCutLiteral = true := by
  have hmark : profile.joins l.mark = true := hprofile.joins l.mark l.isQuote
  obtain ⟨kept, more, hkept, hlexemes⟩ := h.lexemesFrom (List.cons_ne_nil l.mark []) l.mark
  refine ⟨String.ofList (l.mark :: kept), ?_, ?_⟩
  · rw [Profile.tokenize, text,
      Profile.lexemesFrom_joins hmark (fun d _ => (l.not_mem_doubles hprofile d).2), hlexemes]
    exact List.mem_cons_self
  · have hopen : kept.getLast? ≠ some l.mark :=
      fun hlast => l.closed (hkept l.mark (List.mem_of_getLast? hlast))
    rw [Lexeme.isCutLiteral, String.toList_ofList]
    dsimp only
    rw [Bool.and_eq_true, bne_iff_ne]
    exact ⟨l.isQuote, hopen⟩

theorem isCutLiteral_lexeme (l : Literal) : l.lexeme.isCutLiteral = false := by
  rw [Lexeme.isCutLiteral, lexeme, String.toList_ofList, text]
  dsimp only
  rw [List.getLast?_concat, bne_self_eq_false, Bool.and_false]

/-- A literal is cut exactly if something breaks it. -/
theorem exists_isCutLiteral_iff (hprofile : profile.SparesQuotes) :
    (∃ lexeme ∈ profile.tokenize l.text, lexeme.isCutLiteral = true) ↔
      profile.Breaks l.content := by
  refine ⟨fun hcut => ?_, exists_isCutLiteral hprofile⟩
  by_contra hwhole
  rw [tokenize_text hprofile hwhole] at hcut
  obtain ⟨lexeme, hlexeme, hcut⟩ := hcut
  rw [List.mem_singleton.mp hlexeme, isCutLiteral_lexeme] at hcut
  exact Bool.noConfusion hcut

end Literal

/-! ## A text with literals -/

theorem Lexeme.exists_isQuote {lexeme : Lexeme} (h : lexeme.isCutLiteral = true) :
    ∃ c ∈ lexeme.toList, Text.isQuote c = true := by
  rw [isCutLiteral] at h
  split at h
  next => cases h
  next mark rest heq =>
    rw [Bool.and_eq_true] at h
    exact ⟨mark, by rw [heq]; exact List.mem_cons_self, h.1⟩

theorem Problem.ofLexemes_ne_nil {lexemes : List Lexeme} :
    ofLexemes lexemes ≠ [] ↔ ∃ lexeme ∈ lexemes, lexeme.isCutLiteral = true := by
  rw [ofLexemes, Ne, List.map_eq_nil_iff, List.filter_eq_nil_iff]
  push Not
  rfl

namespace Profile

variable {profile : Profile} {before u : Text} {l : Literal} {rest segments : List Segment}

/-- Lexemes are made of the characters of the text. -/
theorem mem_of_mem_tokenize (hlocal : profile.Local) {lexeme : Lexeme}
    (h : lexeme ∈ profile.tokenize u) {c : Char} (hc : c ∈ lexeme.toList) : c ∈ u := by
  have hmem : c ∈ (profile.tokenize u).flatMap String.toList :=
    List.mem_flatMap.mpr ⟨lexeme, h, hc⟩
  rw [(lossless_tokenize hlocal u).joined] at hmem
  exact (List.mem_filter.mp hmem).1

/-- Where there is no quote, no literal is begun. -/
theorem not_isCutLiteral (hlocal : profile.Local) (hquote : ∀ c ∈ u, Text.isQuote c = false) :
    ¬ ∃ lexeme ∈ profile.tokenize u, lexeme.isCutLiteral = true := by
  rintro ⟨lexeme, hlexeme, hcut⟩
  obtain ⟨c, hc, hmark⟩ := Lexeme.exists_isQuote hcut
  rw [hquote c (mem_of_mem_tokenize hlocal hlexeme hc)] at hmark
  exact Bool.noConfusion hmark

theorem SetOff.append {front back : List Segment} (h : profile.SetOff before (front ++ back)) :
    profile.SetOff (before ++ Segment.written front) back := by
  induction front generalizing before with
  | nil => rwa [Segment.written, List.flatMap_nil, List.append_nil]
  | cons first front ih =>
      rw [Segment.written_cons, ← List.append_assoc]
      cases first with
      | plain text hquote => exact ih h
      | literal l => exact ih h.2.2

/-- **A literal that is set off is cut by itself**, and so is what stands on either side of it. -/
theorem SetOff.tokenize (hprofile : profile.SparesQuotes)
    (h : profile.SetOff (before ++ u) (.literal l :: rest)) :
    profile.tokenize (u ++ Segment.written (.literal l :: rest)) =
      profile.tokenize u ++ (profile.tokenize l.text ++ profile.tokenize (Segment.written rest)) := by
  obtain ⟨hfront, hback, -⟩ := h
  have hu : ∀ c ∈ u.getLast?, profile.joins c = false := by
    intro c hc
    refine hfront c ?_
    rw [List.getLast?_append, Option.mem_def.mp hc]
    rfl
  have hleft : profile.Apart u (l.text ++ Segment.written rest) := by
    refine ⟨.inl hu, ?_⟩
    rintro c - d hd
    obtain rfl : l.mark = d := Option.some.inj hd
    exact (l.not_mem_doubles hprofile c).1
  have hright : profile.Apart l.text (Segment.written rest) := by
    refine ⟨.inr hback, ?_⟩
    rintro c hc d -
    have hlast : l.text.getLast? = some l.mark := by
      rw [Literal.text, ← List.cons_append, List.getLast?_concat]
    obtain rfl : l.mark = c := Option.some.inj (hlast.symm.trans hc)
    exact (l.not_mem_doubles hprofile d).2
  rw [Segment.written_cons, Segment.text, tokenize_of_apart hleft, tokenize_of_apart hright]

/-- A text without quotes, and segments after it: what is cut are the literals that something
breaks. -/
theorem SetOff.exists_isCutLiteral_iff (hprofile : profile.SparesQuotes) (hlocal : profile.Local)
    (h : profile.SetOff (before ++ u) segments) (hquote : ∀ c ∈ u, Text.isQuote c = false) :
    (∃ lexeme ∈ profile.tokenize (u ++ Segment.written segments), lexeme.isCutLiteral = true) ↔
      ∃ l, .literal l ∈ segments ∧ profile.Breaks l.content := by
  -- the text in front of a literal is dropped with it: what comes next is set off from it
  induction segments generalizing before u with
  | nil =>
      rw [Segment.written, List.flatMap_nil, List.append_nil]
      refine iff_of_false (not_isCutLiteral hlocal hquote) ?_
      rintro ⟨l, hl, -⟩
      cases hl
  | cons first rest ih =>
      cases first with
      | plain text hplain =>
          have hall : ∀ c ∈ u ++ text, Text.isQuote c = false :=
            List.forall_mem_append.mpr ⟨hquote, hplain⟩
          have hrest : profile.SetOff (before ++ (u ++ text)) rest := by
            rw [← List.append_assoc]
            exact h
          rw [Segment.written_cons, Segment.text, ← List.append_assoc, ih hrest hall]
          simp
      | literal l =>
          have hrest : profile.SetOff (before ++ u ++ l.text ++ []) rest := by
            rw [List.append_nil]
            exact h.2.2
          have hafter := ih hrest (by simp)
          rw [h.tokenize hprofile]
          simp only [List.mem_append, List.mem_cons, or_and_right, exists_or,
            not_isCutLiteral hlocal hquote, l.exists_isCutLiteral_iff hprofile, false_or,
            Segment.literal.injEq, exists_eq_left]
          exact or_congr_right hafter

/-! ## Warnings -/

/-- **The warning about a cut literal is exact.** In a text in which every literal is set off, the
tokenizer warns if and only if there is white space or a glyph in the content of one of them, and
each literal that has none in it is one lexeme, between what is cut out of the text in front of it
and what is cut out of the text behind it. -/
theorem warns_iff_breaks (hshipped : profile = simple ∨ profile = extended)
    (h : profile.SetOff [] segments) :
    (Problem.ofLexemes (profile.tokenize (Segment.written segments)) ≠ [] ↔
        ∃ l, .literal l ∈ segments ∧ profile.Breaks l.content) ∧
      ∀ front l back, segments = front ++ .literal l :: back → ¬ profile.Breaks l.content →
        profile.tokenize (Segment.written segments) =
          profile.tokenize (Segment.written front) ++
            l.lexeme :: profile.tokenize (Segment.written back) := by
  have hprofile : profile.SparesQuotes ∧ profile.Local := by
    rcases hshipped with rfl | rfl
    · exact ⟨sparesQuotes_simple, local_simple⟩
    · exact ⟨sparesQuotes_extended, local_extended⟩
  constructor
  · have hstart : profile.SetOff ([] ++ []) segments := h
    rw [Problem.ofLexemes_ne_nil]
    exact hstart.exists_isCutLiteral_iff hprofile.1 hprofile.2 (by simp)
  · rintro front l back rfl hwhole
    have hback : profile.SetOff ([] ++ Segment.written front) (.literal l :: back) := h.append
    rw [Segment.written_append, hback.tokenize hprofile.1, l.tokenize_text hprofile.1 hwhole]
    rfl

/-- In `x="it's" + f('a b')` the first literal holds the other quote and stays whole, and the blank
in the second one is what the warning is about. -/
theorem warns_iff_breaks_other_quote :
    let whole : Literal := ⟨'"', "it's".toList, by decide, by decide⟩
    let cut : Literal := ⟨'\'', "a b".toList, by decide, by decide⟩
    let front : List Segment := [.plain "x=".toList (by simp [Text.isQuote])]
    let back : List Segment := [.plain " + f(".toList (by simp [Text.isQuote]), .literal cut,
      .plain ")".toList (by simp [Text.isQuote])]
    extended.SetOff [] (front ++ .literal whole :: back) ∧
      Problem.ofLexemes (extended.tokenize "x=\"it's\" + f('a b')".toList) ≠ [] ∧
      extended.tokenize "x=\"it's\" + f('a b')".toList =
        extended.tokenize "x=".toList ++ "\"it's\"" :: extended.tokenize " + f('a b')".toList := by
  intro whole cut front back
  have hset : extended.SetOff [] (front ++ .literal whole :: back) := by decide
  obtain ⟨hwarns, hwhole⟩ := warns_iff_breaks (.inr rfl) hset
  refine ⟨hset, ?_, ?_⟩
  · exact hwarns.mpr ⟨cut, by simp [back], by decide⟩
  · exact hwhole front whole back rfl (by decide)

end Profile

end SnippetTree
