import SnippetTree.Profile

/-!
# What the tokenizer cuts

The tokenizer looks at most one character ahead. Where a word ends, and no glyph of two characters
reaches over the place, a text is cut into the lexemes of its two sides (`lexemesFrom_of_apart`). This
is so at every blank, since no glyph reaches over white space (`lexemesFrom_append`).
Whatever it cuts out is a glyph, or a word that holds neither white space nor a single glyph
(`Profile.glyph_or_word`); so a lexeme that is cut out of itself is one of the two.

A space is written in front of each lexeme here and taken away from the first one (`spacedAll`), so
that what is said of one lexeme with its space is said of a list of them by a plain induction.
-/

namespace SnippetTree

namespace Profile

/-- The character goes on with a word. -/
def joins (profile : Profile) (c : Char) : Bool :=
  !Text.isBlank c && !profile.singles.contains c

/-- The lexeme is one of the glyphs. -/
def IsGlyph (profile : Profile) (lexeme : Lexeme) : Prop :=
  (∃ c ∈ profile.singles, lexeme = String.ofList [c]) ∨
    ∃ c d, (c, d) ∈ profile.doubles ∧ lexeme = String.ofList [c, d]

/-- All characters of the lexeme join a word. -/
def IsWord (profile : Profile) (lexeme : Lexeme) : Prop :=
  ∀ c ∈ lexeme.toList, profile.joins c = true

theorem IsWord.not_mem {profile : Profile} {lexeme : Lexeme} (h : profile.IsWord lexeme) {c : Char}
    (hc : profile.joins c = false) : c ∉ lexeme.toList := by
  intro hmem
  rw [h c hmem] at hc
  exact Bool.noConfusion hc

/-- No glyph reaches over white space. -/
def Local (profile : Profile) : Prop :=
  ∀ c d, (c, d) ∈ profile.doubles → Text.isBlank d = false

theorem local_simple : simple.Local := by
  intro c d h
  cases h

theorem local_extended : extended.Local := by
  have hdoubles : ∀ glyph ∈ extended.doubles, Text.isBlank glyph.2 = false := by decide
  intro c d h
  exact hdoubles (c, d) h

variable {profile : Profile}

/-! ## One character after the other -/

theorem lexemesFrom_nil (pending : Text) : profile.lexemesFrom pending [] = flush pending := by
  rw [lexemesFrom.eq_def]

theorem lexemesFrom_one (pending : Text) (c : Char) : profile.lexemesFrom pending [c] =
    (profile.absorb pending c).1 ++ flush (profile.absorb pending c).2 := by
  rw [lexemesFrom.eq_def]

theorem lexemesFrom_glyph {c d : Char}
    (h : (!Text.isBlank c && profile.doubles.contains (c, d)) = true) (pending rest : Text) :
    profile.lexemesFrom pending (c :: d :: rest) =
      flush pending ++ String.ofList [c, d] :: profile.lexemesFrom [] rest := by
  rw [lexemesFrom.eq_def]
  exact if_pos h

theorem lexemesFrom_other {c d : Char}
    (h : ¬ (!Text.isBlank c && profile.doubles.contains (c, d)) = true) (pending rest : Text) :
    profile.lexemesFrom pending (c :: d :: rest) = (profile.absorb pending c).1 ++
      profile.lexemesFrom (profile.absorb pending c).2 (d :: rest) := by
  rw [lexemesFrom.eq_def]
  exact if_neg h

theorem absorb_of_joins {c : Char} (h : profile.joins c = true) (pending : Text) :
    profile.absorb pending c = ([], c :: pending) := by
  rw [joins, Bool.and_eq_true, Bool.not_eq_true', Bool.not_eq_true'] at h
  rw [absorb, if_neg (Bool.eq_false_iff.mp h.1), if_neg (Bool.eq_false_iff.mp h.2)]

/-- A character that begins no glyph joins the pending word. -/
theorem lexemesFrom_joins {c : Char} {v : Text} (h : profile.joins c = true)
    (hdouble : ∀ d ∈ v.head?, (c, d) ∉ profile.doubles) (pending : Text) :
    profile.lexemesFrom pending (c :: v) = profile.lexemesFrom (c :: pending) v := by
  cases v with
  | nil =>
      rw [lexemesFrom_one, absorb_of_joins h, lexemesFrom_nil]
      rfl
  | cons d v =>
      have hglyph : ¬ (!Text.isBlank c && profile.doubles.contains (c, d)) = true := by
        rw [Bool.and_eq_true, List.contains_iff_mem]
        exact fun hglyph => hdouble d rfl hglyph.2
      rw [lexemesFrom_other hglyph, absorb_of_joins h]
      rfl

/-! ## Where a text is cut -/

theorem absorb_blank {b : Char} (hb : Text.isBlank b = true) (pending : Text) :
    profile.absorb pending b = (flush pending, []) := by
  rw [absorb, if_pos hb]

/-- White space or a glyph of one character ends the pending word and leaves nothing pending. -/
theorem absorb_of_not_joins {c : Char} (h : profile.joins c = false) (pending : Text) :
    (profile.absorb pending c).1 = flush pending ++ (profile.absorb [] c).1 ∧
      (profile.absorb pending c).2 = [] := by
  by_cases hblank : Text.isBlank c = true
  · rw [absorb_blank hblank, absorb_blank hblank]
    exact ⟨(List.append_nil _).symm, rfl⟩
  · have hsingle : profile.singles.contains c = true := by
      rw [joins, Bool.eq_false_iff.mpr hblank, Bool.not_false, Bool.true_and,
        Bool.not_eq_false'] at h
      exact h
    rw [absorb, absorb, if_neg hblank, if_neg hblank, if_pos hsingle, if_pos hsingle]
    exact ⟨rfl, rfl⟩

/-- What begins with white space or a glyph of one character is cut by itself. -/
theorem lexemesFrom_flush {v : Text} (h : ∀ d ∈ v.head?, profile.joins d = false) (pending : Text) :
    profile.lexemesFrom pending v = flush pending ++ profile.lexemesFrom [] v := by
  cases v with
  | nil => rw [lexemesFrom_nil, lexemesFrom_nil, flush, List.append_nil]
  | cons c v =>
      have hc : profile.joins c = false := h c rfl
      obtain ⟨hdone, hkept⟩ := absorb_of_not_joins hc pending
      have hnone := (absorb_of_not_joins hc []).2
      cases v with
      | nil => rw [lexemesFrom_one, lexemesFrom_one, hdone, hkept, hnone, List.append_assoc]
      | cons d v =>
          by_cases hglyph : (!Text.isBlank c && profile.doubles.contains (c, d)) = true
          · rw [lexemesFrom_glyph hglyph, lexemesFrom_glyph hglyph]
            rfl
          · rw [lexemesFrom_other hglyph, lexemesFrom_other hglyph, hdone, hkept, hnone,
              List.append_assoc]

/-- Between the two texts a word ends, and no glyph of two characters reaches from the one into the
other. -/
structure Apart (profile : Profile) (u v : Text) : Prop where
  ends : (∀ c ∈ u.getLast?, profile.joins c = false) ∨ ∀ d ∈ v.head?, profile.joins d = false
  no_double : ∀ c ∈ u.getLast?, ∀ d ∈ v.head?, (c, d) ∉ profile.doubles

theorem Apart.tail {c : Char} {u v : Text} (h : profile.Apart (c :: u) v) : profile.Apart u v := by
  have hlast : ∀ d ∈ u.getLast?, d ∈ (c :: u).getLast? := by
    intro d hd
    rw [List.getLast?_cons, Option.mem_def.mp hd]
    rfl
  exact ⟨h.ends.imp_left fun hends d hd => hends d (hlast d hd),
    fun d hd => h.no_double d (hlast d hd)⟩

/-- **Texts that are apart are cut apart.** If the first of them is empty, a word may be pending only
if the second one ends it. -/
theorem lexemesFrom_of_apart {u v : Text} (h : profile.Apart u v) (pending : Text)
    (hpending : u = [] → pending = [] ∨ ∀ d ∈ v.head?, profile.joins d = false) :
    profile.lexemesFrom pending (u ++ v) =
      profile.lexemesFrom pending u ++ profile.lexemesFrom [] v := by
  -- the four cases are the end of the left side, its last character, a glyph of two, and any other
  induction pending, u using lexemesFrom.induct profile with
  | case1 pending =>
      rw [List.nil_append, lexemesFrom_nil]
      rcases hpending rfl with rfl | hends
      · rfl
      · exact lexemesFrom_flush hends pending
  | case2 pending c =>
      cases v with
      | nil => rw [lexemesFrom_nil, flush, List.append_nil, List.append_nil]
      | cons d v =>
          have hglyph : ¬ (!Text.isBlank c && profile.doubles.contains (c, d)) = true := by
            rw [Bool.and_eq_true, List.contains_iff_mem]
            exact fun hglyph => h.no_double c rfl d rfl hglyph.2
          rw [List.singleton_append, lexemesFrom_other hglyph, lexemesFrom_one, List.append_assoc]
          rcases h.ends with hends | hends
          · rw [(absorb_of_not_joins (hends c rfl) pending).2]
            rfl
          · rw [lexemesFrom_flush hends]
  | case3 pending c d rest hglyph ih =>
      rw [List.cons_append, List.cons_append, lexemesFrom_glyph hglyph, lexemesFrom_glyph hglyph,
        ih h.tail.tail fun _ => .inl rfl, List.append_assoc, List.cons_append]
  | case4 pending c d rest hglyph done kept habsorb ih =>
      rw [List.cons_append, List.cons_append, lexemesFrom_other hglyph, lexemesFrom_other hglyph,
        habsorb]
      dsimp only
      rw [← List.cons_append, ih h.tail fun hnil => absurd hnil (List.cons_ne_nil d rest),
        List.append_assoc]

theorem tokenize_of_apart {u v : Text} (h : profile.Apart u v) :
    profile.tokenize (u ++ v) = profile.tokenize u ++ profile.tokenize v :=
  lexemesFrom_of_apart h [] fun _ => .inl rfl

/-! ## White space -/

/-- White space ends the pending word and leaves nothing behind. -/
theorem lexemesFrom_blank {b : Char} (hb : Text.isBlank b = true) (pending v : Text) :
    profile.lexemesFrom pending (b :: v) = flush pending ++ profile.lexemesFrom [] v := by
  cases v with
  | nil =>
      rw [lexemesFrom_one, absorb_blank hb]
      rfl
  | cons d v =>
      have hglyph : ¬ (!Text.isBlank b && profile.doubles.contains (b, d)) = true := by
        rw [hb]
        exact Bool.noConfusion
      rw [lexemesFrom_other hglyph, absorb_blank hb]

/-- **White space separates**: what stands on either side of it is cut by itself. -/
theorem lexemesFrom_append (hlocal : profile.Local) {b : Char} (hb : Text.isBlank b = true)
    (pending u v : Text) : profile.lexemesFrom pending (u ++ b :: v) =
      profile.lexemesFrom pending u ++ profile.lexemesFrom [] v := by
  have hends : ∀ d ∈ (b :: v).head?, profile.joins d = false := by
    rintro d hd
    obtain rfl : b = d := Option.some.inj hd
    rw [joins, hb, Bool.not_true, Bool.false_and]
  have hapart : profile.Apart u (b :: v) := by
    refine ⟨.inr hends, ?_⟩
    rintro c - d hd hdouble
    obtain rfl : b = d := Option.some.inj hd
    rw [hlocal c b hdouble] at hb
    exact Bool.noConfusion hb
  rw [lexemesFrom_of_apart hapart pending fun _ => .inr hends, lexemesFrom_blank hb]
  rfl

theorem tokenize_append (hlocal : profile.Local) {b : Char} (hb : Text.isBlank b = true)
    (u v : Text) : profile.tokenize (u ++ b :: v) = profile.tokenize u ++ profile.tokenize v :=
  profile.lexemesFrom_append hlocal hb [] u v

/-! ## Glyphs and words -/

theorem isWord_of_mem_flush {pending : Text} (hpending : ∀ c ∈ pending, profile.joins c = true)
    {lexeme : Lexeme} (h : lexeme ∈ flush pending) : profile.IsWord lexeme := by
  cases pending with
  | nil => cases h
  | cons c pending =>
      have heq : lexeme = String.ofList (c :: pending).reverse := List.mem_singleton.mp h
      intro d hd
      rw [heq, String.toList_ofList, List.mem_reverse] at hd
      exact hpending d hd

/-- A character completes glyphs and words only, and what is pending after it joins a word. -/
theorem absorb_spec {pending : Text} (hpending : ∀ c ∈ pending, profile.joins c = true) (c : Char) :
    (∀ lexeme ∈ (profile.absorb pending c).1, profile.IsGlyph lexeme ∨ profile.IsWord lexeme) ∧
      ∀ d ∈ (profile.absorb pending c).2, profile.joins d = true := by
  unfold absorb
  split
  · refine ⟨?_, by simp⟩
    intro lexeme h
    exact .inr (isWord_of_mem_flush hpending h)
  · rename_i hblank
    split
    · rename_i hsingle
      refine ⟨?_, by simp⟩
      intro lexeme h
      rcases List.mem_append.mp h with h | h
      · exact .inr (isWord_of_mem_flush hpending h)
      · exact .inl (.inl ⟨c, List.contains_iff_mem.mp hsingle, List.mem_singleton.mp h⟩)
    · rename_i hsingle
      refine ⟨by simp, ?_⟩
      intro d hd
      rcases List.mem_cons.mp hd with rfl | hd
      · rw [joins, Bool.eq_false_iff.mpr hblank, Bool.eq_false_iff.mpr hsingle]
        rfl
      · exact hpending d hd

theorem glyph_or_word_of_mem_lexemesFrom {pending text : Text}
    (hpending : ∀ c ∈ pending, profile.joins c = true) {lexeme : Lexeme}
    (h : lexeme ∈ profile.lexemesFrom pending text) :
    profile.IsGlyph lexeme ∨ profile.IsWord lexeme := by
  induction pending, text using lexemesFrom.induct profile with
  | case1 pending =>
      rw [lexemesFrom_nil] at h
      exact .inr (isWord_of_mem_flush hpending h)
  | case2 pending c =>
      obtain ⟨hdone, hkept⟩ := absorb_spec hpending c
      rw [lexemesFrom_one] at h
      rcases List.mem_append.mp h with h | h
      · exact hdone lexeme h
      · exact .inr (isWord_of_mem_flush hkept h)
  | case3 pending c d rest hglyph ih =>
      rw [lexemesFrom_glyph hglyph, List.mem_append, List.mem_cons] at h
      rcases h with h | h | h
      · exact .inr (isWord_of_mem_flush hpending h)
      · have hdouble : (c, d) ∈ profile.doubles := by
          rw [Bool.and_eq_true, List.contains_iff_mem] at hglyph
          exact hglyph.2
        exact .inl (.inr ⟨c, d, hdouble, h⟩)
      · exact ih (by simp) h
  | case4 pending c d rest hglyph done kept habsorb ih =>
      obtain ⟨hdone, hkept⟩ := absorb_spec hpending c
      rw [habsorb] at hdone hkept
      rw [lexemesFrom_other hglyph, habsorb, List.mem_append] at h
      rcases h with h | h
      · exact hdone lexeme h
      · exact ih hkept h

/-- **Every lexeme is a glyph or a word.** -/
theorem glyph_or_word {text : Text} {lexeme : Lexeme} (h : lexeme ∈ profile.tokenize text) :
    profile.IsGlyph lexeme ∨ profile.IsWord lexeme :=
  glyph_or_word_of_mem_lexemesFrom (by simp) h

/-- A text that no glyph is in is one word. -/
theorem lexemesFrom_word {text : Text} (hjoins : ∀ c ∈ text, profile.joins c = true)
    (hdoubles : ∀ c d, [c, d] <:+: text → (c, d) ∉ profile.doubles) (pending : Text) :
    profile.lexemesFrom pending text = flush (text.reverse ++ pending) := by
  induction text generalizing pending with
  | nil => exact lexemesFrom_nil pending
  | cons c rest ih =>
      have hdouble : ∀ d ∈ rest.head?, (c, d) ∉ profile.doubles := by
        intro d hd
        obtain ⟨tail, rfl⟩ := List.head?_eq_some_iff.mp hd
        exact hdoubles c d ⟨[], tail, rfl⟩
      have hrest := ih (fun d hd => hjoins d (List.mem_cons_of_mem c hd))
        fun d e hpair => hdoubles d e (hpair.trans (List.suffix_cons c rest).isInfix)
      rw [lexemesFrom_joins (hjoins c List.mem_cons_self) hdouble, hrest, List.reverse_cons,
        List.append_assoc]
      rfl

end Profile

/-! ## Lexemes with spaces between them -/

namespace Text

/-- The lexemes, each with a space in front of it. -/
def spacedAll (lexemes : List Lexeme) : Text :=
  lexemes.flatMap fun lexeme => ' ' :: lexeme.toList

/-- The lexemes with single spaces between them. -/
def spaced (lexemes : List Lexeme) : Text :=
  join [' '] (lexemes.map String.toList)

theorem spaced_cons (lexeme : Lexeme) (lexemes : List Lexeme) :
    spaced (lexeme :: lexemes) = lexeme.toList ++ spacedAll lexemes := by
  induction lexemes generalizing lexeme with
  | nil => simp [spaced, spacedAll, join, List.intercalate]
  | cons next lexemes ih =>
      have hrest : spaced (lexeme :: next :: lexemes) =
          lexeme.toList ++ ' ' :: spaced (next :: lexemes) := by
        simp [spaced, join, List.intercalate_cons_cons]
      rw [hrest, ih]
      rfl

theorem spacedAll_cons_eq (lexeme : Lexeme) (lexemes : List Lexeme) :
    spacedAll (lexeme :: lexemes) = ' ' :: spaced (lexeme :: lexemes) := by
  rw [spaced_cons, spacedAll, List.flatMap_cons]
  rfl

end Text

/-- **Lexemes that are cut out of themselves are cut out of their text with spaces.** -/
theorem Profile.tokenize_spaced {profile : Profile} (hlocal : profile.Local)
    {lexemes : List Lexeme} (h : ∀ lexeme ∈ lexemes, profile.tokenize lexeme.toList = [lexeme]) :
    profile.tokenize (Text.spaced lexemes) = lexemes := by
  induction lexemes with
  | nil => rfl
  | cons lexeme lexemes ih =>
      have hfirst := h lexeme (List.mem_cons_self ..)
      have hrest := ih fun other hother => h other (List.mem_cons_of_mem _ hother)
      rw [Text.spaced_cons]
      cases lexemes with
      | nil =>
          rw [Text.spacedAll, List.flatMap_nil, List.append_nil]
          exact hfirst
      | cons next lexemes =>
          rw [Text.spacedAll_cons_eq, tokenize_append hlocal (by decide), hfirst, hrest]
          rfl

end SnippetTree
