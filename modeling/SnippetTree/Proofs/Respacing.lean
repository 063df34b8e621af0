import SnippetTree.Proofs.Lossless
import SnippetTree.Proofs.Postorder

/-!
# White space between lexemes

Where white space stands in a text, and how much of it, decides nothing but where a lexeme ends. So
a text that is cut at a blank is tokenized part by part, and the lexemes of a text, written with
single spaces between them, are cut out again: each of them is cut out of itself, be it a glyph
(`IsGlyph.whole`) or a word (`IsPlainWord.whole`).

The parser sees the lexemes and nothing of the text. Two texts with the same lexemes are therefore
read alike (`Reader.ReadsAlike`); the one thing that can tell them apart is a text that is kept raw.
-/

namespace SnippetTree

namespace Profile

variable {profile : Profile} {lexeme : Lexeme}

/-! ## Lexemes that are cut out of themselves -/

/-- A word is cut out of itself. -/
theorem IsPlainWord.whole (h : profile.IsPlainWord lexeme) :
    profile.tokenize lexeme.toList = [lexeme] := by
  rw [tokenize, lexemesFrom_word h.isWord h.not_double, List.append_nil]
  cases hword : lexeme.toList.reverse with
  | nil =>
      exact absurd (List.reverse_eq_nil_iff.mp hword) (mt String.toList_eq_nil_iff.mp h.ne_empty)
  | cons c rest =>
      rw [flush, ← hword, List.reverse_reverse, String.ofList_toList]
      exact List.cons_ne_nil c rest

/-- So is a glyph that does not begin with white space. -/
theorem IsGlyph.whole (h : profile.IsGlyph lexeme)
    (hink : ∀ c ∈ lexeme.toList, Text.isBlank c = false) :
    profile.tokenize lexeme.toList = [lexeme] := by
  rcases h with ⟨c, hsingle, rfl⟩ | ⟨c, d, hdouble, rfl⟩
  · rw [String.toList_ofList] at hink ⊢
    have hblank : ¬ Text.isBlank c = true := Bool.eq_false_iff.mp (hink c (by simp))
    rw [tokenize, lexemesFrom_one, absorb, if_neg hblank,
      if_pos (List.contains_iff_mem.mpr hsingle)]
    rfl
  · rw [String.toList_ofList] at hink ⊢
    have hglyph : (!Text.isBlank c && profile.doubles.contains (c, d)) = true := by
      rw [hink c (by simp), List.contains_iff_mem.mpr hdouble]
      rfl
    rw [tokenize, lexemesFrom_glyph hglyph, lexemesFrom_nil]
    rfl

/-- **Every lexeme of a text is cut out of itself.** -/
theorem whole_of_mem_tokenize (hlocal : profile.Local) {text : Text}
    (h : lexeme ∈ profile.tokenize text) : profile.tokenize lexeme.toList = [lexeme] := by
  have hlaid := laid_lexemesFrom hlocal (.empty text)
  have hink : ∀ c ∈ lexeme.toList, Text.isBlank c = false := by
    intro c hc
    have hmem : c ∈ inked text := hlaid.inked_eq ▸ List.mem_flatMap.mpr ⟨lexeme, h, hc⟩
    exact Bool.not_eq_true' _ ▸ (List.mem_filter.mp hmem).2
  rcases (hlaid.shape lexeme h).2 with hglyph | hword
  · exact hglyph.whole hink
  · exact hword.whole

end Profile

/-! ## Texts with the same lexemes -/

namespace Reader

/-- The leaf for a text that is kept raw. -/
def rawLeaf (text : Text) (id : Int) : Tree :=
  .mk id .expression (String.ofList text) .constant [] false

/-- From any number on, the two texts give the same tree and the same problems; or neither of them
holds an expression and both are kept raw, each as one leaf of its own. -/
inductive ReadsAlike (r : Reader) (keep : Bool) (t u : Text) (first : Int) : Prop where
  | same : r.treeFrom keep t first = r.treeFrom keep u first → ReadsAlike r keep t u first
  | raw (problems : List Problem) : keep = true →
      r.treeFrom keep t first = ⟨(some (rawLeaf t first), first + 1),
        problems ++ [.keptRaw (String.ofList t)]⟩ →
      r.treeFrom keep u first = ⟨(some (rawLeaf u first), first + 1),
        problems ++ [.keptRaw (String.ofList u)]⟩ →
      ReadsAlike r keep t u first

variable {r : Reader} {t u : Text}

theorem expression?_congr (h : r.spec.profile.tokenize t = r.spec.profile.tokenize u) :
    r.expression? t = r.expression? u := by
  rw [expression?, expression?, h]

theorem readsAlike_of_tokenize (h : r.spec.profile.tokenize t = r.spec.profile.tokenize u)
    (keep : Bool) (first : Int) : r.ReadsAlike keep t u first := by
  have hsame := expression?_congr h
  cases keep with
  | false => exact .same (by simp only [treeFrom, hsame, Bool.false_eq_true, if_false])
  | true =>
      cases hread : r.expression? u with
      | mk value problems =>
          rw [hread] at hsame
          cases value with
          | some e => exact .same (by simp only [treeFrom, read_eq, hsame, hread])
          | none =>
              refine .raw problems rfl ?_ ?_
              · simp only [treeFrom, read_eq, hsame]; rfl
              · simp only [treeFrom, read_eq, hread]; rfl

end Reader

/-- **White space splits the tokenizer into independent parts.** What stands on either side of it is
cut by itself, and so are the literals noted that were taken apart; the lexemes of a text, written
with single spaces between them, are its lexemes again; and texts with the same lexemes are read
alike. -/
theorem Profile.separates_of_local {profile : Profile} (hlocal : profile.Local) :
    (∀ (b : Char) (u v : Text), Text.isBlank b = true →
      profile.tokenize (u ++ b :: v) = profile.tokenize u ++ profile.tokenize v ∧
      Problem.ofLexemes (profile.tokenize (u ++ b :: v)) =
        Problem.ofLexemes (profile.tokenize u) ++ Problem.ofLexemes (profile.tokenize v)) ∧
    (∀ t : Text, profile.tokenize (Text.spaced (profile.tokenize t)) = profile.tokenize t) ∧
    ∀ (r : Reader) (t u : Text), r.spec.profile = profile →
      profile.tokenize t = profile.tokenize u → ∀ keep first, r.ReadsAlike keep t u first := by
  refine ⟨fun b u v hb => ?_, fun t => ?_, ?_⟩
  · have happend := profile.tokenize_append hlocal hb u v
    refine ⟨happend, ?_⟩
    rw [happend, Problem.ofLexemes, List.filter_append, List.map_append]
    rfl
  · exact Profile.tokenize_spaced hlocal fun lexeme h => whole_of_mem_tokenize hlocal h
  · rintro r t u rfl h keep first
    exact Reader.readsAlike_of_tokenize h keep first

/-- A tab between the halves of `+=` keeps them apart; in `x+++=y` the operators are found again;
and blanks after an opening parenthesis make no difference. -/
theorem Profile.separates_extended : extended.Local ∧ Text.isBlank '\t' = true ∧
    extended.tokenize ("a+".toList ++ '\t' :: "='b".toList) =
      extended.tokenize "a+".toList ++ extended.tokenize "='b".toList ∧
    Problem.ofLexemes (extended.tokenize ("a+".toList ++ '\t' :: "='b".toList)) =
      Problem.ofLexemes (extended.tokenize "a+".toList) ++
        Problem.ofLexemes (extended.tokenize "='b".toList) ∧
    extended.tokenize (Text.spaced (extended.tokenize "x+++=y".toList)) =
      extended.tokenize "x+++=y".toList ∧
    extended.tokenize "f (x".toList = extended.tokenize "f(  x".toList ∧
    (Reader.ofDialect .c 1000).ReadsAlike true "f (x".toList "f(  x".toList 1 := by
  obtain ⟨happend, hspaced, hread⟩ := Profile.separates_of_local local_extended
  obtain ⟨htokens, hproblems⟩ := happend '\t' "a+".toList "='b".toList (by decide)
  have hsame : extended.tokenize "f (x".toList = extended.tokenize "f(  x".toList := by decide
  exact ⟨local_extended, by decide, htokens, hproblems, hspaced _, hsame,
    hread (Reader.ofDialect .c 1000) _ _ rfl hsame true 1⟩

end SnippetTree
