import SnippetTree.Proofs.LeadingClosers
import SnippetTree.Proofs.LineAccounts
import SnippetTree.Proofs.Marks
import SnippetTree.Proofs.FunctionHeads

/-!
# Lines of structure

A line of braces, semicolons and white space holds no statement, and none is taken out of it. Whether
it is passed over in silence depends on where its white space stands. One sweep takes away what
stands in front (`LeadingClosers.lean`); if what is left is in one piece, the line is recognised as
structure (`Text.all_isStructural_normalize_iff`). If white space is left inside, it is not. No rule
but the last accepts such a line, and the parser stops at its first lexeme, since no expression
begins with a brace or a semicolon; so all its lexemes are reported as left over, and the line as
left out.
-/

namespace SnippetTree

namespace Text

/-- The line only opens, closes and ends: it has braces, semicolons and white space, in any order,
and nothing else. -/
def IsStructure (line : Text) : Prop :=
  ∀ c ∈ line, isStructural c = true ∨ isBlank c = true

instance (line : Text) : Decidable (IsStructure line) :=
  List.decidableBAll _ line

/-- The structure of the line is in one piece. Closing braces in front of it may be set apart, as
long as they stand together themselves. -/
def InOnePiece (line : Text) : Prop :=
  ∃ before closers between core after,
    line = before ++ (closers ++ (between ++ (core ++ after))) ∧
      (∀ c ∈ before, isBlank c = true) ∧ (∀ c ∈ closers, c = '\x7d') ∧
        (∀ c ∈ between, isBlank c = true) ∧ (∀ c ∈ core, isStructural c = true) ∧
          ∀ c ∈ after, isBlank c = true

/-! ## One piece is left -/

/-- A text that structure and then white space end with is structure when it is trimmed at the
end. -/
theorem all_isStructural_trimEnd {dropped core after rest : Text}
    (h : core ++ after = dropped ++ rest) (hcore : ∀ c ∈ core, isStructural c = true)
    (hafter : ∀ c ∈ after, isBlank c = true) : (trimEnd rest).all isStructural = true := by
  rw [List.all_eq_true]
  rcases List.append_eq_append_iff.mp h with ⟨more, -, hrest⟩ | ⟨kept, hkept, rfl⟩
  · -- nothing of the structure is left
    have hblank : ∀ c ∈ rest, isBlank c = true := by
      intro c hc
      exact hafter c (hrest ▸ List.mem_append_right _ hc)
    have hnone : trimEnd rest = [] := List.rdropWhile_eq_nil_iff.mpr hblank
    simp [hnone]
  · intro c hc
    rw [trimEnd, dropEndWhile_append hafter] at hc
    have hmem : c ∈ kept := (List.rdropWhile_prefix isBlank kept).subset hc
    exact hcore c (hkept ▸ List.mem_append_right _ hmem)

/-- **A sweep leaves nothing but structure exactly if the structure is in one piece.** -/
theorem all_isStructural_normalize_iff (line : Text) :
    (normalize line).all isStructural = true ↔ InOnePiece line := by
  have hblank : ∀ {text : Text}, ∀ c ∈ text.takeWhile isBlank, isBlank c = true :=
    fun c hc => List.mem_takeWhile_imp hc
  refine ⟨fun hall => ?_, ?_⟩
  · by_cases h : IsCleared (trim line)
    · rw [normalize_of_isCleared h, List.all_eq_true] at hall
      obtain ⟨before, after, hline, hbefore, hafter⟩ := exists_eq_append_trim line
      exact ⟨before, [], [], trim line, after, hline, hbefore, by simp, by simp, hall, hafter⟩
    · rw [normalize_of_not_isCleared h, List.all_eq_true] at hall
      obtain ⟨after, hline, hafter⟩ := exists_eq_dropEndWhile_append isBlank (sweep line)
      refine ⟨line.takeWhile isBlank, (trimStart line).takeWhile (· == '\x7d'),
        ((trimStart line).dropWhile (· == '\x7d')).takeWhile isBlank, trimEnd (sweep line), after,
        ?_, hblank, ?_, hblank, hall, hafter⟩
      · rw [trimEnd, ← hline, sweep, trimStart, trimStart, List.takeWhile_append_dropWhile,
          List.takeWhile_append_dropWhile, List.takeWhile_append_dropWhile]
      · intro c hc
        have hbrace : (c == '\x7d') = true := List.mem_takeWhile_imp (p := (· == '\x7d')) hc
        exact beq_iff_eq.mp hbrace
  · rintro ⟨before, closers, between, core, after, rfl, hbefore, hclosers, hbetween, hcore, hafter⟩
    by_cases h : IsCleared (trim (before ++ (closers ++ (between ++ (core ++ after)))))
    · rw [normalize_of_isCleared h]
      rcases h with hall | hhead
      · exact hall
      · -- nothing stands in front of what is left, so it begins with or after the last piece
        have hdrop := dropWhile_normalize (before ++ (closers ++ (between ++ (core ++ after))))
        rw [normalize_of_isCleared (.inr hhead), dropWhile_of_head hhead,
          List.dropWhile_append_of_pos fun c hc => isLeading_of_isBlank (hbefore c hc),
          List.dropWhile_append_of_pos fun c hc => isLeading_of_beq (beq_iff_eq.mpr (hclosers c hc)),
          List.dropWhile_append_of_pos fun c hc => isLeading_of_isBlank (hbetween c hc)] at hdrop
        rw [hdrop]
        exact all_isStructural_trimEnd List.takeWhile_append_dropWhile.symm hcore hafter
    · rw [normalize_of_not_isCleared h]
      obtain ⟨dropped, heq, -⟩ := uncovers_sweep_append hbefore hclosers hbetween
      exact all_isStructural_trimEnd heq hcore hafter

/-! ## White space is left inside -/

namespace IsStructure

variable {line : Text}

theorem not_mem (h : IsStructure line) {c : Char}
    (hc : (isStructural c || isBlank c) = false) : c ∉ line := by
  intro hmem
  rw [Bool.or_eq_false_iff] at hc
  rcases h c hmem with hstructural | hblank
  · exact Bool.noConfusion (hc.1.symm.trans hstructural)
  · exact Bool.noConfusion (hc.2.symm.trans hblank)

theorem of_subset {text : Text} (h : IsStructure line) (hsub : text ⊆ line) : IsStructure text :=
  fun c hc => h c (hsub hc)

/-- Structure that is not all structural has white space in it. -/
theorem exists_isBlank (h : IsStructure line) (hall : ¬ line.all isStructural = true) :
    ∃ b ∈ line, isBlank b = true := by
  rw [List.all_eq_true] at hall
  push Not at hall
  obtain ⟨b, hb, hother⟩ := hall
  exact ⟨b, hb, (h b hb).resolve_left hother⟩

end IsStructure

theorem trim_subset (text : Text) : trim text ⊆ text :=
  ((List.rdropWhile_prefix isBlank _).sublist.trans (List.dropWhile_sublist isBlank)).subset

theorem normalize_subset (line : Text) : normalize line ⊆ line := by
  unfold normalize
  dsimp only
  split
  · exact List.Subset.trans (trim_subset _)
      (List.Subset.trans (List.dropWhile_sublist _).subset (trim_subset line))
  · exact trim_subset line

theorem not_isBlank_of_isStructural {c : Char} (h : isStructural c = true) : isBlank c = false := by
  simp only [isStructural, Bool.or_eq_true, beq_iff_eq, or_assoc] at h
  rcases h with rfl | rfl | rfl <;> decide

/-- A trimmed text does not begin with white space. -/
theorem not_isBlank_head_trim (text : Text) : ∀ c ∈ (trim text).head?, isBlank c = false := by
  intro c hc
  rw [trim_eq_trimStart, trimStart] at hc
  have hnot := List.head?_dropWhile_not isBlank (trimEnd text)
  rw [Option.mem_def.mp hc] at hnot
  exact hnot

theorem strip_subset (spec : Dialect.Spec) (text : Text) : spec.strip text ⊆ text :=
  List.Subset.trans (trim_subset _)
    (List.Subset.trans (List.rdropWhile_prefix _ _).subset (trim_subset text))

/-- If a trimmed text has white space in it, something is left of it without what ends the line: the
white space ends no line, and so does not what stands in front of it. -/
theorem strip_ne_nil {spec : Dialect.Spec} {text : Text} {b : Char} (htrim : trim text = text)
    (hmem : b ∈ text) (hends : spec.isTerminator b = false) :
    spec.strip text ≠ [] := by
  have hkept : b ∈ dropEndWhile spec.isTerminator text := mem_dropEndWhile hends hmem
  obtain ⟨tail, htail⟩ := List.rdropWhile_prefix spec.isTerminator text
  cases hdrop : dropEndWhile spec.isTerminator text with
  | nil =>
      rw [hdrop] at hkept
      cases hkept
  | cons c rest =>
      have hhead : c ∈ (trim text).head? := by
        have htext : text = c :: rest ++ tail := by rw [← hdrop]; exact htail.symm
        rw [htrim, htext]
        rfl
      have hc : c ∈ spec.strip text := by
        rw [Dialect.Spec.strip, htrim, hdrop]
        exact mem_trim (not_isBlank_head_trim text c hhead) (List.mem_cons_self ..)
      exact List.ne_nil_of_mem hc

end Text

/-! ## The rules and the lexemes -/

/-- No rule but the last accepts a text of structure. -/
theorem Rule.rejects_structure (dialect : Dialect) {text : Text} (h : text.IsStructure) :
    ∀ other ∈ [Rule.variableDeclaration, .functionDeclaration] ++ headers ++ [.assignment],
      other.accepts dialect.spec text = false := by
  have hno : ∀ c, (Text.isStructural c || Text.isBlank c) = false → c ∉ text := fun c => h.not_mem
  have hleads : ∀ keywords : List Lexeme, "" ∉ keywords → Text.leadsWith keywords text = false := by
    intro keywords hempty
    rw [Bool.eq_false_iff]
    intro hleads
    obtain ⟨c, rest, htrim, hc⟩ := Text.beginsWithName_of_leadsWith hempty hleads
    refine hno c ?_ (Text.trim_subset text (htrim ▸ List.mem_cons_self ..))
    rw [Text.isStructural, Text.not_isBlank_of_isNameStart hc,
      beq_eq_false_iff_ne.mpr (Text.ne_of_isNameStart hc (by decide)),
      beq_eq_false_iff_ne.mpr (Text.ne_of_isNameStart hc (by decide)),
      beq_eq_false_iff_ne.mpr (Text.ne_of_isNameStart hc (by decide))]
    rfl
  have hopener : text.contains '(' = false := by
    rw [Bool.eq_false_iff]
    exact fun hmem => hno '(' (by decide) (List.contains_iff_mem.mp hmem)
  have hsplit : Text.splitAssign? text = none :=
    (Text.inert_of_not_mem (hno '=' (by decide))).splitAssign?
  rw [List.forall_mem_append, List.forall_mem_append, List.forall_mem_cons,
    List.forall_mem_singleton, List.forall_mem_singleton]
  refine ⟨⟨⟨?_, ?_⟩, rejects_headers (hleads _ (by decide))⟩, ?_⟩
  · rw [accepts, Declaration.isDeclaration, hleads _ dialect.regular_spec.typeWords]
    rfl
  · rw [accepts, FunctionHead.isHead, hopener]
    rfl
  · rw [accepts, Assignment.isAssignment, hsplit]

/-- The lexemes of a text of structure: every brace and every semicolon is one. -/
def Text.pieces (text : Text) : List Lexeme :=
  (text.filter isStructural).map fun c => String.ofList [c]

namespace Profile

/-- A glyph of one character that begins none of two is a lexeme wherever it stands. -/
theorem lexemesFrom_single {profile : Profile} {c : Char} (hsingle : c ∈ profile.singles)
    (hblank : Text.isBlank c = false) (hdouble : ∀ d, (c, d) ∉ profile.doubles)
    (pending rest : Text) : profile.lexemesFrom pending (c :: rest) =
      flush pending ++ String.ofList [c] :: profile.lexemesFrom [] rest := by
  have habsorb : profile.absorb pending c = (flush pending ++ [String.ofList [c]], []) := by
    rw [absorb, if_neg (Bool.eq_false_iff.mp hblank), if_pos (List.contains_iff_mem.mpr hsingle)]
  cases rest with
  | nil =>
      rw [lexemesFrom_one, habsorb, lexemesFrom_nil, List.append_assoc]
      rfl
  | cons d rest =>
      have hglyph : ¬ (!Text.isBlank c && profile.doubles.contains (c, d)) = true := by
        rw [Bool.and_eq_true, List.contains_iff_mem]
        exact fun h => hdouble d h.2
      rw [lexemesFrom_other hglyph, habsorb, List.append_assoc]
      rfl

theorem tokenize_structure {text : Text} (h : text.IsStructure) :
    extended.tokenize text = text.pieces := by
  induction text with
  | nil => rfl
  | cons c rest ih =>
      obtain ⟨hc, hrest⟩ := List.forall_mem_cons.mp h
      rw [tokenize] at ih ⊢
      by_cases hblank : Text.isBlank c = true
      · have hother : ¬ Text.isStructural c = true := by
          intro hc
          exact Bool.noConfusion ((Text.not_isBlank_of_isStructural hc).symm.trans hblank)
        rw [lexemesFrom_blank hblank, Text.pieces, List.filter_cons_of_neg hother]
        exact ih hrest
      · have hstructural := hc.resolve_right hblank
        have hsingle : c ∈ extended.singles ∧ ∀ d, (c, d) ∉ extended.doubles := by
          simp only [Text.isStructural, Bool.or_eq_true, beq_iff_eq, or_assoc] at hstructural
          rcases hstructural with rfl | rfl | rfl <;> simp [extended]
        rw [lexemesFrom_single hsingle.1 (Bool.eq_false_iff.mpr hblank) hsingle.2, ih hrest,
          Text.pieces, Text.pieces, List.filter_cons_of_pos hstructural]
        rfl

end Profile

namespace Grammar

variable {g : Grammar} {nested : List Tier → ExprParser} {lexeme : Lexeme} {rest : List Lexeme}

/-- An idle lexeme stops every tier before anything is read. -/
theorem Idle.gives_climb (h : g.Idle lexeme) {tiers : List Tier} (hsub : tiers ⊆ g.tiers)
    (depth deepest : Nat) : (g.climb nested tiers ⟨lexeme :: rest, depth, deepest⟩).Gives none
      (lexeme :: rest) := by
  induction tiers with
  | nil =>
      have hstart := h.no_start
      rw [climb, unary_off (off_cons hstart.no_sign rest),
        primary_other hstart.no_group hstart.no_constant hstart.no_name]
      exact Step.gives_stay _ _
  | cons tier tiers ih =>
      have hoff : Off (lexeme :: rest) tier.operators :=
        off_cons (h.no_operator tier (hsub (List.mem_cons_self ..))) rest
      have htighter := ih fun t ht => hsub (List.mem_cons_of_mem _ ht)
      cases ha : tier.rightAssociative with
      | false =>
          rw [climb_left ha]
          refine htighter.andThen fun deepest' => ?_
          rw [foldLeft_off hoff]
          exact Step.gives_stay _ _
      | true =>
          rw [climb_right ha]
          refine htighter.andThen fun deepest' => ?_
          rw [foldRight_off hoff]
          exact Step.gives_stay _ _

/-- Where an idle lexeme comes first, no expression is begun, and all lexemes are left over. -/
theorem Idle.parse_cons (h : g.Idle lexeme) (rest : List Lexeme) (limit : Nat) :
    (g.parse limit (lexeme :: rest)).expr = none ∧
      (g.parse limit (lexeme :: rest)).problems = [.trailingLexemes (lexeme :: rest)] := by
  have hgives : (g.climb (g.nestedAt limit limit) g.tiers ⟨lexeme :: rest, 0, 0⟩).Gives none
      (lexeme :: rest) := h.gives_climb (List.Subset.refl g.tiers) 0 0
  rw [parse_of_ne_nil (List.cons_ne_nil lexeme rest)]
  refine ⟨hgives.value, ?_⟩
  simp only [Cursor.start, hgives.silent, hgives.rest]
  rfl

end Grammar

/-! ## What becomes of the line -/

theorem Dialect.idle_of_isStructural (dialect : Dialect) {c : Char}
    (h : Text.isStructural c = true) : dialect.spec.grammar.Idle (String.ofList [c]) := by
  simp only [Text.isStructural, Bool.or_eq_true, beq_iff_eq, or_assoc] at h
  rcases h with rfl | rfl | rfl <;> cases dialect <;> decide +kernel

theorem Dialect.not_isTerminator_of_isBlank (dialect : Dialect) {b : Char}
    (h : Text.isBlank b = true) : dialect.spec.isTerminator b = false := by
  rw [Bool.eq_false_iff]
  intro hterminator
  have hend := dialect.isLineEnd_of_isTerminator hterminator
  simp only [Text.isLineEnd, Bool.or_eq_true, beq_iff_eq, or_assoc] at hend
  rcases hend with rfl | rfl | rfl <;> exact absurd h (by decide)

namespace Text

/-- A trimmed text of structure that is not empty has a piece in front. -/
theorem IsStructure.pieces_trim {text : Text} (h : IsStructure (trim text)) (hne : trim text ≠ []) :
    ∃ c rest, isStructural c = true ∧ (trim text).pieces = String.ofList [c] :: rest := by
  have hfirst := not_isBlank_head_trim text
  generalize trim text = trimmed at h hne hfirst
  cases trimmed with
  | nil => exact absurd rfl hne
  | cons c more =>
      have hblank : ¬ isBlank c = true := Bool.eq_false_iff.mp (hfirst c rfl)
      have hc := (h c (List.mem_cons_self ..)).resolve_right hblank
      refine ⟨c, pieces more, hc, ?_⟩
      rw [pieces, List.filter_cons_of_pos hc]
      rfl

/-- No piece opens a quoted literal. -/
theorem ofLexemes_pieces (text : Text) : Problem.ofLexemes text.pieces = [] := by
  rw [Problem.ofLexemes, List.map_eq_nil_iff, List.filter_eq_nil_iff]
  intro lexeme hlexeme
  obtain ⟨c, hc, rfl⟩ := List.mem_map.mp hlexeme
  have hstructural : isStructural c = true := (List.mem_filter.mp hc).2
  simp only [isStructural, Bool.or_eq_true, beq_iff_eq, or_assoc] at hstructural
  rcases hstructural with rfl | rfl | rfl <;> decide

end Text

namespace Reader

variable {dialect : Dialect} {line : Text}

/-- No expression statement is taken out of a text of structure, and all its pieces are reported. -/
theorem expressionStatement?_structure (hdialect : dialect.isLineOriented = true) (limit : Nat)
    {text : Text} (h : text.IsStructure) (hne : dialect.spec.strip text ≠ []) :
    expressionStatement? ⟨dialect.spec, limit⟩ text =
      ⟨none, [.trailingLexemes (dialect.spec.strip text).pieces]⟩ := by
  have hstrip : (dialect.spec.strip text).IsStructure :=
    h.of_subset (Text.strip_subset dialect.spec text)
  obtain ⟨c, rest, hc, hpieces⟩ := hstrip.pieces_trim hne
  have hread : expression? ⟨dialect.spec, limit⟩ (dialect.spec.strip text) =
      ⟨none, [.trailingLexemes (dialect.spec.strip text).pieces]⟩ := by
    obtain ⟨hnone, hproblems⟩ := (dialect.idle_of_isStructural hc).parse_cons rest limit
    rw [← Dialect.Spec.strip] at hpieces
    rw [expression?, dialect.profile_of_isLineOriented hdialect, Profile.tokenize_structure hstrip]
    dsimp only
    rw [Text.ofLexemes_pieces, hpieces, hnone, hproblems]
    rfl
  have hempty : ¬ (dialect.spec.strip text).isEmpty = true := by rwa [List.isEmpty_iff]
  rw [expressionStatement?, if_neg hempty, hread]
  rfl

/-- A line of structure that is not in one piece is left out, and so are all its lexemes. -/
theorem classify_structure (hdialect : dialect.isLineOriented = true) (limit : Nat)
    (h : line.IsStructure) (hapart : ¬ line.InOnePiece) :
    classify ⟨dialect.spec, limit⟩ Rule.standard line =
      .ok (.dropped .expression (String.ofList line.normalize)
        [.trailingLexemes (dialect.spec.strip line.normalize).pieces]) := by
  rw [← Text.all_isStructural_normalize_iff] at hapart
  have hsub : line.normalize.IsStructure := h.of_subset (Text.normalize_subset line)
  obtain ⟨b, hb, hblank⟩ := hsub.exists_isBlank hapart
  have hne : dialect.spec.strip line.normalize ≠ [] :=
    Text.strip_ne_nil (Text.trim_normalize line) hb (dialect.not_isTerminator_of_isBlank hblank)
  have hchoose : Rule.choose Rule.standard dialect.spec line.normalize = .ok .expression :=
    Rule.choose_eq (show Rule.standard = _ ++ .expression :: [] from rfl)
      (Rule.rejects_structure dialect hsub) rfl
  have hempty : ¬ line.normalize.isEmpty = true := by
    rw [List.isEmpty_iff]
    exact List.ne_nil_of_mem hb
  rw [classify, if_neg hempty, if_neg hapart, hchoose]
  dsimp only [bind, Except.bind, Rule.extract]
  rw [expressionStatement?_structure hdialect limit hsub hne]
  rfl

/-- **Lines of braces, semicolons and white space give nothing, and they are silent exactly if their
structure is in one piece.** No node is made of such a line and no number is taken. If white space
is left inside when the line has been swept, the pieces are reported as left over and the line as left
out. -/
theorem silent_iff_inOnePiece (hdialect : dialect.isLineOriented = true) (limit : Nat)
    (h : line.IsStructure) :
    ∃ outcome, classify ⟨dialect.spec, limit⟩ Rule.standard line = .ok outcome ∧
      ∀ number first,
        (outcome.share number first).trees = [] ∧ (outcome.share number first).next = first ∧
          ((outcome.share number first).Silent ↔ line.InOnePiece) ∧
            (¬ line.InOnePiece → (outcome.share number first).warnings =
              [⟨.trailingLexemes (dialect.spec.strip line.normalize).pieces, number⟩,
                ⟨.droppedLine (String.ofList line.normalize), number⟩]) := by
  by_cases hpiece : line.InOnePiece
  · have hall := (Text.all_isStructural_normalize_iff line).mpr hpiece
    by_cases hempty : line.normalize.isEmpty = true
    · refine ⟨.blank, by rw [classify, if_pos hempty]; rfl, fun number first => ?_⟩
      exact ⟨rfl, rfl, ⟨fun _ => hpiece, fun _ => ⟨rfl, rfl, rfl⟩⟩, fun hapart => absurd hpiece hapart⟩
    · refine ⟨.structural, by rw [classify, if_neg hempty, if_pos hall]; rfl, fun number first => ?_⟩
      exact ⟨rfl, rfl, ⟨fun _ => hpiece, fun _ => ⟨rfl, rfl, rfl⟩⟩, fun hapart => absurd hpiece hapart⟩
  · refine ⟨_, classify_structure hdialect limit h hpiece, fun number first => ?_⟩
    refine ⟨rfl, rfl, ⟨fun hsilent => ?_, fun htogether => absurd htogether hpiece⟩, fun _ => rfl⟩
    exact absurd hsilent.warnings (List.cons_ne_nil _ _)

/-- Two closing braces, white space and an end. -/
theorem silent_closers : Dialect.c.isLineOriented = true ∧
    Text.IsStructure "\x7d\x7d ;".toList ∧
    ∃ outcome, classify ⟨Dialect.c.spec, 62⟩ Rule.standard "\x7d\x7d ;".toList = .ok outcome ∧
      (outcome.share 3 1).Silent := by
  have hstructure : Text.IsStructure "\x7d\x7d ;".toList := by decide
  have hpiece : Text.InOnePiece "\x7d\x7d ;".toList := by
    rw [← Text.all_isStructural_normalize_iff]
    decide
  have hdialect : Dialect.c.isLineOriented = true := rfl
  obtain ⟨outcome, hclassify, hshare⟩ := silent_iff_inOnePiece hdialect 62 hstructure
  exact ⟨hdialect, hstructure, outcome, hclassify, (hshare 3 1).2.2.1.mpr hpiece⟩

/-- An opening brace and a closing one with a space between them are not passed over in silence: both
are reported as lexemes that are left over, and the line as left out. -/
theorem not_silent_braces : Dialect.c.isLineOriented = true ∧
    Text.IsStructure "\x7b \x7d".toList ∧
    ∃ outcome, classify ⟨Dialect.c.spec, 62⟩ Rule.standard "\x7b \x7d".toList = .ok outcome ∧
      ¬ (outcome.share 3 1).Silent ∧
        outcome.problems = [.trailingLexemes ["\x7b", "\x7d"], .droppedLine "\x7b \x7d"] := by
  have hstructure : Text.IsStructure "\x7b \x7d".toList := by decide
  have hapart : ¬ Text.InOnePiece "\x7b \x7d".toList := by
    rw [← Text.all_isStructural_normalize_iff]
    decide
  have hdialect : Dialect.c.isLineOriented = true := rfl
  refine ⟨hdialect, hstructure, _, classify_structure hdialect 62 hstructure hapart, ?_, ?_⟩
  · exact fun hsilent => absurd hsilent.warnings (List.cons_ne_nil _ _)
  · decide

end Reader

end SnippetTree
