import SnippetTree.Proofs.LineLexemes
import SnippetTree.Proofs.ParseComplete
import SnippetTree.Reading

/-!
# Expressions that are written into a line

An expression is written by putting single spaces between its lexemes (`Dialect.Spells`). What was
written is read again without any problem, since the tokenizer gives back the lexemes and the
grammar derives the expression from them. The line around it is handled by rules that look at
characters, and they must not find anything in the expression that is meant for them: the expression
closes the parentheses that it opens, assigns nothing, separates nothing, and does not begin with a
type (`Dialect.Spelled`).

What a derivation looks like does not matter for this, only that its lexemes nest (`Nested`).
-/

namespace SnippetTree

open SnippetTree.Text

/-! ## The words of an expression -/

namespace Expr

mutual

/-- The lexemes of the leaves of an expression, and its callees. -/
def words : Expr → List Lexeme
  | identifier w | keyword w | constant w => [w]
  | placeholder => []
  | unary _ e | leftOnly _ e | rightOnly _ e => e.words
  | binary _ l r => l.words ++ r.words
  | call callee es => callee :: wordsAll es

/-- The words of several expressions. -/
def wordsAll : List Expr → List Lexeme
  | [] => []
  | e :: es => e.words ++ wordsAll es

end

theorem mem_wordsAll {es : List Expr} {e : Expr} (he : e ∈ es) {w : Lexeme} (hw : w ∈ e.words) :
    w ∈ wordsAll es := by
  induction es with
  | nil => cases he
  | cons first es ih =>
      rw [wordsAll, List.mem_append]
      rcases List.mem_cons.mp he with rfl | he
      · exact .inl hw
      · exact .inr (ih he)

end Expr

/-! ## Lexemes that nest -/

namespace Grammar

/-- The parentheses among the lexemes nest, and all lexemes besides them satisfy `P`. -/
inductive Nested (P : Lexeme → Prop) : List Lexeme → Prop where
  | nil : Nested P []
  | one {w : Lexeme} : P w → Nested P [w]
  | append {xs ys : List Lexeme} : Nested P xs → Nested P ys → Nested P (xs ++ ys)
  | group {xs : List Lexeme} : Nested P xs → Nested P ("(" :: (xs ++ [")"]))

variable {P : Lexeme → Prop}

theorem Nested.intercalate (hcomma : P ",") {parts : List (List Lexeme)}
    (h : ∀ part ∈ parts, Nested P part) : Nested P ([","].intercalate parts) := by
  induction parts with
  | nil => exact .nil
  | cons part parts ih =>
      have hpart := h part (List.mem_cons_self ..)
      cases parts with
      | nil =>
          rw [List.intercalate_singleton]
          exact hpart
      | cons next parts =>
          rw [List.intercalate_cons_cons]
          exact (hpart.append (.one hcomma)).append
            (ih fun part hmem => h part (List.mem_cons_of_mem _ hmem))

/-- **Derived lexemes nest.** Besides parentheses there are operators, commas, and the words of the
expression. -/
theorem Derives.nested {g : Grammar} (hcomma : P ",") (hsigns : ∀ w ∈ g.signs, P w)
    (hoperators : ∀ tier ∈ g.tiers, ∀ w ∈ tier.operators, P w) {n : Nat} {tiers : List Tier}
    {lexemes : List Lexeme} {e : Expr} (h : g.Derives n tiers lexemes e)
    (htiers : ∀ tier ∈ tiers, ∀ w ∈ tier.operators, P w)
    (hwords : ∀ w ∈ e.words, w.isConstant = true ∨ w.isIdentifier = true → P w) :
    Nested P lexemes := by
  induction h with
  | tighter _ ih => exact ih (fun t ht => htiers t (List.mem_cons_of_mem _ ht)) hwords
  | left _ ho _ _ ihl ihr =>
      have hl := ihl htiers fun w hw => hwords w (List.mem_append_left _ hw)
      have hr := ihr (fun t ht => htiers t (List.mem_cons_of_mem _ ht))
        fun w hw => hwords w (List.mem_append_right _ hw)
      exact hl.append (.append (.one (htiers _ (List.mem_cons_self ..) _ ho)) hr)
  | right _ ho _ _ ihl ihr =>
      have hl := ihl (fun t ht => htiers t (List.mem_cons_of_mem _ ht))
        fun w hw => hwords w (List.mem_append_left _ hw)
      have hr := ihr htiers fun w hw => hwords w (List.mem_append_right _ hw)
      exact hl.append (.append (.one (htiers _ (List.mem_cons_self ..) _ ho)) hr)
  | sign ho _ ih => exact .append (.one (hsigns _ ho)) (ih htiers hwords)
  | group _ ih => exact .group (ih hoperators hwords)
  | constant hc => exact .one (hwords _ (List.mem_singleton_self _) (.inl hc.constant))
  | name hn =>
      refine .one (hwords _ ?_ (.inr hn.identifier))
      rw [nameLeaf]
      split
      · exact List.mem_singleton_self _
      · exact List.mem_singleton_self _
  | emptyCall hn =>
      exact .append (.one (hwords _ (List.mem_cons_self ..) (.inr hn.identifier))) (.group .nil)
  | @call n callee arguments hn _ _ ih =>
      have hcallee := hwords callee (List.mem_cons_self ..) (.inr hn.identifier)
      refine .append (.one hcallee) (.group (.intercalate hcomma ?_))
      intro part hpart
      obtain ⟨argument, hmem, rfl⟩ := List.mem_map.mp hpart
      refine ih argument hmem hoperators ?_
      intro w hw
      exact hwords w (List.mem_cons_of_mem _
        (Expr.mem_wordsAll (List.mem_map_of_mem hmem) hw))

/-- What holds of parentheses and of all lexemes besides them holds of lexemes that nest. -/
theorem Nested.forall {Q : Lexeme → Prop} (hP : ∀ w, P w → Q w) (hopener : Q "(") (hcloser : Q ")")
    {lexemes : List Lexeme} (h : Nested P lexemes) : ∀ w ∈ lexemes, Q w := by
  induction h with
  | nil => exact fun _ hw => absurd hw List.not_mem_nil
  | one hw => exact List.forall_mem_singleton.mpr (hP _ hw)
  | append _ _ ihx ihy => exact List.forall_mem_append.mpr ⟨ihx, ihy⟩
  | group _ ih =>
      exact List.forall_mem_cons.mpr ⟨hopener,
        List.forall_mem_append.mpr ⟨ih, List.forall_mem_singleton.mpr hcloser⟩⟩

/-- Lexemes that nest are written as a text that closes what it opens. -/
theorem Nested.closed (hP : ∀ w, P w → ∀ c ∈ w.toList, c ≠ '(' ∧ c ≠ ')') {lexemes : List Lexeme}
    (h : Nested P lexemes) : Text.Closed (spacedAll lexemes) := by
  have hspace : Text.Closed [' '] := closed_singleton (by decide)
  induction h with
  | nil => exact closed_nil
  | @one w hw =>
      have htext : spacedAll [w] = [' '] ++ w.toList := List.append_nil _
      rw [htext]
      exact hspace.append (closed_of_forall (hP w hw))
  | append _ _ ihx ihy =>
      rw [spacedAll, List.flatMap_append]
      exact ihx.append ihy
  | @group xs _ ih =>
      have htext : spacedAll ("(" :: (xs ++ [")"])) =
          [' '] ++ '(' :: ((spacedAll xs ++ [' ']) ++ [')']) := by
        rw [spacedAll, List.flatMap_cons, List.flatMap_append, List.append_assoc]
        rfl
      rw [htext]
      exact hspace.append (ih.append hspace).group

/-- What stands by itself stands among operators that bind as loosely as one likes. -/
theorem Derives.loosen {g : Grammar} {n : Nat} {lexemes : List Lexeme} {e : Expr}
    (h : g.Derives n [] lexemes e) (tiers : List Tier) : g.Derives n tiers lexemes e := by
  induction tiers with
  | nil => exact h
  | cons tier tiers ih => exact .tighter ih

end Grammar

/-! ## Spaced lexemes -/

namespace Text

theorem mem_spaced {lexemes : List Lexeme} {c : Char} (h : c ∈ spaced lexemes) :
    c = ' ' ∨ ∃ w ∈ lexemes, c ∈ w.toList := by
  cases lexemes with
  | nil => cases h
  | cons w lexemes =>
      have hmem : c ∈ spacedAll (w :: lexemes) := by
        rw [spacedAll_cons_eq]
        exact List.mem_cons_of_mem _ h
      obtain ⟨v, hv, hc⟩ := List.mem_flatMap.mp hmem
      rcases List.mem_cons.mp hc with heq | hc
      · exact .inl heq
      · exact .inr ⟨v, hv, hc⟩

/-- The last character is the last one of some lexeme. -/
theorem getLast?_spaced {lexemes : List Lexeme} (h : ∀ w ∈ lexemes, w.toList ≠ []) {c : Char}
    (hc : c ∈ (spaced lexemes).getLast?) : ∃ w ∈ lexemes, c ∈ w.toList.getLast? := by
  induction lexemes with
  | nil => cases hc
  | cons w lexemes ih =>
      rw [spaced_cons] at hc
      cases lexemes with
      | nil =>
          rw [spacedAll, List.flatMap_nil, List.append_nil] at hc
          exact ⟨w, List.mem_cons_self .., hc⟩
      | cons next lexemes =>
          have hnext : spaced (next :: lexemes) ≠ [] := by
            rw [spaced_cons]
            exact List.append_ne_nil_of_left_ne_nil
              (h next (List.mem_cons_of_mem _ (List.mem_cons_self ..))) _
          rw [spacedAll_cons_eq, List.getLast?_append_of_ne_nil _ (List.cons_ne_nil _ _),
            List.getLast?_cons_of_ne_nil hnext] at hc
          obtain ⟨v, hv, hlast⟩ := ih (fun v hv => h v (List.mem_cons_of_mem _ hv)) hc
          exact ⟨v, List.mem_cons_of_mem _ hv, hlast⟩

/-- Solid lexemes with single spaces between them make a solid text. -/
theorem solid_spaced_of_solid {lexemes : List Lexeme} (hne : lexemes ≠ [])
    (h : ∀ w ∈ lexemes, Solid w.toList) : Solid (spaced lexemes) := by
  cases lexemes with
  | nil => exact absurd rfl hne
  | cons first others =>
      have hfirst := h first (List.mem_cons_self ..)
      refine ⟨?_, ?_, ?_⟩
      · rw [spaced_cons]
        exact List.append_ne_nil_of_left_ne_nil hfirst.ne_nil _
      · intro c hc
        rw [spaced_cons, List.head?_append_of_ne_nil _ hfirst.ne_nil] at hc
        exact hfirst.first c hc
      · intro c hc
        obtain ⟨w, hw, hlast⟩ := getLast?_spaced (fun w hw => (h w hw).ne_nil) hc
        exact (h w hw).last c hlast

end Text

/-! ## Written expressions -/

namespace Dialect

variable {dialect : Dialect} {limit : Nat}

/-- The text spells the expression: its lexemes, from which the grammar of the dialect derives the
expression within the limit, stand in it with single spaces between them. -/
inductive Spells (dialect : Dialect) (limit : Nat) : String → Expr → Prop where
  | mk {lexemes : List Lexeme} {e : Expr} :
      dialect.spec.grammar.Derives limit dialect.spec.grammar.tiers lexemes e →
      (∀ w ∈ e.words, dialect.LineWord w) →
      Spells dialect limit (" ".intercalate lexemes) e

/-- What a text that spells an expression is good for, whatever stands around it. -/
structure Spelled (dialect : Dialect) (limit : Nat) (x : Text) (e : Expr) : Prop where
  /-- The expression is read again, without a problem. -/
  read : Reader.read ⟨dialect.spec, limit⟩ x = ⟨.expr e, []⟩
  solid : x.Solid
  closed : x.Closed
  no_assignment : splitAssign? x = none
  /-- Nothing in it separates the parts of a header, or lines. -/
  chars : ∀ c ∈ x, c ≠ ';' ∧ c ≠ '\n'
  no_type : leadsWith dialect.spec.typeKeywords x = false

theorem readable_grammar (dialect : Dialect) : dialect.spec.grammar.Readable := by
  cases dialect <;> exact ⟨⟨by decide, by decide⟩, by decide⟩

/-- The dialects that are read line by line have no operators but the symbols of a line. -/
theorem mem_lineSymbols (hline : dialect.isLineOriented = true) :
    (∀ w ∈ dialect.spec.grammar.signs, w ∈ lineSymbols) ∧
      ∀ tier ∈ dialect.spec.grammar.tiers, ∀ w ∈ tier.operators, w ∈ lineSymbols := by
  cases dialect with
  | expression => cases hline
  | c => exact ⟨by decide, by decide⟩
  | python => exact ⟨by decide, by decide⟩
  | java => exact ⟨by decide, by decide⟩

/-- No symbol but the parentheses holds a parenthesis. -/
theorem no_parenthesis_of_mem_lineSymbols {w : Lexeme} (h : w ∈ lineSymbols)
    (hmark : w ≠ "(" ∧ w ≠ ")") : ∀ c ∈ w.toList, c ≠ '(' ∧ c ≠ ')' := by
  have hall : ∀ w ∈ lineSymbols, w ≠ "(" ∧ w ≠ ")" → '(' ∉ w.toList ∧ ')' ∉ w.toList := by decide
  obtain ⟨hopener, hcloser⟩ := hall w h hmark
  intro c hc
  refine ⟨?_, ?_⟩
  · rintro rfl
    exact hopener hc
  · rintro rfl
    exact hcloser hc

/-- The lexemes of a written expression nest, and each of them may stand in a line. -/
theorem nested_of_derives (hline : dialect.isLineOriented = true) {lexemes : List Lexeme} {e : Expr}
    (h : dialect.spec.grammar.Derives limit dialect.spec.grammar.tiers lexemes e)
    (hwords : ∀ w ∈ e.words, dialect.LineWord w) :
    Grammar.Nested (fun w => dialect.Lexical w ∧ ∀ c ∈ w.toList, c ≠ '(' ∧ c ≠ ')') lexemes := by
  obtain ⟨hsigns, hoperators⟩ := mem_lineSymbols hline
  have hreadable := dialect.readable_grammar
  have hsymbol : ∀ w ∈ lineSymbols, w ≠ "(" ∧ w ≠ ")" →
      dialect.Lexical w ∧ ∀ c ∈ w.toList, c ≠ '(' ∧ c ≠ ')' :=
    fun w hw hmark => ⟨dialect.lexical_of_mem_lineSymbols hw,
      no_parenthesis_of_mem_lineSymbols hw hmark⟩
  have hsignsP : ∀ w ∈ dialect.spec.grammar.signs, w ≠ "(" ∧ w ≠ ")" := by
    intro w hw
    refine ⟨?_, ?_⟩
    · rintro rfl
      exact hreadable.no_mark_sign "(" Grammar.opener_mem hw
    · rintro rfl
      exact hreadable.no_mark_sign ")" Grammar.closer_mem hw
  have hoperatorsP : ∀ tier ∈ dialect.spec.grammar.tiers, ∀ w ∈ tier.operators,
      w ≠ "(" ∧ w ≠ ")" := by
    intro tier htier w hw
    refine ⟨?_, ?_⟩
    · rintro rfl
      exact hreadable.clear.no_mark tier htier "(" Grammar.opener_mem hw
    · rintro rfl
      exact hreadable.clear.no_mark tier htier ")" Grammar.closer_mem hw
  exact h.nested (hsymbol "," (by decide) (by decide))
    (fun w hw => hsymbol w (hsigns w hw) (hsignsP w hw))
    (fun tier ht w hw => hsymbol w (hoperators tier ht w hw) (hoperatorsP tier ht w hw))
    (fun tier ht w hw => hsymbol w (hoperators tier ht w hw) (hoperatorsP tier ht w hw))
    (fun w hw hform => (hwords w hw).lexical hform)

/-- Lexemes that may stand in a line are inert together. -/
theorem inert_spacedAll {lexemes : List Lexeme} (h : ∀ w ∈ lexemes, dialect.Lexical w) :
    Inert (spacedAll lexemes) := by
  induction lexemes with
  | nil => exact inert_nil
  | cons w lexemes ih =>
      have hrest := ih fun v hv => h v (List.mem_cons_of_mem _ hv)
      have hhead : (spacedAll lexemes).head? ≠ some '=' := by
        cases lexemes with
        | nil =>
            intro heq
            cases heq
        | cons v lexemes =>
            intro heq
            cases heq
      rw [spacedAll, List.flatMap_cons]
      exact (h w (List.mem_cons_self ..)).inert.2.append hrest hhead

/-- A derivation within the limit is parsed to its end, in silence. -/
theorem parse_derived {lexemes : List Lexeme} {e : Expr}
    (h : dialect.spec.grammar.Derives limit dialect.spec.grammar.tiers lexemes e)
    (hne : lexemes ≠ []) : (dialect.spec.grammar.parse limit lexemes).expr = some e ∧
      (dialect.spec.grammar.parse limit lexemes).problems = [] := by
  have hreadable := dialect.readable_grammar
  have hparsed : dialect.spec.grammar.Parsed limit limit dialect.spec.grammar.tiers lexemes e :=
    h.parsed hreadable hreadable.clear
  have hwhole := hparsed.reads 0 0 [] (Grammar.stops_nil _)
  rw [List.append_nil] at hwhole
  rw [Grammar.parse_of_ne_nil hne]
  refine ⟨hwhole.value, ?_⟩
  simp only [Cursor.start, hwhole.silent, hwhole.rest, List.isEmpty_nil, if_true, List.append_nil]

theorem profile_of_isLineOriented (hline : dialect.isLineOriented = true) :
    dialect.spec.profile = .extended := by
  cases dialect with
  | expression => cases hline
  | c => rfl
  | python => rfl
  | java => rfl

/-- Lexemes that may stand in a line, and that are derived, are read from their text with spaces. -/
theorem read_spaced (hline : dialect.isLineOriented = true) {lexemes : List Lexeme} {e : Expr}
    (h : dialect.spec.grammar.Derives limit dialect.spec.grammar.tiers lexemes e)
    (hne : lexemes ≠ []) (hlexical : ∀ w ∈ lexemes, dialect.Lexical w) :
    Reader.read ⟨dialect.spec, limit⟩ (spaced lexemes) = ⟨.expr e, []⟩ := by
  obtain ⟨hexpr, hsilent⟩ := parse_derived h hne
  have htokens : dialect.spec.profile.tokenize (spaced lexemes) = lexemes := by
    rw [profile_of_isLineOriented hline]
    exact Profile.tokenize_spaced Profile.local_extended fun w hw => (hlexical w hw).whole
  have hcut : Problem.ofLexemes lexemes = [] := by
    rw [Problem.ofLexemes, List.map_eq_nil_iff, List.filter_eq_nil_iff]
    intro w hw
    rw [(hlexical w hw).uncut]
    exact Bool.noConfusion
  have hexpression : Reader.expression? ⟨dialect.spec, limit⟩ (spaced lexemes) = ⟨some e, []⟩ := by
    rw [Reader.expression?]
    dsimp only
    rw [htokens, hexpr, hsilent, hcut]
    rfl
  rw [Reader.read, hexpression]
  rfl

theorem Lexical.solid {w : Lexeme} (h : dialect.Lexical w) : Solid w.toList where
  ne_nil := h.ne_nil
  first := fun c hc => (h.chars c (List.mem_of_mem_head? hc)).1
  last := fun c hc => ⟨(h.chars c (List.mem_of_getLast? hc)).1, h.last c hc⟩

/-- Neither white space nor what ends a line stands at the ends of lexemes with spaces. -/
theorem solid_spaced {lexemes : List Lexeme} (hne : lexemes ≠ [])
    (h : ∀ w ∈ lexemes, dialect.Lexical w) : Solid (spaced lexemes) :=
  solid_spaced_of_solid hne fun w hw => (h w hw).solid

/-- The space in front of nested lexemes is passed over without a change. -/
theorem closed_spaced {P : Lexeme → Prop} (hP : ∀ w, P w → ∀ c ∈ w.toList, c ≠ '(' ∧ c ≠ ')')
    {lexemes : List Lexeme} (h : Grammar.Nested P lexemes) : Closed (spaced lexemes) := by
  cases lexemes with
  | nil => exact closed_nil
  | cons first others =>
      have hspaced := h.closed hP
      rw [spacedAll_cons_eq] at hspaced
      intro opened rest
      have hwhole := hspaced opened rest
      rw [List.cons_append, untilClosed_other (by decide) (by decide), List.cons_append] at hwhole
      exact (List.cons.inj hwhole).2

/-- **What spells an expression is read as that expression**, and disturbs nothing around it. -/
theorem Spells.spelled (hline : dialect.isLineOriented = true) {text : String} {e : Expr}
    (h : dialect.Spells limit text e) : dialect.Spelled limit text.toList e := by
  cases h with
  | @mk lexemes _ hderives hwords =>
  have htext : (" ".intercalate lexemes).toList = spaced lexemes := by
    rw [String.toList_intercalate]
    rfl
  obtain ⟨first, others, rfl, -⟩ := hderives.head dialect.readable_grammar
  have hne : first :: others ≠ [] := List.cons_ne_nil first others
  -- how the lexemes nest settles what each of them is, and that the text closes what it opens
  have hnested := nested_of_derives hline hderives hwords
  have hlexical : ∀ w ∈ first :: others, dialect.Lexical w :=
    hnested.forall (fun _ hw => hw.1) (dialect.lexical_of_mem_lineSymbols (by decide))
      (dialect.lexical_of_mem_lineSymbols (by decide))
  have hfirst := hlexical first (List.mem_cons_self ..)
  have hothers : ∀ w ∈ others, dialect.Lexical w :=
    fun w hw => hlexical w (List.mem_cons_of_mem _ hw)
  have hafter : ∀ c ∈ (spacedAll others).head?, isNameChar c = false ∧ c ≠ '=' := by
    cases others with
    | nil =>
        intro c hc
        cases hc
    | cons next others =>
        intro c hc
        obtain rfl : ' ' = c := Option.some.inj hc
        exact ⟨by decide, by decide⟩
  rw [htext]
  refine ⟨read_spaced hline hderives hne hlexical, solid_spaced hne hlexical,
    closed_spaced (fun _ hw => hw.2) hnested, ?_, ?_, ?_⟩
  · rw [spaced_cons]
    refine (hfirst.inert.1.append (inert_spacedAll hothers) ?_).splitAssign?
    intro heq
    exact (hafter '=' heq).2 rfl
  · intro c hc
    rcases mem_spaced hc with rfl | ⟨w, hw, hc⟩
    · exact ⟨by decide, by decide⟩
    · have hchars := (hlexical w hw).chars c hc
      refine ⟨hchars.2, ?_⟩
      rintro rfl
      exact absurd hchars.1 (by decide)
  · have hblank : ∀ c ∈ first.toList.head?, isBlank c = false :=
      fun c hc => (hfirst.chars c (List.mem_of_mem_head? hc)).1
    rw [spaced_cons, leadsWith,
      leadingWord_append hfirst.ne_nil hblank fun c hc => (hafter c hc).1]
    exact hfirst.no_type

end Dialect

end SnippetTree
