import Mathlib.Data.List.Chain
import SnippetTree.Proofs.Spelling
import SnippetTree.Proofs.UnusedTiers
import SnippetTree.Proofs.Visit

/-!
# Operators that are taken for operands

Where an operand is expected, the parser never asks whether what stands there is an operator. For a
symbol this makes no difference, since a symbol does not look like an operand: it is left to be
read, and the operator before it is noted to lack an operand. A word does look like an operand. So
`or` and `and` are taken for the operand that is missing, and nothing is noted. The word `not` is
not, since a prefix operator is looked for right before an operand is.

This file says which operators can be taken for operands, and that no other ones are
(`Descent.Runs.operands`); and where it does not happen: a parse in which no operand was noted to be
missing takes a word for an operator wherever the word stands right after the end of an operand.
-/

namespace SnippetTree

open SnippetTree.Numbering SnippetTree.Rose

/-! ## The operands of a tree -/

namespace Tree

/-- The root stands for an operand: for a name, for a value, or for a call. -/
def isOperand (t : Tree) : Bool :=
  match t.value.kind with
  | .identifier | .keyword | .constant | .call => true
  | _ => false

/-- The lexemes of the operands of a tree, each before those below it. -/
def operandWords (t : Tree) : List Lexeme :=
  (t.walk.filter isOperand).map (·.value.lexeme)

theorem operandWords_mk (id : Int) (kind : Kind) (lexeme : Lexeme) (category : Category)
    (children : List Tree) (synthetic : Bool) :
    (mk id kind lexeme category children synthetic).operandWords =
      (if isOperand (mk id kind lexeme category children synthetic) then [lexeme] else []) ++
        children.flatMap operandWords := by
  rw [operandWords, mk, walk_node, List.filter_cons, List.filter_flatMap]
  split
  · rw [List.map_cons, List.map_flatMap]
    rfl
  · rw [List.map_flatMap]
    rfl

end Tree

namespace Expr

mutual

/-- An operand of a tree is an empty place or one of the words of the expression. -/
theorem always_operandWords : ∀ e : Expr,
    e.toTree.Always fun t => t.operandWords ⊆ "" :: e.words
  | .identifier name | .keyword name | .constant name => always_create fun id => by
      rw [Tree.operandWords_mk]
      exact List.subset_cons_self _ _
  | .placeholder => always_create fun id => by
      rw [Tree.operandWords_mk]
      exact List.Subset.refl _
  | .unary operator e | .leftOnly operator e | .rightOnly operator e =>
      (always_operandWords e).bind fun t ht => always_create fun id => by
        rw [Tree.operandWords_mk, List.flatMap_singleton]
        exact ht
  | .binary operator l r =>
      (always_operandWords l).bind fun tl hl => (always_operandWords r).bind fun tr hr =>
        always_create fun id => by
          rw [Tree.operandWords_mk, List.flatMap_cons, List.flatMap_singleton]
          refine List.append_subset.mpr ⟨List.nil_subset _, List.append_subset.mpr ⟨?_, ?_⟩⟩
          · exact List.Subset.trans hl (List.cons_subset_cons _ (List.subset_append_left _ _))
          · exact List.Subset.trans hr (List.cons_subset_cons _ (List.subset_append_right _ _))
  | .call callee es =>
      (alwaysAll_operandWords es).bind fun ts hts => always_create fun id => by
        rw [Tree.operandWords_mk]
        refine List.append_subset.mpr ⟨?_, ?_⟩
        · refine List.cons_subset.mpr ⟨?_, List.nil_subset _⟩
          exact List.mem_cons_of_mem _ (List.mem_cons_self ..)
        · exact List.Subset.trans hts (List.cons_subset_cons _ (List.subset_cons_self _ _))

theorem alwaysAll_operandWords : ∀ es : List Expr, (toTrees es).Always fun ts =>
    ts.flatMap Tree.operandWords ⊆ "" :: wordsAll es
  | [] => always_pure (List.nil_subset _)
  | e :: es =>
      (always_operandWords e).bind fun t ht => (alwaysAll_operandWords es).bind fun ts hts =>
        always_pure (by
          rw [List.flatMap_cons]
          refine List.append_subset.mpr ⟨?_, ?_⟩
          · exact List.Subset.trans ht (List.cons_subset_cons _ (List.subset_append_left _ _))
          · exact List.Subset.trans hts (List.cons_subset_cons _ (List.subset_append_right _ _)))

end

/-- The words of an expression, if there is one. -/
def wordsIn (value : Option Expr) : List Lexeme :=
  value.elim [] words

theorem wordsAll_append (es : List Expr) (value : Option Expr) :
    wordsAll (es ++ value.toList) = wordsAll es ++ wordsIn value := by
  induction es with
  | nil => cases value <;> simp [wordsAll, wordsIn]
  | cons e es ih => rw [List.cons_append, wordsAll, wordsAll, ih, List.append_assoc]

theorem words_nameLeaf (g : Grammar) (name : Lexeme) : (g.nameLeaf name).words = [name] := by
  unfold Grammar.nameLeaf
  split <;> rfl

/-- An operator has the words of its operands. -/
theorem mem_wordsIn_join {operator : Lexeme} {left right : Option Expr} {w : Lexeme}
    (h : w ∈ wordsIn (Grammar.join operator left right).1) :
    w ∈ wordsIn left ∨ w ∈ wordsIn right := by
  cases left with
  | none =>
      cases right with
      | none => cases h
      | some r => exact .inr h
  | some l =>
      cases right with
      | none => exact .inl h
      | some r => exact List.mem_append.mp h

theorem wordsIn_applySign (operator : Lexeme) (operand : Option Expr) :
    wordsIn (Grammar.applySign operator operand).1 = wordsIn operand := by
  cases operand <;> rfl

end Expr

/-! ## Operators that look like operands -/

/-- The lexeme looks like a value, a name or a callee. -/
def Lexeme.looksLikeOperand (lexeme : Lexeme) : Bool :=
  lexeme.isConstant || lexeme.isIdentifier

namespace Grammar

variable {g : Grammar} {watched : List Lexeme}

/-- The operators of a grammar, prefix operators first. -/
def operators (g : Grammar) : List Lexeme :=
  g.signs ++ g.tiers.flatMap Tier.operators

/-- The binary operators that look like operands. -/
def wordOperators (g : Grammar) : List Lexeme :=
  (g.tiers.flatMap Tier.operators).filter Lexeme.looksLikeOperand

/-- An operand may end with the lexeme. -/
def endsOperand (g : Grammar) (lexeme : Lexeme) : Bool :=
  lexeme == ")" || (lexeme.looksLikeOperand && !g.operators.contains lexeme)

/-- Each of the watched words stands right after the end of an operand, unless it is the first
lexeme. -/
def Placed (g : Grammar) (watched lexemes : List Lexeme) : Prop :=
  lexemes.IsChain fun before next => next ∈ watched → g.endsOperand before = true

instance (g : Grammar) (watched lexemes : List Lexeme) : Decidable (g.Placed watched lexemes) :=
  inferInstanceAs (Decidable (List.IsChain _ _))

/-- The lexeme may be an operand: it looks like one, and it is neither a prefix operator nor a
watched word. -/
structure MayStand (g : Grammar) (watched : List Lexeme) (lexeme : Lexeme) : Prop where
  looks : lexeme.looksLikeOperand = true
  no_sign : lexeme ∉ g.signs
  not_watched : lexeme ∉ watched

theorem MayStand.of_off {lexeme : Lexeme} {rest : List Lexeme}
    (hlooks : lexeme.looksLikeOperand = true)
    (hoff : Off (lexeme :: rest) g.signs ∧ Off (lexeme :: rest) watched) :
    g.MayStand watched lexeme :=
  ⟨hlooks, hoff.1 _ rfl, hoff.2 _ rfl⟩

theorem mem_operators_of_tier {tier : Tier} (ht : tier ∈ g.tiers) {operator : Lexeme}
    (ho : operator ∈ tier.operators) : operator ∈ g.operators :=
  List.mem_append_right _ (List.mem_flatMap.mpr ⟨tier, ht, ho⟩)

/-- Parentheses and commas are no operators. -/
theorem Readable.no_mark (hg : g.Readable) {mark : Lexeme} (hm : mark ∈ punctuation) :
    mark ∉ g.operators := by
  rw [operators, List.mem_append, List.mem_flatMap]
  rintro (hsign | ⟨tier, ht, ho⟩)
  · exact hg.no_mark_sign mark hm hsign
  · exact hg.clear.no_mark tier ht mark hm ho

/-- Nothing is asked of a text if no word is watched. -/
theorem placed_nil (lexemes : List Lexeme) : g.Placed [] lexemes :=
  List.Pairwise.isChain (List.pairwise_of_forall fun _ _ h => absurd h List.not_mem_nil)

theorem Placed.suffix {lexemes rest : List Lexeme} (h : g.Placed watched lexemes)
    (hsuffix : rest <:+ lexemes) : g.Placed watched rest :=
  List.IsChain.suffix h hsuffix

theorem Placed.tail {lexeme : Lexeme} {rest : List Lexeme} (h : g.Placed watched (lexeme :: rest)) :
    g.Placed watched rest :=
  h.suffix (List.suffix_cons _ _)

/-- No watched word stands after what ends no operand. -/
theorem Placed.off {lexeme : Lexeme} {rest : List Lexeme} (h : g.Placed watched (lexeme :: rest))
    (hends : g.endsOperand lexeme = false) : Off rest watched := by
  intro next hnext hword
  have hafter := (List.isChain_cons.mp h).1 next hnext hword
  rw [hends] at hafter
  cases hafter

theorem Placed.off_operator (hg : g.Readable) {operator : Lexeme} {rest : List Lexeme}
    (h : g.Placed watched (operator :: rest)) (ho : operator ∈ g.operators) : Off rest watched := by
  refine h.off ?_
  have hcloser : operator ≠ ")" := by
    rintro rfl
    exact hg.no_mark closer_mem ho
  simp [endsOperand, hcloser, ho]

end Grammar

/-! ## What a call reads -/

/-- No operator was noted to lack an operand. -/
def Problem.Complete (problems : List Problem) : Prop :=
  ∀ p ∈ problems, p.code ≠ "P101"

theorem Problem.complete_append {before after : List Problem} :
    Complete (before ++ after) ↔ Complete before ∧ Complete after :=
  List.forall_mem_append

namespace Descent

open SnippetTree.Grammar (Off join applySign)
open SnippetTree.Problem (Complete complete_append)
open SnippetTree.Expr (wordsIn wordsAll)

variable {g : Grammar} {limit : Nat} {task : Task} {s : Place} {r : Result}
  {visited : List Place} {watched : List Lexeme}

/-- What is left to be read after a call was left before it. -/
theorem Runs.suffix (h : Runs g limit task s r visited) : r.place.rest <:+ s.rest :=
  h.moves.suffix

/-- A part that nests too deeply is passed over up to a closing parenthesis. -/
theorem Runs.next_of_skip {opened : Nat} (h : Runs g limit (.skip opened) s r visited) :
    ∀ next ∈ r.place.rest.head?, next = ")" := by
  generalize htask : Task.skip opened = task at h
  induction h generalizing opened with
  | skipAtEnd => exact fun next hnext => by cases hnext
  | skipClosed => exact fun next hnext => (Option.some.inj hnext).symm
  | skipOver _ _ ih => exact ih rfl
  | _ => cases htask

theorem noted_of_join {operator : Lexeme} {left right : Option Expr}
    (h : (join operator left right).1 = none) :
    Problem.missingOperand operator ∈ (join operator left right).2 := by
  cases left with
  | none =>
      cases right with
      | none => exact List.mem_singleton_self _
      | some r => cases h
  | some l => cases right <;> cases h

/-- None of the operators that a call looks for is next when it is done. The tighter ones must have
been passed before the operators of a tier are read. -/
def Task.Past (g : Grammar) : Task → Place → Result → Prop
  | .tiers list, _, r | .nested list, _, r =>
    list ⊆ g.tiers → ∀ tier ∈ list, Off r.place.rest tier.operators
  | .operators tier tighter _, s, r =>
    tier :: tighter ⊆ g.tiers → (∀ t ∈ tighter, Off s.rest t.operators) →
      ∀ t ∈ tier :: tighter, Off r.place.rest t.operators
  | _, _, _ => True

/-- **Where no operand is noted to be missing, a call goes on until none of its operators is next.**
Only a tier whose operator has no operand at all is given up before. -/
theorem Runs.past (hg : g.Readable) (h : Runs g limit task s r visited)
    (hcomplete : Complete r.problems) : task.Past g s r := by
  induction h with
  | noTier => exact fun _ _ ht => absurd ht List.not_mem_nil
  | tier _ _ ihl ihr =>
      intro htiers
      obtain ⟨hl, hr⟩ := complete_append.mp hcomplete
      exact ihr hr htiers (ihl hl (List.Subset.trans (List.subset_cons_self _ _) htiers))
  | noOperator hoff => exact fun _ htighter => List.forall_mem_cons.mpr ⟨hoff, htighter⟩
  | joined _ _ _ _ _ ihright ih =>
      intro htiers _
      obtain ⟨hround, hmore⟩ := complete_append.mp hcomplete
      have hright := (complete_append.mp hround).1
      exact ih hmore htiers (ihright hright (List.Subset.trans (List.subset_cons_self _ _) htiers))
  | noOperand _ _ _ hjoin =>
      exact absurd rfl (hcomplete _ (List.mem_append_right _ (noted_of_join hjoin)))
  | joinedRight _ _ _ ih =>
      intro htiers _
      exact ih (complete_append.mp hcomplete).1 htiers
  | nested _ _ hplace ih =>
      intro htiers
      have hoff := ih hcomplete htiers
      rw [hplace] at hoff
      exact hoff
  | nothingNested => exact fun _ _ _ next hnext => by cases hnext
  | tooDeep _ hskip =>
      intro htiers tier ht next hnext ho
      rw [hskip.next_of_skip next hnext] at ho
      exact hg.no_mark Grammar.closer_mem (Grammar.mem_operators_of_tier (htiers ht) ho)
  | _ => trivial

/-- What looks like an operand is read where an operand is expected. -/
def Task.Reads : Task → Place → Result → Prop
  | .tiers _, s, r | .nested _, s, r | .signs, s, r | .primary, s, r =>
    ∀ lexeme rest, s.rest = lexeme :: rest → lexeme ≠ ")" → lexeme.looksLikeOperand = true →
      r.place.rest <:+ rest
  | _, _, _ => True

theorem Runs.reads (h : Runs g limit task s r visited) : task.Reads s r := by
  induction h with
  | noTier _ ih => exact ih
  | tier _ hr ihl _ =>
      intro lexeme rest hs hne hlooks
      exact hr.suffix.trans (ihl lexeme rest hs hne hlooks)
  | sign _ hnested =>
      rintro _ _ ⟨⟩ _ _
      exact hnested.suffix
  | noSign _ _ ih => exact ih
  | nothing => exact fun _ _ hs => by cases hs
  | group hnested hplace =>
      rintro _ _ ⟨⟩ _ _
      have hsuffix := hnested.suffix
      rw [hplace] at hsuffix
      exact (List.suffix_cons _ _).trans hsuffix
  | groupAtEnd hnested =>
      rintro _ _ ⟨⟩ _ _
      exact hnested.suffix
  | groupLeftOpen hnested =>
      rintro _ _ ⟨⟩ _ _
      exact hnested.suffix
  | constant =>
      rintro _ _ ⟨⟩ _ _
      exact List.suffix_refl _
  | name =>
      rintro _ _ ⟨⟩ _ _
      exact List.suffix_refl _
  | call _ _ _ harguments =>
      rintro _ _ ⟨⟩ _ _
      exact harguments.suffix.trans (List.suffix_cons _ _)
  | noPrimary _ hconstant hidentifier =>
      rintro _ _ ⟨⟩ _ hlooks
      rw [Lexeme.looksLikeOperand, hconstant, hidentifier] at hlooks
      cases hlooks
  | nested _ _ hplace ih =>
      intro lexeme rest hs hne hlooks
      have hsuffix := ih lexeme rest hs hne hlooks
      rw [hplace] at hsuffix
      exact hsuffix
  | nothingNested => exact fun _ _ hs => by cases hs
  | tooDeep _ hskip =>
      rintro _ _ ⟨⟩ hne _
      cases hskip with
      | skipClosed => exact absurd rfl hne
      | skipOver _ hmore => exact hmore.suffix
  | _ => trivial

/-- The words that a call is given, in expressions that were read before. -/
def Task.held : Task → List Lexeme
  | .operators _ _ left => wordsIn left
  | .arguments callee before => callee :: wordsAll before
  | _ => []

/-- An argument is held with the callee and the arguments before it. -/
theorem Task.mem_held_or {callee : Lexeme} {before : List Expr} {value : Option Expr} {w : Lexeme}
    (h : w ∈ (Task.arguments callee (before ++ value.toList)).held) :
    w ∈ (Task.arguments callee before).held ∨ w ∈ wordsIn value := by
  rw [held, Expr.wordsAll_append, ← List.cons_append] at h
  exact List.mem_append.mp h

/-- A call may be made: where it looks for an operand, no watched word is next. -/
def Task.Ready (g : Grammar) (watched : List Lexeme) : Task → Place → Prop
  | .tiers list, s | .nested list, s => list ⊆ g.tiers ∧ Off s.rest watched
  | .operators tier tighter _, _ => tier :: tighter ⊆ g.tiers
  | .primary, s => Off s.rest g.signs ∧ Off s.rest watched
  | .skip _, _ => True
  | _, s => Off s.rest watched

/-- Where an argument has not read anything, what is passed over is no end of an operand. -/
theorem Runs.off_passed {lexeme next : Lexeme} {rest rest' : List Lexeme} {depth depth' : Nat}
    (h : Runs g limit (.nested g.tiers) ⟨lexeme :: rest, depth⟩ r visited) (hne : lexeme ≠ ")")
    (hplace : r.place = ⟨next :: rest', depth'⟩) (hpass : next = "," ∨ rest'.length = rest.length)
    (hplaced : g.Placed watched (lexeme :: rest)) : Off rest' watched := by
  have hsuffix := h.suffix
  rw [hplace] at hsuffix
  rcases hpass with rfl | hlength
  · exact (hplaced.suffix hsuffix).off rfl
  · have hsame : next :: rest' = lexeme :: rest := hsuffix.eq_of_length (by simp [hlength])
    obtain ⟨rfl, rfl⟩ := List.cons.inj hsame
    refine hplaced.off ?_
    cases hlooks : next.looksLikeOperand with
    | false => simp [Grammar.endsOperand, hne, hlooks]
    | true =>
        -- then it would have been read
        have hread := (h.reads next rest' rfl hne hlooks).length_le
        rw [hplace, List.length_cons] at hread
        omega

/-- **What is taken for an operand looks like one and is no prefix operator.** If moreover each of
some binary operators stands right after the end of an operand, and no operand is noted to be
missing, none of them is taken for an operand. -/
theorem Runs.operands (hg : g.Readable)
    (hbinary : ∀ w ∈ watched, ∃ tier ∈ g.tiers, w ∈ tier.operators)
    (h : Runs g limit task s r visited) (hplaced : g.Placed watched s.rest)
    (hready : task.Ready g watched s) (hheld : ∀ w ∈ task.held, g.MayStand watched w)
    (hcomplete : watched = [] ∨ Complete r.problems) :
    ∀ w ∈ wordsIn r.value, g.MayStand watched w := by
  have hnone : ∀ w ∈ ([] : List Lexeme), g.MayStand watched w :=
    fun _ hw => absurd hw List.not_mem_nil
  have hfirst : ∀ {before after : List Problem}, watched = [] ∨ Complete (before ++ after) →
      watched = [] ∨ Complete before := fun h => h.imp_right fun h => (complete_append.mp h).1
  have hlast : ∀ {before after : List Problem}, watched = [] ∨ Complete (before ++ after) →
      watched = [] ∨ Complete after := fun h => h.imp_right fun h => (complete_append.mp h).2
  induction h with
  | noLexeme => exact hnone
  | whole _ _ ih => exact ih hplaced ⟨List.Subset.refl _, hready⟩ hnone (hfirst hcomplete)
  | noTier _ ih => exact ih hplaced hready.2 hnone hcomplete
  | tier hl _ ihl ihr =>
      have htighter := List.Subset.trans (List.subset_cons_self _ _) hready.1
      have hleft := ihl hplaced ⟨htighter, hready.2⟩ hnone (hfirst hcomplete)
      exact ihr (hplaced.suffix hl.suffix) hready.1 hleft (hlast hcomplete)
  | noOperator => exact hheld
  | joined _ ho hright hjoin _ ihright ih =>
      have htighter := List.Subset.trans (List.subset_cons_self _ _) hready
      have hoff := hplaced.off_operator hg
        (Grammar.mem_operators_of_tier (hready (List.mem_cons_self ..)) ho)
      have hoperand := ihright hplaced.tail ⟨htighter, hoff⟩ hnone (hfirst (hfirst hcomplete))
      refine ih (hplaced.tail.suffix hright.suffix) hready ?_ (hlast hcomplete)
      intro w hw
      rw [← hjoin] at hw
      exact (Expr.mem_wordsIn_join hw).elim (hheld w) (hoperand w)
  | noOperand => exact hnone
  | joinedRight _ ho _ ih =>
      have hoff := hplaced.off_operator hg
        (Grammar.mem_operators_of_tier (hready (List.mem_cons_self ..)) ho)
      have hoperand := ih hplaced.tail ⟨hready, hoff⟩ hnone (hfirst hcomplete)
      exact fun w hw => (Expr.mem_wordsIn_join hw).elim (hheld w) (hoperand w)
  | sign ho _ ih =>
      have hoff := hplaced.off_operator hg (List.mem_append_left _ ho)
      have hoperand := ih hplaced.tail ⟨List.nil_subset _, hoff⟩ hnone (hfirst hcomplete)
      intro w hw
      exact hoperand w (Expr.wordsIn_applySign _ _ ▸ hw)
  | noSign hoff _ ih => exact ih hplaced ⟨hoff, hready⟩ hnone hcomplete
  | nothing => exact hnone
  | group _ _ ih =>
      exact ih hplaced.tail ⟨List.Subset.refl _, hplaced.off rfl⟩ hnone hcomplete
  | groupAtEnd _ _ ih =>
      exact ih hplaced.tail ⟨List.Subset.refl _, hplaced.off rfl⟩ hnone (hfirst hcomplete)
  | groupLeftOpen _ _ _ ih =>
      exact ih hplaced.tail ⟨List.Subset.refl _, hplaced.off rfl⟩ hnone hcomplete
  | constant _ hconstant =>
      rw [wordsIn, Option.elim_some, Expr.words, List.forall_mem_singleton]
      exact .of_off (by rw [Lexeme.looksLikeOperand, hconstant, Bool.true_or]) hready
  | @name lexeme _ _ _ _ hidentifier =>
      have hwords : wordsIn (some (g.nameLeaf lexeme)) = [lexeme] := Expr.words_nameLeaf g lexeme
      rw [hwords, List.forall_mem_singleton]
      exact .of_off (by rw [Lexeme.looksLikeOperand, hidentifier, Bool.or_true]) hready
  | call _ _ hidentifier _ ih =>
      refine ih hplaced.tail.tail (hplaced.tail.off rfl) ?_ hcomplete
      rw [Task.held, wordsAll, List.forall_mem_singleton]
      exact .of_off (by rw [Lexeme.looksLikeOperand, hidentifier, Bool.or_true]) hready
  | noPrimary => exact hnone
  | argumentsAtEnd => exact hheld
  | argumentsClosed => exact hheld
  | argumentThenPass hne ha hplace hpass _ iha ih =>
      have hargument := iha hplaced ⟨List.Subset.refl _, hready⟩ hnone (hfirst hcomplete)
      have hsuffix := ha.suffix
      rw [hplace] at hsuffix
      refine ih (hplaced.suffix hsuffix).tail (ha.off_passed hne hplace hpass hplaced) ?_
        (hlast hcomplete)
      exact fun w hw => (Task.mem_held_or hw).elim (hheld w) (hargument w)
  | argumentThenStay _ ha _ _ _ iha ih =>
      have hargument := iha hplaced ⟨List.Subset.refl _, hready⟩ hnone (hfirst hcomplete)
      refine ih (hplaced.suffix ha.suffix) ?_ ?_ (hlast hcomplete)
      · -- no operator is next after an argument that misses no operand
        rcases hcomplete with rfl | hcomplete
        · exact fun _ _ => List.not_mem_nil
        · intro next hnext hword
          obtain ⟨tier, ht, ho⟩ := hbinary next hword
          have hpast := ha.past hg (complete_append.mp hcomplete).1
          exact hpast (List.Subset.refl _) tier ht next hnext ho
      · exact fun w hw => (Task.mem_held_or hw).elim (hheld w) (hargument w)
  | nested _ _ _ ih => exact ih hplaced hready hnone hcomplete
  | nothingNested => exact hnone
  | tooDeep => exact hnone
  | skipAtEnd => exact hnone
  | skipClosed => exact hnone
  | skipOver _ _ ih => exact ih hplaced.tail trivial hnone hcomplete

end Descent

/-! ## Readings -/

open SnippetTree.Grammar (Off)
open SnippetTree.Problem (Complete complete_append)

variable {watched : List Lexeme}

theorem Grammar.mayStand_of_parse {g : Grammar} (hg : g.Readable)
    (hbinary : ∀ w ∈ watched, ∃ tier ∈ g.tiers, w ∈ tier.operators) {limit : Nat}
    {lexemes : List Lexeme} (hplaced : g.Placed watched ("(" :: lexemes))
    (hcomplete : watched = [] ∨ Complete (g.parse limit lexemes).problems) {e : Expr}
    (he : (g.parse limit lexemes).expr = some e) : ∀ w ∈ e.words, g.MayStand watched w := by
  obtain ⟨visited, hruns⟩ := Descent.runs_parse g limit lexemes
  have hstand : ∀ w ∈ Expr.wordsIn (g.parse limit lexemes).expr, g.MayStand watched w :=
    hruns.operands hg hbinary hplaced.tail (hplaced.off rfl) nofun hcomplete
  rw [he] at hstand
  exact hstand

/-- An operand of what is read is an empty place or may be an operand. -/
theorem Reader.mayStand_of_read (r : Reader) (text : Text) (hg : r.spec.grammar.Readable)
    (hbinary : ∀ w ∈ watched, ∃ tier ∈ r.spec.grammar.tiers, w ∈ tier.operators)
    (hplaced : r.spec.grammar.Placed watched ("(" :: r.spec.profile.tokenize text))
    (hcomplete : watched = [] ∨ Complete (r.read text).problems) (first : Int) :
    ∀ w ∈ ((r.read text).value.toTree.run first).1.operandWords,
      w = "" ∨ r.spec.grammar.MayStand watched w := by
  have hparse := hcomplete.imp_right fun h =>
    (complete_append.mp (complete_append.mp h).1).2
  cases he : (r.expression? text).value with
  | none =>
      have hvalue : (r.read text).value = .raw (String.ofList text) := by
        rw [read, Report.value_bind, he]
        rfl
      have hnone : ((Reading.raw (String.ofList text)).toTree.run first).1.operandWords = [] :=
        Tree.operandWords_mk first .expression (String.ofList text) .constant [] false
      rw [hvalue, hnone]
      exact fun _ hw => absurd hw List.not_mem_nil
  | some e =>
      have hvalue : (r.read text).value = .expr e := by
        rw [read, Report.value_bind, he]
        rfl
      rw [hvalue]
      intro w hw
      refine (List.mem_cons.mp (e.always_operandWords first hw)).imp_right fun hw => ?_
      exact Grammar.mayStand_of_parse hg hbinary hplaced hparse he w hw

/-! ## Dialects -/

namespace Dialect

/-- The lexemes of the operands in the tree of a text. -/
def operandsRead (d : Dialect) (frames : Nat) (text : Text) (first : Int) : List Lexeme :=
  (((Reader.ofDialect d frames).read text).value.toTree.run first).1.operandWords

/-- An operator that looks like an operand is a prefix operator or a binary word operator. -/
theorem mem_wordOperators (d : Dialect) {w : Lexeme} (hw : w ∈ d.spec.grammar.operators)
    (hlooks : w.looksLikeOperand = true) (hsign : w ∉ d.spec.grammar.signs) :
    w ∈ d.spec.grammar.wordOperators :=
  List.mem_filter.mpr ⟨(List.mem_append.mp hw).resolve_left hsign, hlooks⟩

/-- Only one dialect has binary operators that are words. -/
theorem eq_python_of_mem {d : Dialect} {w : Lexeme} (hw : w ∈ d.spec.grammar.wordOperators) :
    d = .python ∧ w ∈ ["or", "and"] := by
  have hnone : Dialect.expression.spec.grammar.wordOperators = [] ∧
      Dialect.c.spec.grammar.wordOperators = [] ∧
      Dialect.java.spec.grammar.wordOperators = [] := by decide +kernel
  have hpython : Dialect.python.spec.grammar.wordOperators = ["or", "and"] := by decide +kernel
  cases d with
  | expression => rw [hnone.1] at hw; cases hw
  | c => rw [hnone.2.1] at hw; cases hw
  | python => exact ⟨rfl, hpython ▸ hw⟩
  | java => rw [hnone.2.2] at hw; cases hw

/-- **Which operators are taken for operands, and where it does not happen.** In the tree of any
text an operator is taken for an operand only if it is the word `or` or the word `and` of the
dialect that knows them. And none is, if no operand is noted to be missing and each of these words
stands right after the end of an operand; an opening parenthesis in front of the text says that the
first lexeme does not. -/
theorem operators_operandsRead (d : Dialect) (frames : Nat) (text : Text) (first : Int) :
    (∀ w ∈ d.operandsRead frames text first, w ∈ d.spec.grammar.operators →
      d = .python ∧ w ∈ ["or", "and"]) ∧
    ((∀ p ∈ ((Reader.ofDialect d frames).read text).problems, p.code ≠ "P101") →
      d.spec.grammar.Placed d.spec.grammar.wordOperators ("(" :: d.spec.profile.tokenize text) →
      ∀ w ∈ d.operandsRead frames text first, w ∉ d.spec.grammar.operators) := by
  have hg := d.readable_grammar
  have hempty : "" ∉ d.spec.grammar.operators := by cases d <;> decide
  constructor
  · intro w hw ho
    have hstand := (Reader.ofDialect d frames).mayStand_of_read text hg
      (fun _ hw => absurd hw List.not_mem_nil) (Grammar.placed_nil _) (.inl rfl) first w hw
    rcases hstand with rfl | hstand
    · exact absurd ho hempty
    · exact eq_python_of_mem (d.mem_wordOperators ho hstand.looks hstand.no_sign)
  · intro hcomplete hplaced w hw ho
    have hbinary : ∀ w ∈ d.spec.grammar.wordOperators, ∃ tier ∈ d.spec.grammar.tiers,
        w ∈ tier.operators := fun w hw => List.mem_flatMap.mp (List.mem_filter.mp hw).1
    have hstand := (Reader.ofDialect d frames).mayStand_of_read text hg hbinary hplaced
      (.inr hcomplete) first w hw
    rcases hstand with rfl | hstand
    · exact hempty ho
    · exact hstand.not_watched (d.mem_wordOperators ho hstand.looks hstand.no_sign)

/-- In `a or not f(b and 1)` the words stand where operators stand. -/
theorem operators_operandsRead_python :
    (∀ p ∈ ((Reader.ofDialect .python 1000).read "a or not f(b and 1)".toList).problems,
      p.code ≠ "P101") ∧
    python.spec.grammar.Placed python.spec.grammar.wordOperators
      ("(" :: python.spec.profile.tokenize "a or not f(b and 1)".toList) ∧
    python.operandsRead 1000 "a or not f(b and 1)".toList 1 = ["a", "f", "b", "1"] ∧
    ∀ w ∈ python.operandsRead 1000 "a or not f(b and 1)".toList 1,
      w ∉ python.spec.grammar.operators := by
  have hproblems : ∀ p ∈
      ((Reader.ofDialect .python 1000).read "a or not f(b and 1)".toList).problems,
      p.code ≠ "P101" := by decide +kernel
  have hplaced : python.spec.grammar.Placed python.spec.grammar.wordOperators
      ("(" :: python.spec.profile.tokenize "a or not f(b and 1)".toList) := by decide +kernel
  exact ⟨hproblems, hplaced, by decide +kernel,
    (operators_operandsRead .python 1000 _ 1).2 hproblems hplaced⟩

/-- An operator may be taken for an operand: in `a or and` the second word stands for the operand
that is missing. -/
theorem not_operandsRead_python :
    ¬ ∀ (d : Dialect) (frames : Nat) (text : Text) (first : Int),
      ∀ w ∈ d.operandsRead frames text first, w ∉ d.spec.grammar.operators := by
  intro h
  have hread : python.operandsRead 1000 "a or and".toList 1 = ["a", "and"] := by decide +kernel
  refine h .python 1000 "a or and".toList 1 "and" ?_ (by decide +kernel)
  rw [hread]
  exact List.mem_cons_of_mem _ (List.mem_cons_self ..)

end Dialect

end SnippetTree
