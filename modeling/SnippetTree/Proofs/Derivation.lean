import SnippetTree.Proofs.ParserSteps

/-!
# What the grammar of a table says

The parser climbs through the tiers of a table; a grammar derives. This file is the grammar, written
down without the parser: which lexemes are an expression, and of which tree. It is the second side
of the two statements about parsing. `ParseComplete.lean` says that whatever is derived here is
parsed, `ParseSound.lean` that whatever is parsed in silence is derived here.

A rule is recursive on the left exactly where a tier groups to the left, as grammars are written
down and as no descent could follow them. Parentheses leave no trace in the tree, so the nestings
are counted by the derivation: `Derives n` allows at most `n` of them on any path.
-/

namespace SnippetTree

namespace Grammar

/-- The lexemes that groups and calls are made of. -/
def punctuation : List Lexeme := ["(", ")", ","]

theorem opener_mem : "(" ∈ punctuation := List.mem_cons_self ..

theorem closer_mem : ")" ∈ punctuation := List.mem_cons_of_mem _ (List.mem_cons_self ..)

theorem comma_mem : "," ∈ punctuation :=
  List.mem_cons_of_mem _ (List.mem_cons_of_mem _ (List.mem_cons_self ..))

/-- A number, a quoted literal or a literal word that is no prefix operator. -/
structure ConstantToken (g : Grammar) (lexeme : Lexeme) : Prop where
  constant : lexeme.isConstant = true
  no_sign : lexeme ∉ g.signs

/-- Any other lexeme that has the form of a name and is no prefix operator. -/
structure NameToken (g : Grammar) (lexeme : Lexeme) : Prop where
  identifier : lexeme.isIdentifier = true
  no_constant : lexeme.isConstant = false
  no_sign : lexeme ∉ g.signs

/--
`g.Derives n tiers lexemes e`: the lexemes are an expression over `tiers` whose tree is `e`, and no
path of the derivation holds more than `n` groups, arguments, operands of prefix operators and right
operands of operators that group to the right.

The tiers that are left out of `g.tiers` bind more loosely; with no tier left an expression is a
prefix operator with its operand, or a primary.
-/
inductive Derives (g : Grammar) : Nat → List Tier → List Lexeme → Expr → Prop where
  | tighter {n : Nat} {tier : Tier} {tiers : List Tier} {lexemes : List Lexeme} {e : Expr} :
      Derives g n tiers lexemes e → Derives g n (tier :: tiers) lexemes e
  | left {n : Nat} {tier : Tier} {tiers : List Tier} {operator : Lexeme}
      {before after : List Lexeme} {l r : Expr} :
      tier.rightAssociative = false → operator ∈ tier.operators →
      Derives g n (tier :: tiers) before l → Derives g n tiers after r →
      Derives g n (tier :: tiers) (before ++ operator :: after) (.binary operator l r)
  | right {n : Nat} {tier : Tier} {tiers : List Tier} {operator : Lexeme}
      {before after : List Lexeme} {l r : Expr} :
      tier.rightAssociative = true → operator ∈ tier.operators →
      Derives g (n + 1) tiers before l → Derives g n (tier :: tiers) after r →
      Derives g (n + 1) (tier :: tiers) (before ++ operator :: after) (.binary operator l r)
  | sign {n : Nat} {operator : Lexeme} {lexemes : List Lexeme} {e : Expr} :
      operator ∈ g.signs → Derives g n [] lexemes e →
      Derives g (n + 1) [] (operator :: lexemes) (.unary operator e)
  | group {n : Nat} {lexemes : List Lexeme} {e : Expr} :
      Derives g n g.tiers lexemes e → Derives g (n + 1) [] ("(" :: (lexemes ++ [")"])) e
  | constant {n : Nat} {lexeme : Lexeme} :
      g.ConstantToken lexeme → Derives g n [] [lexeme] (.constant lexeme)
  | name {n : Nat} {lexeme : Lexeme} :
      g.NameToken lexeme → Derives g n [] [lexeme] (g.nameLeaf lexeme)
  | emptyCall {n : Nat} {callee : Lexeme} :
      g.NameToken callee → Derives g n [] [callee, "(", ")"] (.call callee [])
  | call {n : Nat} {callee : Lexeme} {arguments : List (List Lexeme × Expr)} :
      g.NameToken callee → arguments ≠ [] →
      (∀ argument ∈ arguments, Derives g n g.tiers argument.1 argument.2) →
      Derives g (n + 1) [] (callee :: "(" :: ([","].intercalate (arguments.map (·.1)) ++ [")"]))
        (.call callee (arguments.map (·.2)))

/-! ## Tables that can be read back -/

/-- No operator stands in two of the tiers, and none is a parenthesis or a comma. -/
structure Clear (tiers : List Tier) : Prop where
  /-- Two tiers have no operator in common. -/
  disjoint : tiers.Pairwise fun s t => ∀ operator ∈ s.operators, operator ∉ t.operators
  /-- Parentheses and commas are no operators. -/
  no_mark : ∀ tier ∈ tiers, ∀ mark ∈ punctuation, mark ∉ tier.operators

/-- A table in which each lexeme has one part to play where an operator or an operand is due. -/
structure Readable (g : Grammar) : Prop where
  /-- The binary operators are told apart by their tiers. -/
  clear : Clear g.tiers
  /-- Parentheses and commas are no prefix operators. -/
  no_mark_sign : ∀ mark ∈ punctuation, mark ∉ g.signs

/-- Nothing after an expression over these tiers makes it longer: the next lexeme, if there is one,
opens no call and is an operator of none of the tiers. -/
def Stops (tiers : List Tier) (rest : List Lexeme) : Prop :=
  ∀ next ∈ rest.head?, next ≠ "(" ∧ ∀ tier ∈ tiers, next ∉ tier.operators

theorem Clear.tail {tier : Tier} {tiers : List Tier} (h : Clear (tier :: tiers)) : Clear tiers :=
  ⟨(List.pairwise_cons.mp h.disjoint).2, fun t ht => h.no_mark t (List.mem_cons_of_mem _ ht)⟩

theorem stops_nil (tiers : List Tier) : Stops tiers [] := by
  intro next hnext
  simp at hnext

theorem Stops.tail {tier : Tier} {tiers : List Tier} {rest : List Lexeme}
    (h : Stops (tier :: tiers) rest) : Stops tiers rest :=
  fun next hnext => ⟨(h next hnext).1, fun t ht => (h next hnext).2 t (List.mem_cons_of_mem _ ht)⟩

/-- An operator of a tier ends an expression over the tighter ones. -/
theorem Clear.stops_operator {tier : Tier} {tiers : List Tier} (h : Clear (tier :: tiers))
    {operator : Lexeme} (ho : operator ∈ tier.operators) (rest : List Lexeme) :
    Stops tiers (operator :: rest) := by
  intro next hnext
  have heq : operator = next := by simpa using hnext
  subst heq
  refine ⟨?_, fun t ht => (List.pairwise_cons.mp h.disjoint).1 t ht _ ho⟩
  intro hparen
  exact h.no_mark tier (by simp) "(" opener_mem (hparen ▸ ho)

/-- A closing parenthesis or a comma ends every expression. -/
theorem Clear.stops_mark {tiers : List Tier} (h : Clear tiers) {mark : Lexeme}
    (hm : mark ∈ punctuation) (hne : mark ≠ "(") (rest : List Lexeme) :
    Stops tiers (mark :: rest) := by
  intro next hnext
  have heq : mark = next := by simpa using hnext
  subst heq
  exact ⟨hne, fun t ht => h.no_mark t ht _ hm⟩

/-! ## How derived lexemes begin -/

theorem isConstant_ne_mark {lexeme mark : Lexeme} (h : lexeme.isConstant = true)
    (hm : mark ∈ punctuation) : lexeme ≠ mark := by
  have hmarks : ∀ mark ∈ punctuation, mark.isConstant = false := by decide
  intro he
  rw [he, hmarks mark hm] at h
  exact Bool.noConfusion h

theorem isIdentifier_ne_mark {lexeme mark : Lexeme} (h : lexeme.isIdentifier = true)
    (hm : mark ∈ punctuation) : lexeme ≠ mark := by
  have hmarks : ∀ mark ∈ punctuation, mark.isIdentifier = false := by decide
  intro he
  rw [he, hmarks mark hm] at h
  exact Bool.noConfusion h

/-- Derived lexemes begin with one that is no closing parenthesis. -/
theorem Derives.head {g : Grammar} (hg : g.Readable) {n : Nat} {tiers : List Tier}
    {lexemes : List Lexeme} {e : Expr} (h : g.Derives n tiers lexemes e) :
    ∃ first rest, lexemes = first :: rest ∧ first ≠ ")" := by
  -- an operator in the middle leaves the beginning to its left operand
  induction h with
  | tighter _ ih => exact ih
  | left _ _ _ _ ih _ =>
      obtain ⟨first, rest, rfl, hfirst⟩ := ih
      exact ⟨first, _, rfl, hfirst⟩
  | right _ _ _ _ ih _ =>
      obtain ⟨first, rest, rfl, hfirst⟩ := ih
      exact ⟨first, _, rfl, hfirst⟩
  | sign ho _ _ =>
      refine ⟨_, _, rfl, ?_⟩
      intro he
      exact hg.no_mark_sign ")" closer_mem (he ▸ ho)
  | group _ _ => exact ⟨"(", _, rfl, by decide⟩
  | constant hc => exact ⟨_, _, rfl, isConstant_ne_mark hc.constant closer_mem⟩
  | name hn => exact ⟨_, _, rfl, isIdentifier_ne_mark hn.identifier closer_mem⟩
  | emptyCall hn => exact ⟨_, _, rfl, isIdentifier_ne_mark hn.identifier closer_mem⟩
  | call hn _ _ _ => exact ⟨_, _, rfl, isIdentifier_ne_mark hn.identifier closer_mem⟩

end Grammar

end SnippetTree
