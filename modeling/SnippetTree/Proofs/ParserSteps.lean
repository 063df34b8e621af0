import SnippetTree.Expr.Parse

/-!
# What each function of the parser does

One equation for each thing that a function of the parser can do, in terms of the four ways of
making a step: `stay`, `andThen`, `mapNoting` and `afterOne`. The two loops are written out with
their proofs of termination in `Parse.lean`; here they read as what they are, a step and the rest of
the loop after it. Everything that is proved about the parser goes through these equations, and the
functions themselves stay closed.
-/

namespace SnippetTree

variable {α β : Type}

/-- Steps from one cursor are equal if they give the same value, cursor and problems. -/
@[ext]
theorem Step.ext {c : Cursor} {s t : Step α c} (hvalue : s.value = t.value)
    (hcursor : s.cursor = t.cursor) (hproblems : s.problems = t.problems) : s = t := by
  cases s
  cases t
  dsimp only at hvalue hcursor hproblems
  subst hvalue hcursor hproblems
  rfl

namespace Grammar

/-- What is left to be read begins with none of the operators. -/
def Off (rest operators : List Lexeme) : Prop :=
  ∀ next ∈ rest.head?, next ∉ operators

variable {g : Grammar} {operand : ExprParser} {nested : List Tier → ExprParser}
  {operators : List Lexeme} {left : Option Expr} {lexeme operator : Lexeme}
  {rest : List Lexeme} {depth deepest : Nat}

theorem off_cons (h : lexeme ∉ operators) (rest : List Lexeme) :
    Off (lexeme :: rest) operators := by
  intro next hnext
  have heq : lexeme = next := by simpa using hnext
  exact heq ▸ h

theorem Off.not_mem (h : Off (lexeme :: rest) operators) : lexeme ∉ operators :=
  h lexeme rfl

/-- Either an operator is next, or none is. -/
theorem off_or_cons (operators rest : List Lexeme) :
    Off rest operators ∨ ∃ operator rest', rest = operator :: rest' ∧ operator ∈ operators := by
  cases rest with
  | nil => exact .inl fun next hnext => by simp at hnext
  | cons next rest =>
      by_cases h : next ∈ operators
      · exact .inr ⟨next, rest, rfl, h⟩
      · exact .inl (off_cons h rest)

/-! ## Operators -/

theorem foldLeft_off {c : Cursor} (h : Off c.rest operators) :
    foldLeft operators operand left c = .stay left c := by
  obtain ⟨rest, depth, deepest⟩ := c
  cases rest with
  | nil => rw [foldLeft.eq_def]
  | cons next rest =>
      have hnext : next ∉ operators := h next (by simp)
      rw [foldLeft.eq_def]
      simp [hnext]

/-- How the loop goes on after an operator and its right operand. -/
def goOn (operators : List Lexeme) (operand : ExprParser) : Option Expr → ExprParser
  | none => Step.stay none
  | some e => foldLeft operators operand (some e)

theorem foldLeft_cons (h : operator ∈ operators) :
    foldLeft operators operand left ⟨operator :: rest, depth, deepest⟩ =
      ((operand ⟨rest, depth, deepest⟩).mapNoting (join operator left)).afterOne.andThen
        (goOn operators operand) := by
  rw [foldLeft.eq_def]
  simp only [List.contains_iff_mem, h, if_true]
  split
  · rename_i hnone
    ext1
    · simp [Step.andThen, goOn, hnone, Step.stay]
    · simp [Step.andThen, goOn, hnone, Step.stay]
    · simp [Step.andThen, goOn, hnone, Step.stay]
  · rename_i e hsome
    ext1
    · simp [Step.andThen, goOn, hsome]
    · simp [Step.andThen, goOn, hsome]
    · simp [Step.andThen, goOn, hsome]

theorem foldRight_off {c : Cursor} (h : Off c.rest operators) :
    foldRight operators operand left c = .stay left c := by
  obtain ⟨rest, depth, deepest⟩ := c
  cases rest with
  | nil => rfl
  | cons next rest =>
      have hnext : next ∉ operators := h next (by simp)
      simp [foldRight, hnext]

theorem foldRight_cons (h : operator ∈ operators) :
    foldRight operators operand left ⟨operator :: rest, depth, deepest⟩ =
      ((operand ⟨rest, depth, deepest⟩).mapNoting (join operator left)).afterOne := by
  simp [foldRight, h]

/-! ## Operands -/

theorem closeGroup_nil (inner : Option Expr) : closeGroup inner ⟨[], depth, deepest⟩ =
    ⟨inner, ⟨[], depth, deepest⟩, [.unclosedGroup "("], List.suffix_refl _⟩ := rfl

theorem closeGroup_closer (inner : Option Expr) :
    closeGroup inner ⟨")" :: rest, depth, deepest⟩ =
      (Step.stay inner ⟨rest, depth, deepest⟩).afterOne := rfl

theorem closeGroup_other (inner : Option Expr) (h : lexeme ≠ ")") :
    closeGroup inner ⟨lexeme :: rest, depth, deepest⟩ =
      .stay inner ⟨lexeme :: rest, depth, deepest⟩ := by
  simp [closeGroup, h]

theorem passComma_comma (before : Cursor) : passComma before ⟨"," :: rest, depth, deepest⟩ =
    (Step.stay () ⟨rest, depth, deepest⟩).afterOne := rfl

theorem passComma_other {before : Cursor} (h : lexeme ≠ ",")
    (hlength : before.rest.length ≠ rest.length + 1) :
    passComma before ⟨lexeme :: rest, depth, deepest⟩ =
      .stay () ⟨lexeme :: rest, depth, deepest⟩ := by
  simp [passComma, h, hlength]

theorem arguments_nil : arguments operand ⟨[], depth, deepest⟩ =
    ⟨[], ⟨[], depth, deepest⟩, [.unclosedGroup "("], List.suffix_refl _⟩ := by
  rw [arguments.eq_def]

theorem arguments_closer : arguments operand ⟨")" :: rest, depth, deepest⟩ =
    (Step.stay [] ⟨rest, depth, deepest⟩).afterOne := by
  rw [arguments.eq_def]
  simp

theorem passComma_problems (before c : Cursor) : (passComma before c).problems = [] := by
  unfold passComma
  split
  · rfl
  · split <;> rfl

theorem arguments_cons (h : lexeme ≠ ")") :
    arguments operand ⟨lexeme :: rest, depth, deepest⟩ =
      (operand ⟨lexeme :: rest, depth, deepest⟩).andThen fun argument c =>
        (passComma ⟨lexeme :: rest, depth, deepest⟩ c).andThen fun _ c =>
          (arguments operand c).mapNoting fun more => (argument.toList ++ more, []) := by
  rw [arguments.eq_def]
  simp only [h, if_false]
  ext1
  · rfl
  · rfl
  · simp [Step.andThen, Step.mapNoting, passComma_problems]

/-! ## Primaries and prefix operators -/

theorem primary_nil : g.primary nested ⟨[], depth, deepest⟩ = .stay none ⟨[], depth, deepest⟩ := rfl

theorem primary_group : g.primary nested ⟨"(" :: rest, depth, deepest⟩ =
    ((nested g.tiers ⟨rest, depth, deepest⟩).andThen closeGroup).afterOne := rfl

theorem primary_constant (hparen : lexeme ≠ "(") (h : lexeme.isConstant = true) :
    g.primary nested ⟨lexeme :: rest, depth, deepest⟩ =
      (Step.stay (some (.constant lexeme)) ⟨rest, depth, deepest⟩).afterOne := by
  rw [primary.eq_def]
  simp [hparen, h]

/-- How a name by itself is shown. -/
def nameLeaf (g : Grammar) (name : Lexeme) : Expr :=
  if name.isKeyword g.keywords then .keyword name else .identifier name

theorem primary_name (hparen : lexeme ≠ "(") (hconst : lexeme.isConstant = false)
    (h : lexeme.isIdentifier = true) (hrest : rest.head? ≠ some "(") :
    g.primary nested ⟨lexeme :: rest, depth, deepest⟩ =
      (Step.stay (some (g.nameLeaf lexeme)) ⟨rest, depth, deepest⟩).afterOne := by
  rw [primary.eq_def]
  cases rest with
  | nil => simp [hparen, hconst, h, nameLeaf]
  | cons next rest =>
      have hnext : next ≠ "(" := by simpa using hrest
      simp [hparen, hconst, h, nameLeaf, hnext]

theorem primary_call (hparen : lexeme ≠ "(") (hconst : lexeme.isConstant = false)
    (h : lexeme.isIdentifier = true) :
    g.primary nested ⟨lexeme :: "(" :: rest, depth, deepest⟩ =
      (call (nested g.tiers) lexeme ⟨rest, depth, deepest⟩).afterOne.afterOne := by
  rw [primary.eq_def]
  simp [hparen, hconst, h]

theorem primary_other (hparen : lexeme ≠ "(") (hconst : lexeme.isConstant = false)
    (h : lexeme.isIdentifier = false) :
    g.primary nested ⟨lexeme :: rest, depth, deepest⟩ =
      .stay none ⟨lexeme :: rest, depth, deepest⟩ := by
  rw [primary.eq_def]
  simp [hparen, hconst, h]

theorem unary_sign (h : operator ∈ g.signs) :
    g.unary nested ⟨operator :: rest, depth, deepest⟩ =
      ((nested [] ⟨rest, depth, deepest⟩).mapNoting (applySign operator)).afterOne := by
  simp [unary, h]

theorem unary_off {c : Cursor} (h : Off c.rest g.signs) : g.unary nested c = g.primary nested c := by
  obtain ⟨rest, depth, deepest⟩ := c
  cases rest with
  | nil => rfl
  | cons next rest =>
      have hnext : next ∉ g.signs := h next (by simp)
      simp [unary, hnext]

/-! ## Tiers -/

theorem climb_left {tier : Tier} {tiers : List Tier} (h : tier.rightAssociative = false)
    (c : Cursor) : g.climb nested (tier :: tiers) c =
      (g.climb nested tiers c).andThen (foldLeft tier.operators (g.climb nested tiers)) := by
  rw [climb, h]
  rfl

theorem climb_right {tier : Tier} {tiers : List Tier} (h : tier.rightAssociative = true)
    (c : Cursor) : g.climb nested (tier :: tiers) c =
      (g.climb nested tiers c).andThen (foldRight tier.operators (nested (tier :: tiers))) := by
  rw [climb, h]
  rfl

/-! ## Whole parses -/

theorem parse_nil {limit : Nat} :
    g.parse limit [] = ⟨some .placeholder, .start [], [.emptyExpression]⟩ := rfl

theorem parse_of_ne_nil {limit : Nat} {lexemes : List Lexeme} (h : lexemes ≠ []) :
    g.parse limit lexemes =
      let whole := g.climb (g.nestedAt limit limit) g.tiers (.start lexemes)
      let rest := whole.cursor.rest
      ⟨whole.value, whole.cursor,
        whole.problems ++ if rest.isEmpty then [] else [.trailingLexemes rest]⟩ := by
  rw [parse, if_neg (by simpa using h)]

end Grammar

end SnippetTree
