import SnippetTree.Warning
import SnippetTree.Expr.Basic
import SnippetTree.Expr.Grammar

/-!
# Parsing expressions

The parser climbs through the tiers of a grammar, loosest first; after the last one come prefix
operators and operands. It never fails: what is missing is noted as a problem and the best partial
expression is given back. Three things make it end, and the definitions follow them.

* A *nesting* is entered in a group, an argument, the operand of a prefix operator and the right
  operand of a right-associative operator. Only so many are followed. `nestedAt` is a recursion on
  how many are left; when none is, the nested part is skipped up to the parenthesis that ends it.
* Within one nesting `climb` goes from tier to tier, a recursion on the tiers.
* The operators of one tier and the arguments of one call are read in loops that consume lexemes.

Every function below is therefore written for an unknown parser of nested parts, and `nestedAt`
ties the knot. That a step never gives back more lexemes than it was given is part of the type of
a step, and all loops rest on it.
-/

namespace SnippetTree

/-- Where a parse stands. -/
structure Cursor where
  /-- The lexemes that are still to be read. -/
  rest : List Lexeme
  /-- The number of nestings that are open. -/
  depth : Nat
  /-- The largest number of nestings that were open at a time. -/
  deepest : Nat
  deriving DecidableEq, Repr

namespace Cursor

/-- The parse stands before the given lexemes. -/
def start (lexemes : List Lexeme) : Cursor :=
  ⟨lexemes, 0, 0⟩

/-- Opens a nesting. -/
def enter (c : Cursor) : Cursor :=
  { c with depth := c.depth + 1, deepest := max c.deepest (c.depth + 1) }

/-- Closes a nesting. -/
def leave (c : Cursor) : Cursor :=
  { c with depth := c.depth - 1 }

end Cursor

/-- What a step of the parser gives from a cursor on. -/
structure Step (α : Type) (before : Cursor) where
  value : α
  cursor : Cursor
  problems : List Problem
  suffix : cursor.rest <:+ before.rest

namespace Step

variable {α β : Type} {c : Cursor}

/-- Reads nothing. -/
def stay (value : α) (c : Cursor) : Step α c :=
  ⟨value, c, [], List.suffix_refl _⟩

/-- Goes on from where a step ended. -/
def andThen (s : Step α c) (next : α → (c' : Cursor) → Step β c') : Step β c :=
  let t := next s.value s.cursor
  ⟨t.value, t.cursor, s.problems ++ t.problems, t.suffix.trans s.suffix⟩

/-- Replaces the value and notes more problems. -/
def mapNoting (s : Step α c) (f : α → β × List Problem) : Step β c :=
  let (value, problems) := f s.value
  ⟨value, s.cursor, s.problems ++ problems, s.suffix⟩

/-- Reads one lexeme before the step. -/
def afterOne {lexeme : Lexeme} {rest : List Lexeme} {depth deepest : Nat}
    (s : Step α ⟨rest, depth, deepest⟩) : Step α ⟨lexeme :: rest, depth, deepest⟩ :=
  ⟨s.value, s.cursor, s.problems, s.suffix.trans (List.suffix_cons _ _)⟩

end Step

/-- A parser of one expression, if one begins at the cursor. -/
abbrev ExprParser := (c : Cursor) → Step (Option Expr) c

namespace Grammar

/-! ## Operators -/

/-- Joins an operator with the operands that were obtained. -/
def join (operator : Lexeme) : Option Expr → Option Expr → Option Expr × List Problem
  | some l, some r => (some (.binary operator l r), [])
  | some l, none => (some (.leftOnly operator l), [.missingOperand operator])
  | none, some r => (some (.rightOnly operator r), [.missingOperand operator])
  | none, none => (none, [.missingOperand operator])

/-- Applies a prefix operator; a missing operand is replaced by an empty place. -/
def applySign (operator : Lexeme) : Option Expr → Option Expr × List Problem
  | some e => (some (.unary operator e), [])
  | none => (some (.unary operator .placeholder), [.missingOperand operator])

/-- Reads the operators of one tier that groups to the left, with their right operands. An operator
without any operand ends the tier. -/
def foldLeft (operators : List Lexeme) (operand : ExprParser) (left : Option Expr) :
    (c : Cursor) → Step (Option Expr) c
  | ⟨operator :: rest, depth, deepest⟩ =>
    if operators.contains operator then
      let joined := ((operand ⟨rest, depth, deepest⟩).mapNoting (join operator left)).afterOne
      match joined.value with
      | none => joined
      | some e =>
        let more := foldLeft operators operand (some e) joined.cursor
        ⟨more.value, more.cursor, joined.problems ++ more.problems,
          more.suffix.trans joined.suffix⟩
    else .stay left ⟨operator :: rest, depth, deepest⟩
  | c => .stay left c
termination_by c => c.rest.length
decreasing_by
  exact Nat.lt_succ_of_le (operand ⟨rest, depth, deepest⟩).suffix.length_le

/-- Reads at most one operator of a tier that groups to the right, with its right operand. -/
def foldRight (operators : List Lexeme) (operand : ExprParser) (left : Option Expr) : ExprParser
  | ⟨operator :: rest, depth, deepest⟩ =>
    if operators.contains operator then
      ((operand ⟨rest, depth, deepest⟩).mapNoting (join operator left)).afterOne
    else .stay left ⟨operator :: rest, depth, deepest⟩
  | c => .stay left c

/-! ## Operands -/

/-- Ends a group: reads the closing parenthesis, or notes that there is none. What else stands
there is left to be read. -/
def closeGroup (inner : Option Expr) : ExprParser
  | ⟨[], depth, deepest⟩ => ⟨inner, ⟨[], depth, deepest⟩, [.unclosedGroup "("], List.suffix_refl _⟩
  | ⟨lexeme :: rest, depth, deepest⟩ =>
    if lexeme = ")" then (Step.stay inner ⟨rest, depth, deepest⟩).afterOne
    else .stay inner ⟨lexeme :: rest, depth, deepest⟩

/-- Reads the comma after an argument. Where neither an argument nor a comma stands, one lexeme is
passed over, so that the loop over the arguments goes on. -/
def passComma (before : Cursor) : (c : Cursor) → Step Unit c
  | ⟨[], depth, deepest⟩ => .stay () ⟨[], depth, deepest⟩
  | ⟨lexeme :: rest, depth, deepest⟩ =>
    if lexeme = "," || before.rest.length = rest.length + 1 then
      (Step.stay () ⟨rest, depth, deepest⟩).afterOne
    else .stay () ⟨lexeme :: rest, depth, deepest⟩

theorem passComma_lt {before c : Cursor} (hc : c.rest <:+ before.rest) (hne : before.rest ≠ []) :
    (passComma before c).cursor.rest.length < before.rest.length := by
  have hle := hc.length_le
  have hpos : 0 < before.rest.length := List.length_pos_iff.mpr hne
  unfold passComma
  split
  · simpa [Step.stay] using hpos
  · simp only [List.length_cons] at hle
    split
    · simp only [Step.afterOne, Step.stay]
      omega
    · rename_i hno
      simp only [Bool.or_eq_true, decide_eq_true_eq, not_or] at hno
      simp only [Step.stay, List.length_cons]
      omega

/-- Reads the arguments of a call up to the parenthesis that closes it. -/
def arguments (operand : ExprParser) : (c : Cursor) → Step (List Expr) c
  | ⟨[], depth, deepest⟩ => ⟨[], ⟨[], depth, deepest⟩, [.unclosedGroup "("], List.suffix_refl _⟩
  | ⟨lexeme :: rest, depth, deepest⟩ =>
    if lexeme = ")" then (Step.stay [] ⟨rest, depth, deepest⟩).afterOne
    else
      let argument := operand ⟨lexeme :: rest, depth, deepest⟩
      let passed := passComma ⟨lexeme :: rest, depth, deepest⟩ argument.cursor
      let more := arguments operand passed.cursor
      ⟨argument.value.toList ++ more.value, more.cursor, argument.problems ++ more.problems,
        more.suffix.trans (passed.suffix.trans argument.suffix)⟩
termination_by c => c.rest.length
decreasing_by
  exact passComma_lt (operand ⟨lexeme :: rest, depth, deepest⟩).suffix (by simp)

/-- Reads a call after its callee and the opening parenthesis. -/
def call (operand : ExprParser) (callee : Lexeme) (c : Cursor) : Step (Option Expr) c :=
  (arguments operand c).mapNoting fun es => (some (.call callee es), [])

/-- Reads a group, a value, a name or a call. Any other lexeme is left to be read. -/
def primary (g : Grammar) (nested : List Tier → ExprParser) : ExprParser
  | ⟨lexeme :: rest, depth, deepest⟩ =>
    if lexeme = "(" then
      ((nested g.tiers ⟨rest, depth, deepest⟩).andThen closeGroup).afterOne
    else if lexeme.isConstant then
      (Step.stay (some (.constant lexeme)) ⟨rest, depth, deepest⟩).afterOne
    else if lexeme.isIdentifier then
      match rest with
      | "(" :: inside => (call (nested g.tiers) lexeme ⟨inside, depth, deepest⟩).afterOne.afterOne
      | rest =>
        let leaf := if lexeme.isKeyword g.keywords then .keyword lexeme else .identifier lexeme
        (Step.stay (some leaf) ⟨rest, depth, deepest⟩).afterOne
    else .stay none ⟨lexeme :: rest, depth, deepest⟩
  | c => .stay none c

/-- Reads prefix operators and the operand that they apply to. The operand is a nested part of the
grammar without any tiers. -/
def unary (g : Grammar) (nested : List Tier → ExprParser) : ExprParser
  | ⟨lexeme :: rest, depth, deepest⟩ =>
    if g.signs.contains lexeme then
      ((nested [] ⟨rest, depth, deepest⟩).mapNoting (applySign lexeme)).afterOne
    else g.primary nested ⟨lexeme :: rest, depth, deepest⟩
  | c => g.primary nested c

/-! ## Tiers and nestings -/

/-- Reads an expression of the given tiers. -/
def climb (g : Grammar) (nested : List Tier → ExprParser) : List Tier → ExprParser
  | [] => g.unary nested
  | tier :: tighter => fun c =>
    (g.climb nested tighter c).andThen
      (if tier.rightAssociative then foldRight tier.operators (nested (tier :: tighter))
       else foldLeft tier.operators (g.climb nested tighter))

/-- The lexemes from the parenthesis on that closes the enclosing group, when that many groups
have been opened on the way. -/
def dropNested : (opened : Nat) → List Lexeme → List Lexeme
  | _, [] => []
  | opened, lexeme :: rest =>
    if lexeme = ")" then
      match opened with
      | 0 => lexeme :: rest
      | opened + 1 => dropNested opened rest
    else if lexeme = "(" then dropNested (opened + 1) rest
    else dropNested opened rest

theorem dropNested_suffix (opened : Nat) (lexemes : List Lexeme) :
    dropNested opened lexemes <:+ lexemes := by
  induction lexemes generalizing opened with
  | nil => exact List.suffix_refl _
  | cons lexeme rest ih =>
    have step : ∀ n, dropNested n rest <:+ lexeme :: rest := fun n =>
      (ih n).trans (List.suffix_cons _ _)
    unfold dropNested
    split
    · split
      · exact List.suffix_refl _
      · exact step _
    · split <;> exact step _

/-- Passes over a part that nests too deeply and puts an empty place where it stood. Where nothing
is left there is nothing to pass over. -/
def skip (limit : Nat) : ExprParser
  | ⟨[], depth, deepest⟩ => .stay none ⟨[], depth, deepest⟩
  | ⟨lexeme :: rest, depth, deepest⟩ =>
    ⟨some .placeholder, ⟨dropNested 0 (lexeme :: rest), depth, deepest⟩, [.nestedTooDeep limit],
      dropNested_suffix _ _⟩

/-- Reads a part inside a nesting, when that many nestings may still be entered. -/
def nestedAt (g : Grammar) (limit : Nat) : (room : Nat) → List Tier → ExprParser
  | 0, _ => skip limit
  | room + 1, tiers => fun c =>
    let inner := g.climb (g.nestedAt limit room) tiers c.enter
    ⟨inner.value, inner.cursor.leave, inner.problems, inner.suffix⟩

end Grammar

/-- The outcome of a parse. -/
structure Parse where
  /-- The expression, if one could be started. -/
  expr : Option Expr
  cursor : Cursor
  problems : List Problem
  deriving Repr

/-- How many of the lexemes were read. -/
def Parse.consumed (p : Parse) (lexemes : List Lexeme) : Nat :=
  lexemes.length - p.cursor.rest.length

namespace Grammar

/-- Parses lexemes as one expression, with at most `limit` nestings open at a time. Lexemes that
are left over are noted; where there is no lexeme at all an empty place is given. -/
def parse (g : Grammar) (limit : Nat) (lexemes : List Lexeme) : Parse :=
  if lexemes.isEmpty then ⟨some .placeholder, .start [], [.emptyExpression]⟩
  else
    let whole := g.climb (g.nestedAt limit limit) g.tiers (.start lexemes)
    let rest := whole.cursor.rest
    ⟨whole.value, whole.cursor,
      whole.problems ++ if rest.isEmpty then [] else [.trailingLexemes rest]⟩

end Grammar

end SnippetTree
