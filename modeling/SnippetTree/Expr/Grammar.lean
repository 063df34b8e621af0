import SnippetTree.Lexeme

/-!
# Grammars of expressions

A grammar is a table of binding tiers, loosest first, with the prefix operators and the keywords
of a dialect. Every dialect has the same shape of grammar: tiers of binary operators, then prefix
operators, then groups, values, names and calls. Only the table differs.
-/

namespace SnippetTree

/-- Binary operators that bind equally tightly. -/
structure Tier where
  name : String
  operators : List Lexeme
  rightAssociative : Bool
  deriving DecidableEq, Repr

namespace Tier

/-- A tier whose operators group to the left. -/
def left (name : String) (operators : List Lexeme) : Tier :=
  ⟨name, operators, false⟩

/-- A tier whose operators group to the right. -/
def right (name : String) (operators : List Lexeme) : Tier :=
  ⟨name, operators, true⟩

def logicalOr : Tier := left "logical-or" ["||"]
def logicalAnd : Tier := left "logical-and" ["&&"]
def equality : Tier := left "equality" ["==", "!="]
def relational : Tier := left "relational" ["<", ">", "<=", ">="]
def additive : Tier := left "additive" ["+", "-"]
def multiplicative : Tier := left "multiplicative" ["*", "/", "%"]
def power : Tier := right "power" ["^"]

/-- The tiers of dialects that are read line by line. -/
def ofLines : List Tier :=
  [logicalOr, logicalAnd, equality, relational, additive, multiplicative]

/-- The tiers of flat arithmetic. -/
def ofArithmetic : List Tier := [additive, multiplicative, power]

end Tier

/-- What an expression parser goes by. -/
structure Grammar where
  /-- The tiers of binary operators, loosest first. -/
  tiers : List Tier
  /-- The prefix operators. -/
  signs : List Lexeme
  /-- The words that are shown as keywords. -/
  keywords : List Lexeme

namespace Grammar

/-- The prefix operators of most dialects. -/
def commonSigns : List Lexeme := ["-", "!", "++", "--"]

/-- Call frames that are left to the callers of the parser. -/
def reservedFrames : Nat := 250

/-- Call frames that a nesting takes beyond one for every tier. -/
def framesPerNesting : Nat := 6

/-- How many nestings a parse over that many tiers follows if it may use that many call frames.
One nesting is always followed. -/
def nestingLimit (frames tiers : Nat) : Nat :=
  max 1 ((frames - reservedFrames) / (tiers + framesPerNesting))

/-- The call frames that a parse may use unless another budget is given. -/
def standardFrames : Nat := 1000

end Grammar

end SnippetTree
