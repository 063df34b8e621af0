import SnippetTree.Tree.Numbering

/-!
# Expressions

The expressions that a parse gives, damaged ones included: an operator that lacks one operand
keeps the other, on the side on which it was read, and an operand that is missing or was skipped
is an empty place. An expression becomes a tree by numbering its nodes, operands before the
operator they belong to.
-/

namespace SnippetTree

/-- An expression, as far as it could be read. -/
inductive Expr where
  /-- A name that is no keyword. -/
  | identifier (name : Lexeme)
  /-- A name that is a keyword of the dialect. -/
  | keyword (word : Lexeme)
  /-- A number, a quoted literal or a word that stands for a value. -/
  | constant (text : Lexeme)
  /-- The place of an operand that is missing or was skipped. -/
  | placeholder
  | unary (operator : Lexeme) (operand : Expr)
  | binary (operator : Lexeme) (left right : Expr)
  /-- A binary operator whose right operand is missing. -/
  | leftOnly (operator : Lexeme) (left : Expr)
  /-- A binary operator whose left operand is missing. -/
  | rightOnly (operator : Lexeme) (right : Expr)
  | call (callee : Lexeme) (arguments : List Expr)
  deriving Repr

namespace Expr

mutual

/-- The number of nodes of the tree of an expression. -/
def size : Expr → Nat
  | identifier _ | keyword _ | constant _ | placeholder => 1
  | unary _ e | leftOnly _ e | rightOnly _ e => size e + 1
  | binary _ l r => size l + size r + 1
  | call _ es => sizeAll es + 1

/-- The number of nodes of the trees of several expressions. -/
def sizeAll : List Expr → Nat
  | [] => 0
  | e :: es => size e + sizeAll es

end

mutual

/-- The tree of an expression. -/
def toTree : Expr → Numbering Tree
  | identifier name => Numbering.identifier name
  | keyword word => Numbering.keyword word
  | constant text => Numbering.constant text
  | placeholder => Numbering.placeholder
  | unary operator e => do
    let e ← toTree e
    Numbering.create .unaryOp operator .operator [e] false
  | binary operator l r => do
    let l ← toTree l
    let r ← toTree r
    Numbering.create .binaryOp operator .operator [l, r] false
  | leftOnly operator e | rightOnly operator e => do
    let e ← toTree e
    Numbering.create .binaryOp operator .operator [e] false
  | call callee es => do
    let es ← toTrees es
    Numbering.create .call callee .identifier es false

/-- The trees of several expressions, numbered one after the other. -/
def toTrees : List Expr → Numbering (List Tree)
  | [] => return []
  | e :: es => do
    let t ← toTree e
    let ts ← toTrees es
    return t :: ts

end

/-- The tree of an expression, if there is one, numbered from `first` on, and the next free number
after it. -/
def numbered (e? : Option Expr) (first : Int) : Option Tree × Int :=
  (e?.mapM toTree).run first

@[simp] theorem numbered_none (first : Int) : numbered none first = (none, first) := rfl

@[simp] theorem numbered_some (e : Expr) (first : Int) :
    numbered (some e) first = (some (e.toTree.run first).1, (e.toTree.run first).2) := rfl

/-! ## Equality -/

mutual

/-- The two expressions are the same. -/
def same : Expr → Expr → Bool
  | identifier a, identifier b | keyword a, keyword b | constant a, constant b => a == b
  | placeholder, placeholder => true
  | unary o e, unary p f | leftOnly o e, leftOnly p f | rightOnly o e, rightOnly p f =>
    o == p && same e f
  | binary o l r, binary p m s => o == p && same l m && same r s
  | call a es, call b fs => a == b && sameAll es fs
  | _, _ => false

/-- The two lists hold the same expressions. -/
def sameAll : List Expr → List Expr → Bool
  | [], [] => true
  | e :: es, f :: fs => same e f && sameAll es fs
  | _, _ => false

end

mutual

theorem same_iff : ∀ (e f : Expr), same e f = true ↔ e = f
  | identifier a, f => by cases f <;> simp [same]
  | keyword a, f => by cases f <;> simp [same]
  | constant a, f => by cases f <;> simp [same]
  | placeholder, f => by cases f <;> simp [same]
  | unary o e, f => by cases f <;> simp [same, same_iff e]
  | leftOnly o e, f => by cases f <;> simp [same, same_iff e]
  | rightOnly o e, f => by cases f <;> simp [same, same_iff e]
  | binary o l r, f => by cases f <;> simp [same, same_iff l, same_iff r, and_assoc]
  | call a es, f => by cases f <;> simp [same, sameAll_iff es]

theorem sameAll_iff : ∀ (es fs : List Expr), sameAll es fs = true ↔ es = fs
  | [], fs => by cases fs <;> simp [sameAll]
  | e :: es, fs => by cases fs <;> simp [sameAll, same_iff e, sameAll_iff es]

end

instance : DecidableEq Expr := fun e f => decidable_of_iff _ (same_iff e f)

end Expr

end SnippetTree
