import Mathlib.Algebra.GroupWithZero.Nat
import SnippetTree.Proofs.Schema
import SnippetTree.Proofs.Visit

/-!
# What is missing in a tree

Two defects show in the tree of a damaged expression: an empty name stands where an operand is
missing or was skipped, and a binary operator has only one operand. Both are counted in the tree,
where a reader sees them, and in the expression, where proofs about the parser do
(`Expr.always_defects`).
-/

namespace SnippetTree

/-! ## Defects of trees -/

namespace Tree

/-- The root is an empty name and has nothing below it. -/
def isGap (t : Tree) : Bool :=
  t.value.kind == .identifier && t.value.lexeme == "" && t.isLeaf

/-- The number of empty names among the leaves. -/
def gaps (t : Tree) : Nat :=
  t.walk.countP isGap

/-- The root is a binary operator with one operand. -/
def isOneSided (t : Tree) : Bool :=
  t.value.kind == .binaryOp && t.children.length == 1

/-- The binary operators that have one operand, each before those below it. -/
def oneSided (t : Tree) : List Lexeme :=
  (t.walk.filter isOneSided).map (·.value.lexeme)

/-- All operators have all of their operands. -/
structure IsFull (t : Tree) : Prop where
  binary : ∀ u ∈ t.walk, u.value.kind = .binaryOp → u.children.length = 2
  unary : ∀ u ∈ t.walk, u.value.kind = .unaryOp → u.children.length = 1

/-- A prefix operator has one operand, a binary one has one or two. -/
def Arity (t : Tree) : Prop :=
  ∀ u ∈ t.walk, (u.value.kind = .unaryOp → u.children.length = 1) ∧
    (u.value.kind = .binaryOp → u.children.length = 1 ∨ u.children.length = 2)

section Node

variable (id : Int) (kind : Kind) (lexeme : Lexeme) (category : Category) (children : List Tree)
  (synthetic : Bool)

theorem gaps_mk : (mk id kind lexeme category children synthetic).gaps =
    (children.map gaps).sum +
      if isGap (mk id kind lexeme category children synthetic) then 1 else 0 := by
  rw [gaps, mk, Rose.walk_node, List.countP_cons, List.countP_flatMap]
  rfl

theorem oneSided_mk : (mk id kind lexeme category children synthetic).oneSided =
    (if isOneSided (mk id kind lexeme category children synthetic) then [lexeme] else []) ++
      children.flatMap oneSided := by
  rw [oneSided, mk, Rose.walk_node, List.filter_cons, List.filter_flatMap]
  split
  · rw [List.map_cons, List.map_flatMap]
    rfl
  · rw [List.map_flatMap]
    rfl

end Node

/-- In the tree of an expression each node is the tree of an expression. -/
theorem IsParsed.of_mem_walk {t : Tree} (h : IsParsed t) : ∀ u ∈ t.walk, IsParsed u := by
  have hnode : ∀ {value : Label} {children : List Tree}, IsParsed (.node value children) →
      (∀ c ∈ children, ∀ u ∈ c.walk, IsParsed u) →
      ∀ u ∈ (Rose.node value children).walk, IsParsed u := by
    intro value children hroot hbelow u hu
    rw [Rose.walk_node, List.mem_cons, List.mem_flatMap] at hu
    rcases hu with rfl | ⟨c, hc, hu⟩
    · exact hroot
    · exact hbelow c hc u hu
  induction h with
  | identifier id name => exact hnode (.identifier id name) fun _ hc => absurd hc List.not_mem_nil
  | keyword id word => exact hnode (.keyword id word) fun _ hc => absurd hc List.not_mem_nil
  | constant id text => exact hnode (.constant id text) fun _ hc => absurd hc List.not_mem_nil
  | unary id operator h ih => exact hnode (.unary id operator h) (List.forall_mem_singleton.mpr ih)
  | binary id operator hl hr ihl ihr =>
      exact hnode (.binary id operator hl hr)
        (List.forall_mem_cons.mpr ⟨ihl, List.forall_mem_singleton.mpr ihr⟩)
  | oneSided id operator h ih =>
      exact hnode (.oneSided id operator h) (List.forall_mem_singleton.mpr ih)
  | call id callee h ih => exact hnode (.call id callee h) ih

/-- In the tree of an expression a prefix operator has one operand, a binary one at most two. -/
theorem IsParsed.arity {t : Tree} (h : IsParsed t) :
    (t.value.kind = .unaryOp → t.children.length = 1) ∧
    (t.value.kind = .binaryOp → t.children.length = 1 ∨ t.children.length = 2) := by
  cases h with
  | unary => exact ⟨fun _ => rfl, nofun⟩
  | binary => exact ⟨nofun, fun _ => .inr rfl⟩
  | oneSided => exact ⟨nofun, fun _ => .inl rfl⟩
  | _ => exact ⟨nofun, nofun⟩

theorem IsParsed.arityAll {t : Tree} (h : IsParsed t) : t.Arity :=
  fun u hu => (h.of_mem_walk u hu).arity

/-- Where no operator is one-sided, all operators have all of their operands. -/
theorem Arity.isFull {t : Tree} (h : t.Arity) (hnone : t.oneSided = []) : t.IsFull := by
  refine ⟨?_, fun u hu => (h u hu).1⟩
  intro u hu hkind
  refine ((h u hu).2 hkind).resolve_left fun hlength => ?_
  have hmem : u ∈ t.walk.filter isOneSided :=
    List.mem_filter.mpr ⟨hu, by simp [isOneSided, hkind, hlength]⟩
  rw [List.map_eq_nil_iff.mp hnone] at hmem
  exact List.not_mem_nil hmem

theorem IsParsed.isFull {t : Tree} (h : IsParsed t) (hnone : t.oneSided = []) : t.IsFull :=
  h.arityAll.isFull hnone

end Tree

/-! ## Defects of expressions -/

namespace Expr

mutual

/-- The number of empty places of an expression. A name without characters would look like one. -/
def gaps : Expr → Nat
  | identifier name => if name = "" then 1 else 0
  | keyword _ | constant _ => 0
  | placeholder => 1
  | unary _ e | leftOnly _ e | rightOnly _ e => gaps e
  | binary _ l r => gaps l + gaps r
  | call _ es => gapsAll es

/-- The number of empty places of several expressions. -/
def gapsAll : List Expr → Nat
  | [] => 0
  | e :: es => gaps e + gapsAll es

end

mutual

/-- The operators of an expression that lack an operand, each before those of its operand. -/
def oneSided : Expr → List Lexeme
  | identifier _ | keyword _ | constant _ | placeholder => []
  | unary _ e => oneSided e
  | leftOnly operator e | rightOnly operator e => operator :: oneSided e
  | binary _ l r => oneSided l ++ oneSided r
  | call _ es => oneSidedAll es

/-- The operators of several expressions that lack an operand. -/
def oneSidedAll : List Expr → List Lexeme
  | [] => []
  | e :: es => oneSided e ++ oneSidedAll es

end

theorem gaps_nameLeaf {g : Grammar} {name : Lexeme} (h : name ≠ "") :
    (g.nameLeaf name).gaps = 0 := by
  unfold Grammar.nameLeaf
  split
  · rfl
  · exact if_neg h

theorem oneSided_nameLeaf (g : Grammar) (name : Lexeme) : (g.nameLeaf name).oneSided = [] := by
  unfold Grammar.nameLeaf
  split <;> rfl

open SnippetTree.Numbering

mutual

/-- **A tree has the defects of its expression.** -/
theorem always_defects : ∀ e : Expr,
    e.toTree.Always fun t => t.gaps = e.gaps ∧ t.oneSided = e.oneSided
  | .identifier name => always_create fun id => by
      rw [Tree.gaps_mk, Tree.oneSided_mk]
      refine ⟨?_, rfl⟩
      by_cases hname : name = "" <;>
        simp [hname, gaps, Tree.isGap, Tree.mk, Rose.value, Rose.isLeaf, Rose.children]
  | .keyword _ | .constant _ | .placeholder => always_create fun id => by
      rw [Tree.gaps_mk, Tree.oneSided_mk]
      exact ⟨rfl, rfl⟩
  | .unary operator e =>
      (always_defects e).bind fun _ he => always_create fun id => by
        rw [Tree.gaps_mk, Tree.oneSided_mk, List.map_singleton, List.flatMap_singleton, he.1, he.2]
        exact ⟨rfl, rfl⟩
  | .leftOnly operator e | .rightOnly operator e =>
      (always_defects e).bind fun _ he => always_create fun id => by
        rw [Tree.gaps_mk, Tree.oneSided_mk, List.map_singleton, List.flatMap_singleton, he.1, he.2]
        exact ⟨rfl, rfl⟩
  | .binary operator l r =>
      (always_defects l).bind fun _ hl => (always_defects r).bind fun _ hr =>
        always_create fun id => by
          rw [Tree.gaps_mk, Tree.oneSided_mk, List.map_cons, List.map_singleton, List.flatMap_cons,
            List.flatMap_singleton, hl.1, hl.2, hr.1, hr.2]
          exact ⟨rfl, rfl⟩
  | .call callee es =>
      (alwaysAll_defects es).bind fun _ hes => always_create fun id => by
        rw [Tree.gaps_mk, Tree.oneSided_mk, hes.1, hes.2]
        exact ⟨rfl, rfl⟩

theorem alwaysAll_defects : ∀ es : List Expr, (toTrees es).Always fun ts =>
    (ts.map Tree.gaps).sum = gapsAll es ∧ ts.flatMap Tree.oneSided = oneSidedAll es
  | [] => always_pure ⟨rfl, rfl⟩
  | e :: es =>
      (always_defects e).bind fun _ he => (alwaysAll_defects es).bind fun _ hes =>
        always_pure ⟨congrArg₂ (· + ·) he.1 hes.1, congrArg₂ (· ++ ·) he.2 hes.2⟩

end

end Expr

end SnippetTree
