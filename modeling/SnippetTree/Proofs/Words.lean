import SnippetTree.Proofs.Marks
import SnippetTree.Proofs.Schema
import SnippetTree.Proofs.Spelling
import SnippetTree.Proofs.Visit

/-!
# Words of a parse in silence

Silence says that the tree has a node for each lexeme that is no parenthesis or comma, in the order
of the lexemes, but for those lexemes that no expression of the table has a use for (`Idle`). These
are passed over if they stand among the arguments of a call (`inOrder_of_silent`). The tables of all
dialects are of the kind for which this is proved (`Dialect.readable_grammar`).
-/

namespace SnippetTree

/-! ## Expressions in the order of their lexemes -/

namespace Expr

mutual

/-- The lexemes of the nodes of an expression, in the order in which they are written; what is
missing has the empty lexeme. -/
def inOrder : Expr → List Lexeme
  | identifier w | keyword w | constant w => [w]
  | placeholder => [""]
  | unary operator e => operator :: inOrder e
  | binary operator l r => inOrder l ++ operator :: inOrder r
  | leftOnly operator l => inOrder l ++ [operator]
  | rightOnly operator r => operator :: inOrder r
  | call callee es => callee :: inOrderAll es

/-- The lexemes of the nodes of several expressions, one after the other. -/
def inOrderAll : List Expr → List Lexeme
  | [] => []
  | e :: es => inOrder e ++ inOrderAll es

end

theorem inOrderAll_eq (es : List Expr) : inOrderAll es = es.flatMap inOrder := by
  induction es with
  | nil => rfl
  | cons e es ih => rw [inOrderAll, ih, List.flatMap_cons]

theorem inOrder_nameLeaf (g : Grammar) (name : Lexeme) : (g.nameLeaf name).inOrder = [name] := by
  unfold Grammar.nameLeaf
  split <;> rfl

end Expr

/-- The lexemes of all nodes of a tree, each before those of its children. -/
def Tree.lexemes (t : Tree) : List Lexeme :=
  t.walk.map (·.value.lexeme)

theorem Tree.lexemes_mk (id : Int) (kind : Kind) (lexeme : Lexeme) (category : Category)
    (children : List Tree) (synthetic : Bool) :
    (Tree.mk id kind lexeme category children synthetic).lexemes =
      lexeme :: children.flatMap Tree.lexemes := by
  rw [lexemes, mk, Rose.walk_node, List.map_cons, List.map_flatMap]
  rfl

namespace Expr

open SnippetTree.Numbering

mutual

/-- **A tree has a node for each lexeme of its expression**, and no others. -/
theorem always_lexemes : ∀ e : Expr, e.toTree.Always fun t => t.lexemes.Perm e.inOrder
  | .identifier _ | .keyword _ | .constant _ | .placeholder =>
      always_create fun _ => by rw [Tree.lexemes_mk]; rfl
  | .unary operator e | .rightOnly operator e =>
      (always_lexemes e).bind fun t he => always_create fun _ => by
        rw [Tree.lexemes_mk, List.flatMap_singleton]
        exact he.cons operator
  | .leftOnly operator e =>
      (always_lexemes e).bind fun t he => always_create fun _ => by
        rw [Tree.lexemes_mk, List.flatMap_singleton]
        exact (he.cons operator).trans (List.perm_append_singleton operator _).symm
  | .binary operator l r =>
      (always_lexemes l).bind fun t hl => (always_lexemes r).bind fun u hr =>
        always_create fun _ => by
          rw [Tree.lexemes_mk, List.flatMap_cons, List.flatMap_singleton]
          exact ((hl.append hr).cons operator).trans List.perm_middle.symm
  | .call callee es =>
      (alwaysAll_lexemes es).bind fun ts hes => always_create fun _ => by
        rw [Tree.lexemes_mk]
        exact hes.cons callee

theorem alwaysAll_lexemes : ∀ es : List Expr,
    (toTrees es).Always fun ts => (ts.flatMap Tree.lexemes).Perm (inOrderAll es)
  | [] => always_pure (List.Perm.refl _)
  | e :: es =>
      (always_lexemes e).bind fun _ he => (alwaysAll_lexemes es).bind fun _ hes =>
        always_pure (he.append hes)

end

end Expr

namespace Grammar

variable {g : Grammar} {stuck : Bool} {marks : List Mark} {value : Option Expr}
  {lexemes : List Lexeme} {limit : Nat} {e : Expr}

/-! ## Words among marked lexemes -/

theorem words_flatMap {items : List Item}
    (h : ∀ stuck marks value, .argument stuck marks value ∈ items →
      marks.filterMap Mark.word? = value.toList.flatMap Expr.inOrder) :
    (items.flatMap Item.marks).filterMap Mark.word? =
      (items.flatMap Item.arguments).flatMap Expr.inOrder := by
  induction items with
  | nil => rfl
  | cons item items ih =>
      have hitems := ih fun stuck marks value hmem => h _ _ _ (List.mem_cons_of_mem _ hmem)
      rw [List.flatMap_cons, List.flatMap_cons, List.filterMap_append, List.flatMap_append, hitems]
      cases item with
      | argument stuck marks value => exact congrArg (· ++ _) (h _ _ _ (List.mem_cons_self ..))
      | comma => rfl
      | passed => rfl

/-- **The words among marked lexemes are those of the expression**, in their order. -/
theorem Marked.words (h : g.Marked stuck marks value) :
    marks.filterMap Mark.word? = value.toList.flatMap Expr.inOrder := by
  induction h with
  | nothing => rfl
  | constant => rfl
  | name => simp [Mark.word?, Expr.inOrder_nameLeaf]
  | sign _ _ ih => simp [Mark.word?, Expr.inOrder, ih]
  | binary _ _ _ _ ihl ihr => simp [Mark.word?, Expr.inOrder, ihl, ihr]
  | group _ ih => simp [List.filterMap_cons, Mark.word?, ih]
  | leftOpen _ ih => simp [List.filterMap_cons, Mark.word?, ih]
  | call _ _ _ ih =>
      simp [List.filterMap_cons, Mark.word?, Expr.inOrder, Expr.inOrderAll_eq, words_flatMap ih]

/-- A lexeme is marked as a word if and only if it is in use. -/
theorem word?_of_fits {mark : Mark} (h : g.Fits mark) :
    mark.word? = if g.InUse mark.lexeme then some mark.lexeme else none := by
  cases mark with
  | word lexeme => exact (if_pos h).symm
  | passed lexeme => exact (if_neg fun hused => hused.not_idle h).symm
  | opener | leftOpen => exact (if_neg fun hused => hused.no_mark opener_mem).symm
  | closer => exact (if_neg fun hused => hused.no_mark closer_mem).symm
  | comma => exact (if_neg fun hused => hused.no_mark comma_mem).symm

/-- The words are what is in use among the marked lexemes. -/
theorem filter_inUse (h : ∀ mark ∈ marks, g.Fits mark) :
    (marks.map Mark.lexeme).filter g.InUse = marks.filterMap Mark.word? := by
  induction marks with
  | nil => rfl
  | cons mark marks ih =>
      obtain ⟨hmark, hmarks⟩ := List.forall_mem_cons.mp h
      rw [List.map_cons, List.filter_cons, ih hmarks, List.filterMap_cons, word?_of_fits hmark]
      by_cases hused : g.InUse mark.lexeme <;> simp [hused]

/-- A lexeme that is marked, and neither left open nor passed over, is not idle. -/
theorem not_idle_of_plain {mark : Mark} (h : g.Fits mark) (hplain : mark.IsPlain) :
    ¬ g.Idle mark.lexeme := by
  cases mark with
  | word lexeme => exact h.not_idle
  | opener => exact fun hidle => hidle.no_mark opener_mem
  | closer => exact fun hidle => hidle.no_mark closer_mem
  | comma => exact fun hidle => hidle.no_mark comma_mem
  | leftOpen => exact hplain.elim
  | passed => exact hplain.elim

/-- Leaving out what is of no use leaves out nothing if there is nothing of the kind. -/
theorem filter_inUse_eq_iff :
    lexemes.filter g.InUse = lexemes.filter (· ∉ punctuation) ↔
      ∀ lexeme ∈ lexemes, ¬ g.Idle lexeme := by
  constructor
  · intro heq lexeme hmem hidle
    have hkept : lexeme ∈ lexemes.filter (· ∉ punctuation) :=
      List.mem_filter.mpr ⟨hmem, decide_eq_true hidle.no_mark⟩
    rw [← heq] at hkept
    exact (of_decide_eq_true (List.mem_filter.mp hkept).2).not_idle hidle
  · intro hnone
    refine List.filter_congr fun lexeme hmem => ?_
    exact decide_eq_decide.mpr ⟨InUse.no_mark, fun hmark => ⟨hmark, hnone lexeme hmem⟩⟩

/-! ## Parses in silence -/

/-- **Words of a parse in silence.** The lexemes of the nodes of the tree, in the order in which
they are written, are the lexemes that are in use. So each lexeme besides parentheses and commas
has its node, if and only if none of them is idle; and none is outside of calls. -/
theorem inOrder_of_silent (hg : g.Readable) (hexpr : (g.parse limit lexemes).expr = some e)
    (hsilent : (g.parse limit lexemes).problems = []) :
    e.inOrder = lexemes.filter g.InUse ∧
    (∀ first, (e.toTree.run first).1.lexemes.Perm e.inOrder) ∧
    (∀ first, (e.toTree.run first).1.size = (lexemes.filter g.InUse).length) ∧
    (e.inOrder = lexemes.filter (· ∉ punctuation) ↔ ∀ lexeme ∈ lexemes, ¬ g.Idle lexeme) ∧
    (e.CallFree → ∀ lexeme ∈ lexemes, ¬ g.Idle lexeme) := by
  obtain ⟨marks, rfl, hmarked⟩ := marked_of_silent hsilent
  rw [hexpr] at hmarked
  have hfits := hmarked.fits hg
  have hwords : e.inOrder = (marks.map Mark.lexeme).filter g.InUse := by
    rw [filter_inUse hfits, hmarked.words]
    simp
  refine ⟨hwords, e.always_lexemes, ?_, hwords ▸ filter_inUse_eq_iff, ?_⟩
  · intro first
    have hlength := (e.always_lexemes first).length_eq
    rwa [Tree.lexemes, List.length_map, Rose.length_walk, hwords] at hlength
  · intro hfree lexeme hmem
    obtain ⟨mark, hmark, rfl⟩ := List.mem_map.mp hmem
    have hplain := hmarked.plain_of_callFree rfl (fun _ he => Option.some.inj he ▸ hfree)
    exact not_idle_of_plain (hfits mark hmark) (hplain mark hmark)

/-- In `f ( - b )` each word has its node. -/
theorem inOrder_call : Dialect.cSpec.grammar.Readable ∧
    (Dialect.cSpec.grammar.parse 62 ["f", "(", "-", "b", ")"]).expr =
      some (.call "f" [.unary "-" (.identifier "b")]) ∧
    (Dialect.cSpec.grammar.parse 62 ["f", "(", "-", "b", ")"]).problems = [] ∧
    (Expr.call "f" [.unary "-" (.identifier "b")]).inOrder =
      ["f", "(", "-", "b", ")"].filter Dialect.cSpec.grammar.InUse ∧
    (∀ first, ((Expr.call "f" [.unary "-" (.identifier "b")]).toTree.run first).1.lexemes.Perm
      (Expr.call "f" [.unary "-" (.identifier "b")]).inOrder) ∧
    (∀ first, ((Expr.call "f" [.unary "-" (.identifier "b")]).toTree.run first).1.size =
      (["f", "(", "-", "b", ")"].filter Dialect.cSpec.grammar.InUse).length) ∧
    ((Expr.call "f" [.unary "-" (.identifier "b")]).inOrder =
      ["f", "(", "-", "b", ")"].filter (· ∉ punctuation) ↔
        ∀ lexeme ∈ ["f", "(", "-", "b", ")"], ¬ Dialect.cSpec.grammar.Idle lexeme) ∧
    ((Expr.call "f" [.unary "-" (.identifier "b")]).CallFree →
      ∀ lexeme ∈ ["f", "(", "-", "b", ")"], ¬ Dialect.cSpec.grammar.Idle lexeme) := by
  have hg : Dialect.cSpec.grammar.Readable := Dialect.readable_grammar .c
  have hexpr : (Dialect.cSpec.grammar.parse 62 ["f", "(", "-", "b", ")"]).expr =
      some (.call "f" [.unary "-" (.identifier "b")]) := by decide +kernel
  have hsilent : (Dialect.cSpec.grammar.parse 62 ["f", "(", "-", "b", ")"]).problems = [] := by
    decide +kernel
  exact ⟨hg, hexpr, hsilent, inOrder_of_silent hg hexpr hsilent⟩

/-- In `f ( a ] b )` the bracket is dropped, and nothing is noted. -/
theorem not_inOrder_call :
    (Dialect.cSpec.grammar.parse 62 ["f", "(", "a", "]", "b", ")"]).expr =
      some (.call "f" [.identifier "a", .identifier "b"]) ∧
    (Dialect.cSpec.grammar.parse 62 ["f", "(", "a", "]", "b", ")"]).problems = [] ∧
    ((Expr.call "f" [.identifier "a", .identifier "b"]).toTree.run 1).1.size = 3 ∧
    (["f", "(", "a", "]", "b", ")"].filter (· ∉ punctuation)).length = 4 := by
  exact ⟨by decide +kernel, by decide +kernel, by decide, by decide⟩

end Grammar

end SnippetTree
