import SnippetTree.Proofs.Numbered
import SnippetTree.Proofs.OnePass
import SnippetTree.Proofs.Shift

/-!
# Expressions are numbered in post-order

The nodes of an expression are numbered from left to right, each after those below it, and all of
the numbers are used: listed in post-order, the numbers of a tree are the first one that was free,
the one after it, and so on, up to the one before the next free number (`InPostorder`). Nothing else
depends on the number that is free at the beginning. So trees that are made one after the other have
numbers that follow each other, and each of them is the tree that is made from one on, moved
(`Successive`).

All of this is said of texts, whatever is in them: of damaged expressions, of empty places, of parts
that were passed over, and of texts that are kept raw.
-/

namespace SnippetTree

open SnippetTree.Numbering SnippetTree.Rose

namespace Rose

variable {α : Type}

mutual

/-- The values of a tree, each after those of its children. -/
def postorder : Rose α → List α
  | node value children => postorderAll children ++ [value]

/-- The values of several trees, tree after tree. -/
def postorderAll : List (Rose α) → List α
  | [] => []
  | t :: rest => postorder t ++ postorderAll rest

end

theorem sizeAll_singleton (t : Rose α) : sizeAll [t] = t.size := rfl

theorem postorderAll_singleton (t : Rose α) : postorderAll [t] = t.postorder :=
  List.append_nil _

theorem postorderAll_append (ts us : List (Rose α)) :
    postorderAll (ts ++ us) = postorderAll ts ++ postorderAll us := by
  induction ts with
  | nil => rfl
  | cons t ts ih => rw [List.cons_append, postorderAll, postorderAll, ih, List.append_assoc]

end Rose

/-- In post-order, tree after tree, the nodes have the numbers from `first` up to, but not
including, `next`. -/
structure InPostorder (first : Int) (ts : List Tree) (next : Int) : Prop where
  /-- As many numbers have been given out as there are nodes. -/
  count : next = first + (sizeAll ts : Int)
  /-- They stand in their order. -/
  ids : (postorderAll ts).map Label.id = numbersFrom first (sizeAll ts)

namespace InPostorder

variable {first mid next : Int} {ts us : List Tree}

/-- Where no tree is made, no number is used. -/
theorem nil (first : Int) : InPostorder first [] first where
  count := by simp [sizeAll]
  ids := by simp [postorderAll, numbersFrom, sizeAll]

/-- What is made later comes later. -/
theorem append (hts : InPostorder first ts mid) (hus : InPostorder mid us next) :
    InPostorder first (ts ++ us) next where
  count := by
    have hmid := hts.count
    have hnext := hus.count
    rw [sizeAll_append]
    omega
  ids := by
    rw [postorderAll_append, List.map_append, hts.ids, hus.ids, sizeAll_append, numbersFrom_add,
      ← hts.count]

/-- A node above trees takes the number after theirs. -/
theorem node (h : InPostorder first ts next) (kind : Kind) (lexeme : Lexeme) (category : Category)
    (synthetic : Bool) :
    InPostorder first [.mk next kind lexeme category ts synthetic] (next + 1) := by
  have hsize : sizeAll [Tree.mk next kind lexeme category ts synthetic] = sizeAll ts + 1 := by
    rw [sizeAll_singleton, Tree.mk, size]
    omega
  have hcount := h.count
  refine ⟨?_, ?_⟩
  · rw [hsize]
    omega
  · rw [hsize, numbersFrom_add, numbersFrom_one, ← hcount, ← h.ids, postorderAll_singleton, Tree.mk,
      postorder, List.map_append]
    rfl

end InPostorder

/-! ## Expressions -/

/-- Whatever number is free at the beginning, the tree is numbered in post-order. -/
def Numbering.Postordered (x : Numbering Tree) : Prop :=
  ∀ first, InPostorder first [(x.run first).1] (x.run first).2

/-- So are the trees. -/
def Numbering.PostorderedAll (x : Numbering (List Tree)) : Prop :=
  ∀ first, InPostorder first (x.run first).1 (x.run first).2

theorem Numbering.postordered_leaf (kind : Kind) (lexeme : Lexeme) (category : Category) :
    (create kind lexeme category [] false).Postordered :=
  fun first => (InPostorder.nil first).node kind lexeme category false

mutual

/-- Operands are finished from left to right, and before the operator they belong to. -/
theorem Expr.postordered : ∀ e : Expr, e.toTree.Postordered
  | .identifier name => postordered_leaf .identifier name .identifier
  | .keyword word => postordered_leaf .keyword word .keyword
  | .constant text => postordered_leaf .constant text .constant
  | .placeholder => postordered_leaf .identifier "" .identifier
  | .unary _ e => fun first => (postordered e first).node _ _ _ _
  | .leftOnly _ e => fun first => (postordered e first).node _ _ _ _
  | .rightOnly _ e => fun first => (postordered e first).node _ _ _ _
  | .binary _ l r => by
      intro first
      have hoperands := (postordered l first).append (postordered r _)
      exact hoperands.node _ _ _ _
  | .call _ es => fun first => (postorderedAll es first).node _ _ _ _

theorem Expr.postorderedAll : ∀ es : List Expr, (toTrees es).PostorderedAll
  | [] => InPostorder.nil
  | e :: es => fun first => (postordered e first).append (postorderedAll es _)

end

theorem Reading.postordered (r : Reading) : r.toTree.Postordered := by
  cases r with
  | expr e => exact e.postordered
  | raw text => exact postordered_leaf .expression text .constant

/-! ## Texts -/

namespace Reader

/-- What is true of the tree of a text if `first` is the next free number before it. -/
structure Numbers (r : Reader) (keep : Bool) (text : Text) (first : Int) : Prop where
  /-- A parser that makes the nodes while it reads makes the same tree with the same numbers. -/
  onePass : OnePass.read r keep text first = r.treeFrom keep text first
  /-- If numbering starts later by `m`, there is a tree if there was one, its numbers are greater
  by `m`, and all else is the same. -/
  moved : ∀ m, r.treeFrom keep text (first + m) =
    ⟨((r.treeFrom keep text first).value.1.map (Tree.shift m),
      (r.treeFrom keep text first).value.2 + m), (r.treeFrom keep text first).problems⟩
  postorder : InPostorder first (r.treeFrom keep text first).value.1.toList
    (r.treeFrom keep text first).value.2
  /-- Where there is no tree, no number has been used. -/
  unused : (r.treeFrom keep text first).value.1 = none → (r.treeFrom keep text first).value.2 = first

theorem moved_numbered (e? : Option Expr) (first m : Int) : Expr.numbered e? (first + m) =
    ((Expr.numbered e? first).1.map (Tree.shift m), (Expr.numbered e? first).2 + m) := by
  cases e? with
  | none => rfl
  | some e =>
      rw [Expr.numbered_some, e.movesTree m first]
      rfl

theorem inPostorder_numbered (e? : Option Expr) (first : Int) :
    InPostorder first (Expr.numbered e? first).1.toList (Expr.numbered e? first).2 := by
  cases e? with
  | none => exact .nil first
  | some e => exact e.postordered first

theorem numbers (r : Reader) (keep : Bool) (text : Text) (first : Int) :
    r.Numbers keep text first where
  onePass := OnePass.read_eq r keep text first
  moved := by
    intro m
    cases keep with
    | false => exact congrArg (Report.mk · _) (moved_numbered _ first m)
    | true =>
        show Report.mk (some ((r.read text).value.toTree.run (first + m)).1, _) _ = _
        rw [(r.read text).value.movesTree m first]
        rfl
  postorder := by
    cases keep with
    | false => exact inPostorder_numbered _ first
    | true => exact (r.read text).value.postordered first
  unused := by
    cases keep with
    | false =>
        show (Expr.numbered _ first).1 = none → (Expr.numbered _ first).2 = first
        cases (r.expression? text).value with
        | none => exact fun _ => rfl
        | some e => exact nofun
    | true => exact nofun

/-! ## Sequences of texts -/

/-- The trees of texts that are read one after the other, each by a reader of its own. -/
def treesOf (calls : List (Reader × Text)) : Numbering (List Tree) :=
  calls.mapM fun (r, text) => (r.read text).value.toTree

/-- `Successive first calls ts next`: one after the other, the trees of the texts have the numbers
from `first` up to, but not including, `next`, each its own part of them, and each tree is the one
that is numbered from one on, moved. -/
inductive Successive : Int → List (Reader × Text) → List Tree → Int → Prop where
  | nil {first : Int} : Successive first [] [] first
  | cons {first next : Int} {r : Reader} {text : Text} {t : Tree} {calls : List (Reader × Text)}
      {ts : List Tree} :
      t = ((r.read text).value.toTree.run 1).1.shift (first - 1) →
      t.postorder.map Label.id = numbersFrom first t.size →
      Successive (first + t.size) calls ts next →
      Successive first ((r, text) :: calls) (t :: ts) next

theorem run_treesOf_cons (r : Reader) (text : Text) (calls : List (Reader × Text)) (first : Int) :
    (treesOf ((r, text) :: calls)).run first =
      (((r.read text).value.toTree.run first).1 ::
          ((treesOf calls).run ((r.read text).value.toTree.run first).2).1,
        ((treesOf calls).run ((r.read text).value.toTree.run first).2).2) := by
  rw [treesOf, List.mapM_cons]
  rfl

theorem successive_treesOf (calls : List (Reader × Text)) (first : Int) :
    Successive first calls ((treesOf calls).run first).1 ((treesOf calls).run first).2 := by
  induction calls generalizing first with
  | nil => exact .nil
  | cons call calls ih =>
      obtain ⟨r, text⟩ := call
      have hmoved := (r.read text).value.movesTree (first - 1) 1
      have hordered := (r.read text).value.postordered first
      have hstart : 1 + (first - 1) = first := by omega
      rw [hstart] at hmoved
      have hnext : ((r.read text).value.toTree.run first).2 =
          first + ((r.read text).value.toTree.run first).1.size := by
        have hcount := hordered.count
        rwa [sizeAll_singleton] at hcount
      have hids := hordered.ids
      rw [postorderAll_singleton, sizeAll_singleton] at hids
      rw [run_treesOf_cons]
      refine .cons (congrArg Prod.fst hmoved) hids ?_
      rw [← hnext]
      exact ih _

/-- **The nodes of every text that is read are numbered in post-order, from whatever number is free.**
Nothing but the numbers depends on that number, no number is left out, and texts that are read one
after the other share the numbers out among them. -/
theorem numbering_of_texts :
    (∀ (r : Reader) (keep : Bool) (text : Text) (first : Int), r.Numbers keep text first) ∧
    ∀ (calls : List (Reader × Text)) (first : Int),
      Successive first calls ((treesOf calls).run first).1 ((treesOf calls).run first).2 :=
  ⟨numbers, successive_treesOf⟩

end Reader

end SnippetTree
