import SnippetTree.Program
import SnippetTree.Proofs.Visit

/-!
# Numbers and nothing else depend on the first number

If numbering starts later by `m`, then the same nodes are made and each of them has a number that is
greater by `m`. Nothing that makes a tree looks at the numbers it is given. For a single computation
this is `Numbering.Moves`: two runs of it, one of which starts `m` later, give results one of which
is the other one moved by `m`. A bind of two computations moves if the second one, told the moved
result of the first, moves; so the proofs follow the functions that make trees.
-/

namespace SnippetTree

open SnippetTree.Numbering SnippetTree.Rose

/-! ## Moved trees -/

/-- The tree with all of its numbers increased. -/
def Tree.shift (m : Int) (t : Tree) : Tree :=
  t.map fun label => { label with id := label.id + m }

namespace Tree

theorem shift_mk (m id : Int) (kind : Kind) (lexeme : Lexeme) (category : Category)
    (children : List Tree) (synthetic : Bool) :
    (Tree.mk id kind lexeme category children synthetic).shift m =
      .mk (id + m) kind lexeme category (children.map (shift m)) synthetic := by
  rw [Tree.mk, shift, map_node]
  rfl

@[simp] theorem kind_shift (m : Int) (t : Tree) : (t.shift m).kind = t.kind := by
  rw [kind, shift, value_map, kind]

end Tree

/-! ## Moved runs -/

/-- Started `m` later, `y` gives what `x` gives, moved. -/
def Numbering.Moves {α : Type} (m : Int) (move : α → α) (x y : Numbering α) : Prop :=
  ∀ first, y.run (first + m) = (move (x.run first).1, (x.run first).2 + m)

/-- Started `m` later, one tree comes out with its numbers increased by `m`. -/
abbrev Numbering.MovesTree (m : Int) (x : Numbering Tree) : Prop :=
  x.Moves m (Tree.shift m) x

/-- Started `m` later, a list of trees comes out with its numbers increased by `m`. -/
abbrev Numbering.MovesTrees (m : Int) (x : Numbering (List Tree)) : Prop :=
  x.Moves m (List.map (Tree.shift m)) x

namespace Numbering

variable {α β : Type} {m : Int} {move : α → α} {move' : β → β}

theorem moves_pure (m : Int) (move : α → α) (a : α) :
    (pure a : Numbering α).Moves m move (pure (move a)) :=
  fun _ => rfl

theorem Moves.bind {x y : Numbering α} {f g : α → Numbering β} (hx : x.Moves m move y)
    (hf : ∀ a, (f a).Moves m move' (g (move a))) : (x >>= f).Moves m move' (y >>= g) := by
  intro first
  rw [run_bind, hx first]
  exact hf _ _

/-- A node moves with its children. -/
theorem moves_create (m : Int) (kind : Kind) (lexeme : Lexeme) (category : Category)
    (children : List Tree) (synthetic : Bool) :
    (create kind lexeme category children synthetic).Moves m (Tree.shift m)
      (create kind lexeme category (children.map (Tree.shift m)) synthetic) := by
  intro first
  rw [run_create, run_create, Tree.shift_mk, Int.add_right_comm]

theorem movesTree_leaf (m : Int) (kind : Kind) (lexeme : Lexeme) (category : Category) :
    (create kind lexeme category [] false).MovesTree m :=
  moves_create m kind lexeme category [] false

theorem movesTrees_mapM {f : α → Numbering Tree} (h : ∀ a, (f a).MovesTree m) (as : List α) :
    (as.mapM f).MovesTrees m := by
  induction as with
  | nil => exact moves_pure m _ []
  | cons a as ih =>
      rw [MovesTrees, List.mapM_cons]
      exact (h a).bind fun _ => ih.bind fun _ => moves_pure m _ _

theorem movesTrees_groupIfAny (m : Int) (kind : Kind) (label : Lexeme) (ts : List Tree) :
    (groupIfAny kind label ts).Moves m (List.map (Tree.shift m))
      (groupIfAny kind label (ts.map (Tree.shift m))) := by
  cases ts with
  | nil => exact moves_pure m _ []
  | cons t ts =>
      exact (moves_create m kind label .keyword (t :: ts) true).bind fun _ => moves_pure m _ _

end Numbering

/-! ## Expressions -/

mutual

theorem Expr.movesTree (m : Int) : ∀ e : Expr, e.toTree.MovesTree m
  | .identifier name => movesTree_leaf m .identifier name .identifier
  | .keyword word => movesTree_leaf m .keyword word .keyword
  | .constant text => movesTree_leaf m .constant text .constant
  | .placeholder => movesTree_leaf m .identifier "" .identifier
  | .unary operator e => (movesTree m e).bind fun t => moves_create m _ operator _ [t] false
  | .leftOnly operator e => (movesTree m e).bind fun t => moves_create m _ operator _ [t] false
  | .rightOnly operator e => (movesTree m e).bind fun t => moves_create m _ operator _ [t] false
  | .binary operator l r =>
      (movesTree m l).bind fun t => (movesTree m r).bind fun u =>
        moves_create m _ operator _ [t, u] false
  | .call callee es => (movesTrees m es).bind fun ts => moves_create m _ callee _ ts false

theorem Expr.movesTrees (m : Int) : ∀ es : List Expr, (toTrees es).MovesTrees m
  | [] => moves_pure m _ []
  | e :: es =>
      (movesTree m e).bind fun t => (movesTrees m es).bind fun ts => moves_pure m _ (t :: ts)

end

theorem Reading.movesTree (m : Int) (r : Reading) : r.toTree.MovesTree m := by
  cases r with
  | expr e => exact e.movesTree m
  | raw text => exact moves_create m .expression text .constant [] false

theorem Reading.movesTrees (m : Int) (value : Option Reading) :
    (Reading.toTrees value).MovesTrees m := by
  cases value with
  | none => exact moves_pure m _ []
  | some r => exact (r.movesTree m).bind fun t => moves_pure m _ [t]

/-! ## Statements -/

theorem Assigned.movesTree (m : Int) (target : Lexeme) (a : Assigned) :
    (a.toTree target).MovesTree m :=
  (movesTree_leaf m .identifier target .identifier).bind fun name =>
    (Reading.movesTrees m a.value).bind fun value => moves_create m _ _ _ (name :: value) false

theorem Declaration.movesTrees_initial (m : Int) (d : Declaration) :
    d.initialTrees.MovesTrees m := by
  unfold initialTrees
  cases d.initial with
  | none => exact moves_pure m _ []
  | some a => exact (a.movesTree m d.name).bind fun t => moves_pure m _ [t]

theorem Declaration.movesTree (m : Int) (d : Declaration) : d.toTree.MovesTree m :=
  (movesTree_leaf m .keyword d.typeName .keyword).bind fun typeName =>
    (movesTree_leaf m .identifier d.name .identifier).bind fun name =>
      (d.movesTrees_initial m).bind fun initial =>
        moves_create m _ _ _ (typeName :: name :: initial) false

/-- The rest of the tree of a parameter, after what stands before its name. -/
def Parameter.afterType (p : Parameter) (typeTrees : List Tree) : Numbering Tree := do
  let name ← identifier p.name
  create .declaration p.name .identifier (typeTrees ++ [name]) false

theorem Parameter.moves_afterType (m : Int) (p : Parameter) (ts : List Tree) :
    (p.afterType ts).Moves m (Tree.shift m) (p.afterType (ts.map (Tree.shift m))) := by
  refine (movesTree_leaf m .identifier p.name .identifier).bind fun t => ?_
  have hnode := moves_create m .declaration p.name .identifier (ts ++ [t]) false
  rwa [List.map_append] at hnode

theorem Parameter.movesTree (m : Int) (p : Parameter) : p.toTree.MovesTree m := by
  unfold toTree
  cases p.typeName with
  | none => exact p.moves_afterType m []
  | some typeName =>
      have htype : (do pure [← keyword typeName] : Numbering (List Tree)).MovesTrees m :=
        (movesTree_leaf m .keyword typeName .keyword).bind fun t => moves_pure m _ [t]
      exact htype.bind (p.moves_afterType m)

theorem FunctionHead.movesTree (m : Int) (f : FunctionHead) : f.toTree.MovesTree m :=
  (movesTrees_mapM (Parameter.movesTree m) f.parameters).bind fun parameters =>
    (movesTree_leaf m .keyword f.returnType .keyword).bind fun returnType =>
      (movesTree_leaf m .identifier f.name .identifier).bind fun name =>
        (movesTrees_groupIfAny m .parameterList "Parameters" parameters).bind fun list =>
          moves_create m _ _ _ (returnType :: name :: list) false

theorem ClauseContent.movesTree (m : Int) (content : ClauseContent) :
    content.toTree.MovesTree m := by
  cases content with
  | declaration d => exact d.movesTree m
  | assignment a => exact a.assigned.movesTree m a.target
  | reading r => exact r.movesTree m

theorem Clause.movesTree (m : Int) (c : Clause) : c.toTree.MovesTree m :=
  (c.content.movesTree m).bind fun t => moves_create m _ _ _ [t] true

/-- **The tree of a statement depends on the first number by its numbers only.** -/
theorem Statement.movesTree (m : Int) (s : Statement) : s.toTree.MovesTree m := by
  cases s with
  | declaration d => exact d.movesTree m
  | function f => exact f.movesTree m
  | condition word test =>
      exact (Reading.movesTrees m test).bind fun ts => moves_create m _ _ _ ts false
  | forLoop clauses =>
      exact (movesTrees_mapM (Clause.movesTree m) clauses).bind fun ts =>
        moves_create m _ _ _ ts false
  | returning value =>
      exact (Reading.movesTrees m value).bind fun ts => moves_create m _ _ _ ts false
  | assignment a => exact a.assigned.movesTree m a.target
  | expression text e => exact (e.movesTree m).bind fun t => moves_create m _ _ _ [t] false

end SnippetTree
