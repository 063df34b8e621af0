import SnippetTree.Proofs.NoFault
import SnippetTree.Proofs.Numbered
import SnippetTree.Proofs.OnePassBuilds

/-!
# The trees of builds are numbered without gaps

Everything that makes trees gives back exactly the trees it made: from the number that is free
before to the one that is free after, each number is in what it returns (`Makes`). One lemma for
each sort of tree says so. They are chained in the order in which the numbers are given out, which
is not always the order of the children: the parameters of a function are numbered before its
return type, and the lines of a program before the groups they are sorted into.

The root is apart. Its number is taken first, so all of its children have greater ones; below it
every node has a greater number than its children.

That numbers are given out after all lines were read makes no difference to this: a build that makes
each node when it comes to it, and numbers it then, gives the same tree (`OnePass.build_eq`).
-/

namespace SnippetTree

open SnippetTree.Numbering SnippetTree.Rose

/-- What is made consists of the given trees, and every number that is taken is on one of their
nodes. -/
def Numbering.Makes {α : Type} (x : Numbering α) (trees : α → List Tree) : Prop :=
  ∀ first, Numbered first (trees (x.run first).1) (x.run first).2

/-- One tree is made. -/
abbrev Numbering.MakesTree (x : Numbering Tree) : Prop :=
  x.Makes fun t => [t]

/-- A list of trees is made. -/
abbrev Numbering.MakesTrees (x : Numbering (List Tree)) : Prop :=
  x.Makes id

namespace Numbering

variable {α : Type}

theorem makesTree_create (kind : Kind) (lexeme : Lexeme) (category : Category) (synthetic : Bool) :
    MakesTree (create kind lexeme category [] synthetic) :=
  fun first => (Numbered.nil first).node kind lexeme category synthetic

theorem makesTree_identifier (name : Lexeme) : MakesTree (identifier name) :=
  makesTree_create _ _ _ _

theorem makesTree_keyword (word : Lexeme) : MakesTree (keyword word) :=
  makesTree_create _ _ _ _

theorem makesTree_constant (text : Lexeme) : MakesTree (constant text) :=
  makesTree_create _ _ _ _

/-- A node above trees that were made before. -/
theorem Makes.node {x : Numbering α} {trees : α → List Tree} (h : x.Makes trees) (kind : Kind)
    (lexeme : Lexeme) (category : Category) (synthetic : Bool) :
    MakesTree (do create kind lexeme category (trees (← x)) synthetic) :=
  fun first => (h first).node kind lexeme category synthetic

theorem MakesTree.list {x : Numbering Tree} (h : x.MakesTree) :
    MakesTrees (do return [← x]) :=
  fun first => h first

theorem makesTrees_nil : MakesTrees (return []) :=
  fun first => Numbered.nil first

theorem makesTrees_mapM {f : α → Numbering Tree} (h : ∀ a, (f a).MakesTree) (as : List α) :
    MakesTrees (as.mapM f) := by
  induction as with
  | nil => exact makesTrees_nil
  | cons a as ih =>
      intro first
      rw [List.mapM_cons]
      exact (h a first).append (ih _)

theorem length_run_mapM (f : α → Numbering Tree) (as : List α) (first : Int) :
    ((as.mapM f).run first).1.length = as.length := by
  induction as generalizing first with
  | nil => rfl
  | cons a as ih =>
      rw [List.mapM_cons, List.length_cons, ← ih]
      rfl

/-- Trees that are held may be put into a group, if there are any. -/
theorem numbered_groupIfAny {first next : Int} {us ts : List Tree}
    (h : Numbered first (us ++ ts) next) (kind : Kind) (label : Lexeme) :
    Numbered first (us ++ ((groupIfAny kind label ts).run next).1)
      ((groupIfAny kind label ts).run next).2 := by
  unfold groupIfAny
  cases ts with
  | nil => exact h
  | cons t ts => exact h.gather kind label .keyword true

end Numbering

/-! ## Expressions -/

mutual

/-- Operands are numbered before the operator they belong to. -/
theorem Expr.makesTree : ∀ e : Expr, e.toTree.MakesTree
  | .identifier name => makesTree_identifier name
  | .keyword word => makesTree_keyword word
  | .constant text => makesTree_constant text
  | .placeholder => makesTree_identifier ""
  | .unary _ e => (makesTree e).node _ _ _ _
  | .leftOnly _ e => (makesTree e).node _ _ _ _
  | .rightOnly _ e => (makesTree e).node _ _ _ _
  | .binary _ l r => by
      intro first
      have hoperands := (makesTree l first).append (makesTree r _)
      exact hoperands.node _ _ _ _
  | .call _ es => (makesTrees es).node _ _ _ _

theorem Expr.makesTrees : ∀ es : List Expr, (toTrees es).MakesTrees
  | [] => makesTrees_nil
  | e :: es => by
      intro first
      exact (makesTree e first).append (makesTrees es _)

end

theorem Reading.makesTree (r : Reading) : r.toTree.MakesTree := by
  cases r with
  | expr e => exact e.makesTree
  | raw text => exact makesTree_create _ _ _ _

theorem Reading.makesTrees (value : Option Reading) : (Reading.toTrees value).MakesTrees := by
  cases value with
  | none => exact makesTrees_nil
  | some r => exact r.makesTree.list

/-! ## Statements -/

theorem Assigned.makesTree (target : Lexeme) (a : Assigned) : (a.toTree target).MakesTree := by
  intro first
  have hparts := (makesTree_identifier target first).append (Reading.makesTrees a.value _)
  exact hparts.node _ _ _ _

theorem Declaration.makesTrees_initial (d : Declaration) : d.initialTrees.MakesTrees := by
  unfold initialTrees
  cases d.initial with
  | none => exact makesTrees_nil
  | some a => exact (a.makesTree d.name).list

theorem Declaration.makesTree (d : Declaration) : d.toTree.MakesTree := by
  intro first
  have hnames := (makesTree_keyword d.typeName first).append (makesTree_identifier d.name _)
  have hparts := hnames.append (d.makesTrees_initial _)
  exact hparts.node _ _ _ _

theorem Parameter.makesTree (p : Parameter) : p.toTree.MakesTree := by
  intro first
  unfold toTree
  cases p.typeName with
  | none => exact (makesTree_identifier p.name first).node _ _ _ _
  | some typeName =>
      have hnames := (makesTree_keyword typeName first).append (makesTree_identifier p.name _)
      exact hnames.node _ _ _ _

theorem FunctionHead.makesTree (f : FunctionHead) : f.toTree.MakesTree := by
  intro first
  have hparameters := makesTrees_mapM Parameter.makesTree f.parameters first
  have hreturn := hparameters.append (makesTree_keyword f.returnType _)
  have hname := hreturn.append (makesTree_identifier f.name _)
  rw [List.append_assoc] at hname
  -- the parameters have their numbers first and their place last
  have hparts := hname.perm List.perm_append_comm
  have hlist := numbered_groupIfAny hparts .parameterList "Parameters"
  exact hlist.node _ _ _ _

theorem ClauseContent.makesTree (content : ClauseContent) : content.toTree.MakesTree := by
  cases content with
  | declaration d => exact d.makesTree
  | assignment a => exact a.assigned.makesTree a.target
  | reading r => exact r.makesTree

theorem Clause.makesTree (c : Clause) : c.toTree.MakesTree :=
  c.content.makesTree.node _ _ _ _

/-- **The tree of a statement has every number that was taken for it.** -/
theorem Statement.makesTree (s : Statement) : s.toTree.MakesTree := by
  cases s with
  | declaration d => exact d.makesTree
  | function f => exact f.makesTree
  | condition word test => exact (Reading.makesTrees test).node _ _ _ _
  | forLoop clauses => exact (makesTrees_mapM Clause.makesTree clauses).node _ _ _ _
  | returning value => exact (Reading.makesTrees value).node _ _ _ _
  | assignment a => exact a.assigned.makesTree a.target
  | expression text e => exact e.makesTree.node _ _ _ _

/-! ## Programs -/

namespace Program

/-- Functions, declarations and all other statements together are all statements. -/
theorem select_perm (statements : List Statement) (trees : List Tree)
    (h : trees.length = statements.length) :
    (select Statement.isFunction statements trees ++
      select (fun s => !s.isFunction && !s.isDeclaration) statements trees ++
      select Statement.isDeclaration statements trees).Perm trees := by
  have hzip : (statements.zip trees).map (·.2) = trees := List.map_snd_zip (Nat.le_of_eq h)
  -- what is no function is either no declaration or one
  have hothers := List.filter_append_perm (fun p => !p.1.isDeclaration)
    ((statements.zip trees).filter fun p => !p.1.isFunction)
  rw [List.filter_filter, List.filter_filter] at hothers
  have hdeclared : ∀ p : Statement × Tree,
      (!!p.1.isDeclaration && !p.1.isFunction) = p.1.isDeclaration := by
    intro p
    cases p.1 <;> rfl
  simp only [hdeclared, Bool.and_comm (!Statement.isDeclaration _)] at hothers
  have hfunctions := List.filter_append_perm (fun p => p.1.isFunction) (statements.zip trees)
  have hall := ((hothers.append_left _).trans hfunctions).map (·.2)
  rw [hzip, List.map_append, List.map_append, ← List.append_assoc] at hall
  exact hall

theorem makesTrees (p : Program) : p.toTrees.MakesTrees := by
  cases p with
  | expression r =>
      intro first
      exact (r.makesTree first).node _ _ _ _
  | lines statements =>
      intro first
      have htrees := makesTrees_mapM Statement.makesTree statements first
      have hlength := length_run_mapM Statement.toTree statements first
      have hsorted := htrees.perm (select_perm statements _ hlength).symm
      have hdeclarations := numbered_groupIfAny hsorted .declarationsGroup "Declarations"
      -- the group of the declarations goes before the statements that are still to be grouped
      rw [List.append_assoc] at hdeclarations
      have hmoved := hdeclarations.perm (List.perm_append_comm.append_left _)
      rw [← List.append_assoc] at hmoved
      exact numbered_groupIfAny hmoved .statementsGroup "Statements"

end Program

/-! ## Builds -/

/-- The nodes of a tree have the numbers from one on, and `next` follows the last of them. -/
structure Tree.WellNumbered (t : Tree) (next : Int) : Prop where
  /-- The numbers are one up to the number of nodes, each once. -/
  ids : (t.walk.map Tree.id).Perm ((List.range t.walk.length).map fun (i : Nat) => (i : Int) + 1)
  /-- The next number is the one after them. -/
  next : next = (t.walk.length : Int) + 1
  /-- The root has the first number. -/
  root : t.id = 1
  /-- Every node but the root, which is the first one that a walk sees, has a greater number than
  its children. -/
  below : ∀ u ∈ t.walk.tail, ∀ child ∈ u.children, Tree.id child < Tree.id u

/-- A root with the first number completes trees that are numbered from two on. -/
theorem Tree.wellNumbered_mk {children : List Tree} {next : Int} (h : Numbered 2 children next)
    (kind : Kind) (lexeme : Lexeme) (category : Category) (synthetic : Bool) :
    (Tree.mk 1 kind lexeme category children synthetic).WellNumbered next := by
  have hwalk : (Tree.mk 1 kind lexeme category children synthetic).walk =
      Tree.mk 1 kind lexeme category children synthetic :: children.flatMap walk :=
    walk_node _ children
  have hlength : (Tree.mk 1 kind lexeme category children synthetic).walk.length =
      1 + sizeAll children := by
    rw [length_walk, Tree.mk, size]
  have hcount := h.count
  refine ⟨?_, ?_, rfl, ?_⟩
  · have hnumbers : (List.range (1 + sizeAll children)).map (fun (i : Nat) => (i : Int) + 1) =
        1 :: numbersFrom 2 (sizeAll children) := by
      have hall := numbersFrom_add 1 1 (sizeAll children)
      rw [numbersFrom_one] at hall
      simpa [numbersFrom, Int.add_comm] using hall
    rw [hlength, hnumbers]
    show (Tree.mk 1 kind lexeme category children synthetic).ids.Perm _
    rw [Tree.ids_mk]
    exact h.ids.cons 1
  · rw [hlength]
    omega
  · intro u hu
    rw [hwalk, List.tail_cons] at hu
    obtain ⟨t, ht, hut⟩ := List.mem_flatMap.mp hu
    exact h.below t ht u hut

theorem Program.wellNumbered_toTree (title : Lexeme) (p : Program) :
    ((p.toTree title).run 1).1.WellNumbered ((p.toTree title).run 1).2 :=
  Tree.wellNumbered_mk (p.makesTrees 2) _ _ _ _

namespace Assembler

/-- **The nodes of every tree that is built are numbered without gaps**, also when each of them is
made and numbered on the way. -/
theorem wellNumbered_of_ofName {settings : Settings} {frames : Nat} {name : Option String}
    {a : Assembler} (h : ofName settings frames name = .ok a) (text : String) :
    ∃ built after, a.build text = .ok (built, after) ∧ built.tree.WellNumbered built.next ∧
      OnePass.build a text = .ok (built.tree, built.next, built.warnings) := by
  obtain ⟨understood, built, after, -, hbuild, htree⟩ := build_ok (regular_of_ofName h) text
  refine ⟨built, after, hbuild, ?_, ?_⟩
  · have hnumbered := understood.program.wellNumbered_toTree a.reader.spec.title
    rw [← htree] at hnumbered
    exact hnumbered
  · rw [OnePass.build_eq, hbuild]
    rfl

/-- A declaration, a line that is dropped and a value that is kept raw leave no gap. -/
theorem wellNumbered_c : ∃ a, ofName (.ofEnvironment .empty) 1000 (some "c") = .ok a ∧
    ∃ built after, a.build "int x = 1;\n) +;\nreturn @;" = .ok (built, after) ∧
      built.tree.WellNumbered built.next ∧
      OnePass.build a "int x = 1;\n) +;\nreturn @;" =
        .ok (built.tree, built.next, built.warnings) :=
  ⟨_, ofName_label (.ofEnvironment .empty) 1000 .c,
    wellNumbered_of_ofName (ofName_label (.ofEnvironment .empty) 1000 .c) _⟩

end Assembler

end SnippetTree
