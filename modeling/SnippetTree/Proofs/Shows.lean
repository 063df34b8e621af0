import Mathlib.Data.List.Forall2
import SnippetTree.Statement.Outcome

/-!
# What trees show

A tree shows an expression or a statement if its nodes are those that the parts call for, whatever
their numbers are: a leaf for each name, keyword and value, a node for each operator and each call
above the operands, and for a statement the nodes of its parts below a node of its sort. The relation
is given apart from the functions that make trees, with the kinds, the lexemes and the categories
written out, so that it says of a node what can be read off it.

Whatever number is free, the tree that is made of an expression or of a statement shows it
(`Expr.always_shows`, `Statement.always_shows`), and an expression takes as many numbers as it has
parts (`Expr.next_toTree`).
-/

namespace SnippetTree

/-! ## What is made under any numbering -/

/-- Whatever the next free number is, what is made satisfies `P`. -/
def Numbering.Always {α : Type} (x : Numbering α) (P : α → Prop) : Prop :=
  ∀ first, P (x.run first).1

namespace Numbering

variable {α β : Type} {x : Numbering α} {P : α → Prop} {Q : β → Prop}

theorem always_pure {a : α} (h : P a) : (pure a : Numbering α).Always P :=
  fun _ => h

theorem Always.bind {f : α → Numbering β} (hx : x.Always P) (hf : ∀ a, P a → (f a).Always Q) :
    (x >>= f).Always Q :=
  fun first => hf _ (hx first) _

/-- A node has the shape that it has under every number. -/
theorem always_create {R : Tree → Prop} {kind : Kind} {lexeme : Lexeme} {category : Category}
    {children : List Tree} {synthetic : Bool}
    (h : ∀ id, R (.mk id kind lexeme category children synthetic)) :
    (create kind lexeme category children synthetic).Always R :=
  fun first => h first

theorem always_mapM {f : α → Numbering β} {R : α → β → Prop} {as : List α}
    (h : ∀ a ∈ as, (f a).Always (R a)) : (as.mapM f).Always (List.Forall₂ R as) := by
  induction as with
  | nil => exact fun _ => .nil
  | cons a as ih =>
      intro first
      rw [List.mapM_cons]
      exact .cons (h a (by simp) first) (ih (fun b hb => h b (List.mem_cons_of_mem _ hb)) _)

end Numbering

open SnippetTree.Numbering

/-! ## Expressions -/

namespace Expr

mutual

/-- The tree shows the expression. An operator that lacks an operand has only the other one. -/
inductive Shows : Expr → Tree → Prop where
  | identifier (id : Int) (name : Lexeme) :
      Shows (.identifier name) (.mk id .identifier name .identifier [] false)
  | keyword (id : Int) (word : Lexeme) :
      Shows (.keyword word) (.mk id .keyword word .keyword [] false)
  | constant (id : Int) (text : Lexeme) :
      Shows (.constant text) (.mk id .constant text .constant [] false)
  | placeholder (id : Int) : Shows .placeholder (.mk id .identifier "" .identifier [] false)
  | unary (id : Int) (operator : Lexeme) {e : Expr} {t : Tree} : Shows e t →
      Shows (.unary operator e) (.mk id .unaryOp operator .operator [t] false)
  | binary (id : Int) (operator : Lexeme) {l r : Expr} {t u : Tree} : Shows l t → Shows r u →
      Shows (.binary operator l r) (.mk id .binaryOp operator .operator [t, u] false)
  | leftOnly (id : Int) (operator : Lexeme) {e : Expr} {t : Tree} : Shows e t →
      Shows (.leftOnly operator e) (.mk id .binaryOp operator .operator [t] false)
  | rightOnly (id : Int) (operator : Lexeme) {e : Expr} {t : Tree} : Shows e t →
      Shows (.rightOnly operator e) (.mk id .binaryOp operator .operator [t] false)
  | call (id : Int) (callee : Lexeme) {es : List Expr} {ts : List Tree} : ShowsAll es ts →
      Shows (.call callee es) (.mk id .call callee .identifier ts false)

/-- The trees show the expressions, one by one. -/
inductive ShowsAll : List Expr → List Tree → Prop where
  | nil : ShowsAll [] []
  | cons {e : Expr} {t : Tree} {es : List Expr} {ts : List Tree} :
      Shows e t → ShowsAll es ts → ShowsAll (e :: es) (t :: ts)

end

mutual

/-- **Whatever number is free, the tree of an expression shows it.** -/
theorem always_shows : ∀ e : Expr, e.toTree.Always e.Shows
  | .identifier name => always_create fun id => .identifier id name
  | .keyword word => always_create fun id => .keyword id word
  | .constant text => always_create fun id => .constant id text
  | .placeholder => always_create fun id => .placeholder id
  | .unary operator e =>
      (always_shows e).bind fun _ he => always_create fun id => .unary id operator he
  | .leftOnly operator e =>
      (always_shows e).bind fun _ he => always_create fun id => .leftOnly id operator he
  | .rightOnly operator e =>
      (always_shows e).bind fun _ he => always_create fun id => .rightOnly id operator he
  | .binary operator l r =>
      (always_shows l).bind fun _ hl => (always_shows r).bind fun _ hr =>
        always_create fun id => .binary id operator hl hr
  | .call callee es =>
      (always_showsAll es).bind fun _ hes => always_create fun id => .call id callee hes

theorem always_showsAll : ∀ es : List Expr, (toTrees es).Always (ShowsAll es)
  | [] => always_pure .nil
  | e :: es =>
      (always_shows e).bind fun _ he => (always_showsAll es).bind fun _ hes =>
        always_pure (.cons he hes)

end

mutual

/-- An expression takes one number for each of its parts. -/
theorem next_toTree : ∀ (e : Expr) (first : Int), (e.toTree.run first).2 = first + e.size
  | .identifier _, _ => rfl
  | .keyword _, _ => rfl
  | .constant _, _ => rfl
  | .placeholder, _ => rfl
  | .unary _ e, first | .leftOnly _ e, first | .rightOnly _ e, first => by
      have he := next_toTree e first
      show (e.toTree.run first).2 + 1 = first + ((e.size + 1 : Nat) : Int)
      omega
  | .binary _ l r, first => by
      have hl := next_toTree l first
      have hr := next_toTree r (l.toTree.run first).2
      show (r.toTree.run (l.toTree.run first).2).2 + 1 =
        first + ((l.size + r.size + 1 : Nat) : Int)
      omega
  | .call _ es, first => by
      have hes := next_toTrees es first
      show ((toTrees es).run first).2 + 1 = first + ((sizeAll es + 1 : Nat) : Int)
      omega

theorem next_toTrees : ∀ (es : List Expr) (first : Int),
    ((toTrees es).run first).2 = first + sizeAll es
  | [], first => (Int.add_zero first).symm
  | e :: es, first => by
      have he := next_toTree e first
      have hes := next_toTrees es (e.toTree.run first).2
      show ((toTrees es).run (e.toTree.run first).2).2 = first + ((e.size + sizeAll es : Nat) : Int)
      omega

end

/-- Where an expression was found, there is a tree that shows it, and the number that is free after
the tree is as many later as the expression has parts. -/
theorem numbered_shows {e? : Option Expr} {e : Expr} (h : e? = some e) (first : Int) :
    ∃ t, numbered e? first = (some t, first + e.size) ∧ e.Shows t := by
  refine ⟨(e.toTree.run first).1, ?_, e.always_shows first⟩
  rw [h, numbered_some, next_toTree]

end Expr

/-! ## Statements -/

/-- The tree shows what a text was read as; a raw text is shown as it was written. -/
inductive Reading.Shows : Reading → Tree → Prop where
  | expr {e : Expr} {t : Tree} : e.Shows t → Shows (.expr e) t
  | raw (id : Int) (text : Lexeme) : Shows (.raw text) (.mk id .expression text .constant [] false)

/-- The tree shows the assignment of a value, if there is one, to a target. -/
inductive Assigned.Shows (target : Lexeme) : Assigned → Tree → Prop where
  | mk (id targetId : Int) (operator : AssignOp) {value : Option Reading} {values : List Tree} :
      List.Forall₂ Reading.Shows value.toList values →
      Shows target ⟨operator, value⟩ (.mk id .assignment operator.text .operator
        (.mk targetId .identifier target .identifier [] false :: values) false)

/-- The tree shows the type, the name, and the assignment of the initial value, if there is one, to
that name. -/
inductive Declaration.Shows : Declaration → Tree → Prop where
  | mk (id typeId nameId : Int) (typeName name : Lexeme) {initial : Option Assigned}
      {trees : List Tree} : List.Forall₂ (Assigned.Shows name) initial.toList trees →
      Shows ⟨typeName, name, initial⟩
        (.mk id .variableDeclaration ("Variable: " ++ name) .identifier
          (.mk typeId .keyword typeName .keyword [] false ::
            .mk nameId .identifier name .identifier [] false :: trees) false)

/-- The tree of a parameter shows its type, if it has one, and its name, and nothing else. -/
inductive Parameter.Shows : Parameter → Tree → Prop where
  | bare (id nameId : Int) (name : Lexeme) :
      Shows ⟨none, name⟩ (.mk id .declaration name .identifier
        [.mk nameId .identifier name .identifier [] false] false)
  | typed (id typeId nameId : Int) (typeName name : Lexeme) :
      Shows ⟨some typeName, name⟩ (.mk id .declaration name .identifier
        [.mk typeId .keyword typeName .keyword [] false,
          .mk nameId .identifier name .identifier [] false] false)

/-- The tree of the head of a function shows the return type and the name, and then the parameters
in one list, which is not there if there are none. -/
inductive FunctionHead.Shows : FunctionHead → Tree → Prop where
  | bare (id typeId nameId : Int) (returnType name : Lexeme) :
      Shows ⟨returnType, name, []⟩ (.mk id .functionDeclaration ("Function: " ++ name) .identifier
        [.mk typeId .keyword returnType .keyword [] false,
          .mk nameId .identifier name .identifier [] false] false)
  | list (id typeId nameId listId : Int) (returnType name : Lexeme) {parameters : List Parameter}
      {trees : List Tree} : parameters ≠ [] → List.Forall₂ Parameter.Shows parameters trees →
      Shows ⟨returnType, name, parameters⟩
        (.mk id .functionDeclaration ("Function: " ++ name) .identifier
          [.mk typeId .keyword returnType .keyword [] false,
            .mk nameId .identifier name .identifier [] false,
            .mk listId .parameterList "Parameters" .keyword trees true] false)

/-- The tree shows what a clause holds. -/
inductive ClauseContent.Shows : ClauseContent → Tree → Prop where
  | declaration {d : Declaration} {t : Tree} : d.Shows t → Shows (.declaration d) t
  | assignment {a : Assignment} {t : Tree} : a.assigned.Shows a.target t → Shows (.assignment a) t
  | reading {r : Reading} {t : Tree} : r.Shows t → Shows (.reading r) t

/-- The tree shows the role of a clause, above what the clause holds. -/
inductive Clause.Shows : Clause → Tree → Prop where
  | mk (id : Int) (role : ClauseRole) {content : ClauseContent} {t : Tree} : content.Shows t →
      Shows ⟨role, content⟩ (.mk id .expression role.label .keyword [t] true)

/-- The tree shows the statement. -/
inductive Statement.Shows : Statement → Tree → Prop where
  | declaration {d : Declaration} {t : Tree} : d.Shows t → Shows (.declaration d) t
  | function {f : FunctionHead} {t : Tree} : f.Shows t → Shows (.function f) t
  | whileLoop (id : Int) {test : Option Reading} {trees : List Tree} :
      List.Forall₂ Reading.Shows test.toList trees →
      Shows (.condition .whileWord test) (.mk id .whileLoop "while" .keyword trees false)
  | conditional (id : Int) {word : ConditionWord} {test : Option Reading} {trees : List Tree} :
      word ≠ .whileWord → List.Forall₂ Reading.Shows test.toList trees →
      Shows (.condition word test) (.mk id .conditional word.text .keyword trees false)
  | forLoop (id : Int) {clauses : List Clause} {trees : List Tree} :
      List.Forall₂ Clause.Shows clauses trees →
      Shows (.forLoop clauses) (.mk id .forLoop "for" .keyword trees false)
  | returning (id : Int) {value : Option Reading} {trees : List Tree} :
      List.Forall₂ Reading.Shows value.toList trees →
      Shows (.returning value) (.mk id .returning "return" .keyword trees false)
  | assignment {a : Assignment} {t : Tree} : a.assigned.Shows a.target t → Shows (.assignment a) t
  | expression (id : Int) (text : Lexeme) {e : Expr} {t : Tree} : e.Shows t →
      Shows (.expression text e) (.mk id .statement text .identifier [t] false)

theorem Reading.always_shows (r : Reading) : r.toTree.Always r.Shows := by
  cases r with
  | expr e => exact fun first => .expr (e.always_shows first)
  | raw text => exact always_create fun id => .raw id text

theorem Reading.always_showsIfAny (value : Option Reading) :
    (Reading.toTrees value).Always (List.Forall₂ Reading.Shows value.toList) := by
  cases value with
  | none => exact always_pure .nil
  | some r => exact r.always_shows.bind fun _ h => always_pure (.cons h .nil)

theorem Assigned.always_shows (target : Lexeme) (a : Assigned) :
    (a.toTree target).Always (a.Shows target) :=
  fun _ => .mk _ _ a.operator (Reading.always_showsIfAny a.value _)

theorem Declaration.always_shows (d : Declaration) : d.toTree.Always d.Shows := by
  intro first
  obtain ⟨typeName, name, initial⟩ := d
  cases initial with
  | none => exact .mk _ _ _ typeName name .nil
  | some a => exact .mk _ _ _ typeName name (.cons (a.always_shows name _) .nil)

theorem Parameter.always_shows (p : Parameter) : p.toTree.Always p.Shows := by
  intro first
  obtain ⟨typeName, name⟩ := p
  cases typeName with
  | none => exact .bare _ _ name
  | some typeName => exact .typed _ _ _ typeName name

theorem FunctionHead.always_shows (f : FunctionHead) : f.toTree.Always f.Shows := by
  intro first
  obtain ⟨returnType, name, parameters⟩ := f
  have htrees : List.Forall₂ Parameter.Shows parameters
      ((parameters.mapM Parameter.toTree).run first).1 :=
    always_mapM (fun p _ => p.always_shows) first
  rw [FunctionHead.toTree, run_bind]
  generalize (parameters.mapM Parameter.toTree).run first = made at htrees ⊢
  obtain ⟨trees, next⟩ := made
  cases htrees with
  | nil => exact .bare _ _ _ returnType name
  | cons hp hps => exact .list _ _ _ _ returnType name (List.cons_ne_nil _ _) (.cons hp hps)

theorem Clause.always_shows (c : Clause) : c.toTree.Always c.Shows := by
  have hcontent : c.content.toTree.Always c.content.Shows := by
    cases c.content with
    | declaration d => exact fun first => .declaration (d.always_shows first)
    | assignment a => exact fun first => .assignment (a.assigned.always_shows a.target first)
    | reading r => exact fun first => .reading (r.always_shows first)
  exact hcontent.bind fun _ h => always_create fun id => .mk id c.role h

/-- **Whatever number is free, the tree of a statement shows it.** -/
theorem Statement.always_shows (s : Statement) : s.toTree.Always s.Shows := by
  intro first
  cases s with
  | declaration d => exact .declaration (d.always_shows first)
  | function f => exact .function (f.always_shows first)
  | condition word test =>
      have htest := Reading.always_showsIfAny test first
      cases word with
      | whileWord => exact .whileLoop _ htest
      | ifWord => exact .conditional _ nofun htest
      | elifWord => exact .conditional _ nofun htest
      | elseIfWord => exact .conditional _ nofun htest
  | forLoop clauses => exact .forLoop _ (always_mapM (fun c _ => c.always_shows) first)
  | returning value => exact .returning _ (Reading.always_showsIfAny value first)
  | assignment a => exact .assignment (a.assigned.always_shows a.target first)
  | expression text e => exact .expression _ text (e.always_shows first)

/-- A line that is kept has a node, and the node shows its statement. -/
theorem Reader.nodeFrom_of_kept {r : Reader} {rules : List Rule} {line : Text} {rule : Rule}
    {s : Statement} {problems : List Problem}
    (h : r.classify rules line = .ok (.kept rule s problems)) (first : Int) :
    ∃ t next, r.nodeFrom rules line first = .ok ⟨(some t, next), problems⟩ ∧ s.Shows t := by
  refine ⟨(s.toTree.run first).1, (s.toTree.run first).2, ?_, s.always_shows first⟩
  rw [nodeFrom, h]
  rfl

end SnippetTree
