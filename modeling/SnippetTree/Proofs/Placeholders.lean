import SnippetTree.Proofs.BuildNumbered
import SnippetTree.Proofs.Defects

/-!
# Defects in the tree of a program

The trees of statements are put together from the trees of expressions and from names. A name may
be empty, as where nothing stands before an equals sign, and it is no operand then: a placeholder is
an empty name that stands neither for the target of an assignment nor for what a declaration
declares. This file shows that a program has the defects of its expressions and no others
(`Program.always_bears`): neither the nodes of statements nor the regrouping of lines adds or hides
any.
-/

namespace SnippetTree

/-! ## Placeholders -/

namespace Tree

/-- The children of the root that name nothing: all but the target of an assignment, and all but the
name that is declared. -/
def operands (t : Tree) : List Tree :=
  match t.value.kind with
  | .assignment => t.children.tail
  | .variableDeclaration | .functionDeclaration => t.children.eraseIdx 1
  | .declaration => t.children.dropLast
  | _ => t.children

/-- The number of empty names below the root that name nothing. -/
def placeholdersBelow (t : Tree) : Nat :=
  (t.walk.flatMap operands).countP isGap

/-- The number of empty names that stand for an operand. -/
def placeholders (t : Tree) : Nat :=
  (t :: t.walk.flatMap operands).countP isGap

theorem placeholders_eq (t : Tree) :
    t.placeholders = t.placeholdersBelow + if t.isGap then 1 else 0 :=
  List.countP_cons

theorem sum_placeholders (ts : List Tree) :
    (ts.map placeholders).sum = ts.countP isGap + (ts.map placeholdersBelow).sum := by
  induction ts with
  | nil => rfl
  | cons t ts ih =>
      rw [List.map_cons, List.map_cons, List.sum_cons, List.sum_cons, List.countP_cons,
        placeholders_eq, ih]
      omega

section Node

variable (id : Int) (kind : Kind) (lexeme : Lexeme) (category : Category) (synthetic : Bool)

theorem placeholdersBelow_mk (children : List Tree) :
    (mk id kind lexeme category children synthetic).placeholdersBelow =
      (operands (mk id kind lexeme category children synthetic)).countP isGap +
        (children.map placeholdersBelow).sum := by
  rw [placeholdersBelow, mk, Rose.walk_node, List.flatMap_cons, List.countP_append,
    List.flatMap_assoc, List.countP_flatMap]
  rfl

theorem placeholders_mk {children : List Tree}
    (hoperands : operands (mk id kind lexeme category children synthetic) = children) :
    (mk id kind lexeme category children synthetic).placeholders =
      (children.map placeholders).sum +
        if isGap (mk id kind lexeme category children synthetic) then 1 else 0 := by
  rw [placeholders_eq, placeholdersBelow_mk, hoperands, sum_placeholders]

end Node

/-- In the tree of an expression nothing is named, so every empty name stands for an operand. -/
theorem IsParsed.placeholders_eq_gaps {t : Tree} (h : IsParsed t) : t.placeholders = t.gaps := by
  induction h with
  | identifier id name => rw [placeholders_mk _ _ _ _ _ rfl, gaps_mk]; rfl
  | keyword id word => rw [placeholders_mk _ _ _ _ _ rfl, gaps_mk]; rfl
  | constant id text => rw [placeholders_mk _ _ _ _ _ rfl, gaps_mk]; rfl
  | unary id operator _ ih =>
      rw [placeholders_mk _ _ _ _ _ rfl, gaps_mk, List.map_singleton, ih]
      rfl
  | binary id operator _ _ ihl ihr =>
      rw [placeholders_mk _ _ _ _ _ rfl, gaps_mk, List.map_cons, List.map_singleton, ihl,
        ihr]
      rfl
  | oneSided id operator _ ih =>
      rw [placeholders_mk _ _ _ _ _ rfl, gaps_mk, List.map_singleton, ih]
      rfl
  | call id callee _ ih =>
      rw [placeholders_mk _ _ _ _ _ rfl, gaps_mk, List.map_congr_left ih]

end Tree

/-! ## The expressions of a program -/

namespace Expr

theorem gapsAll_eq (es : List Expr) : gapsAll es = (es.map gaps).sum := by
  induction es with
  | nil => rfl
  | cons e es ih => rw [gapsAll, ih, List.map_cons, List.sum_cons]

theorem oneSidedAll_eq (es : List Expr) : oneSidedAll es = es.flatMap oneSided := by
  induction es with
  | nil => rfl
  | cons e es ih => rw [oneSidedAll, ih, List.flatMap_cons]

end Expr

/-- The expression of a reading, unless the text was kept raw. -/
def Reading.exprs : Reading → List Expr
  | expr e => [e]
  | raw _ => []

/-- The expression that is assigned, if there is one. -/
def Assigned.exprs (a : Assigned) : List Expr :=
  a.value.elim [] Reading.exprs

/-- The expression of the initial value, if there is one. -/
def Declaration.exprs (d : Declaration) : List Expr :=
  d.initial.elim [] Assigned.exprs

/-- The expression of a clause, if there is one. -/
def ClauseContent.exprs : ClauseContent → List Expr
  | declaration d => d.exprs
  | assignment a => a.assigned.exprs
  | reading r => r.exprs

/-- The expressions of a statement. -/
def Statement.exprs : Statement → List Expr
  | declaration d => d.exprs
  | function _ => []
  | condition _ test => test.elim [] Reading.exprs
  | forLoop clauses => clauses.flatMap fun clause => clause.content.exprs
  | returning value => value.elim [] Reading.exprs
  | assignment a => a.assigned.exprs
  | expression _ e => [e]

/-- The expressions of a program. -/
def Program.exprs : Program → List Expr
  | expression r => r.exprs
  | lines statements => statements.flatMap Statement.exprs

/-! ## Trees that have the defects of expressions -/

/-- The kinds of nodes that show a defect: operators, and empty names. -/
def Kind.showsDefect : Kind → Bool
  | unaryOp | binaryOp | identifier => true
  | _ => false

namespace Tree

/-- The trees have the defects of the expressions and no others. -/
structure Bear (ts : List Tree) (es : List Expr) : Prop where
  arity : ∀ t ∈ ts, t.Arity
  oneSided : (ts.flatMap Tree.oneSided).Perm (es.flatMap Expr.oneSided)
  placeholders : (ts.map Tree.placeholders).sum = (es.map Expr.gaps).sum

namespace Bear

variable {ts us : List Tree} {es fs : List Expr}

theorem nil : Bear [] [] :=
  ⟨by simp, .nil, rfl⟩

theorem append (h : Bear ts es) (h' : Bear us fs) : Bear (ts ++ us) (es ++ fs) where
  arity := List.forall_mem_append.mpr ⟨h.arity, h'.arity⟩
  oneSided := by
    rw [List.flatMap_append, List.flatMap_append]
    exact h.oneSided.append h'.oneSided
  placeholders := by
    rw [List.map_append, List.map_append, List.sum_append, List.sum_append, h.placeholders,
      h'.placeholders]

theorem perm (h : Bear ts es) (hperm : us.Perm ts) : Bear us es where
  arity := fun t ht => h.arity t (hperm.mem_iff.mp ht)
  oneSided := (hperm.flatMap_right Tree.oneSided).trans h.oneSided
  placeholders := (hperm.map Tree.placeholders).sum_nat.trans h.placeholders

theorem flatMap {α : Type} {as : List α} {exprs : α → List Expr}
    (h : List.Forall₂ (fun a t => Bear [t] (exprs a)) as ts) : Bear ts (as.flatMap exprs) := by
  induction h with
  | nil => exact nil
  | cons hhead _ ih => exact hhead.append ih

section Root

variable {id : Int} {kind : Kind} {lexeme : Lexeme} {category : Category} {synthetic : Bool}
  (hkind : kind.showsDefect = false)

include hkind

theorem arity_root (h : ∀ t ∈ ts, t.Arity) :
    (Tree.mk id kind lexeme category ts synthetic).Arity := by
  intro u hu
  rw [Tree.mk, Rose.walk_node, List.mem_cons, List.mem_flatMap] at hu
  rcases hu with rfl | ⟨t, ht, hu⟩
  · constructor <;> (intro heq; obtain rfl : kind = _ := heq; cases hkind)
  · exact h t ht u hu

theorem oneSided_root (ts : List Tree) :
    (Tree.mk id kind lexeme category ts synthetic).oneSided = ts.flatMap Tree.oneSided := by
  have hroot : isOneSided (Tree.mk id kind lexeme category ts synthetic) = false := by
    cases kind <;> first | rfl | cases hkind
  rw [oneSided_mk, hroot]
  rfl

theorem placeholders_root (ts : List Tree) :
    (Tree.mk id kind lexeme category ts synthetic).placeholders =
      (Tree.mk id kind lexeme category ts synthetic).operands.countP isGap +
        (ts.map placeholdersBelow).sum := by
  have hroot : isGap (Tree.mk id kind lexeme category ts synthetic) = false := by
    cases kind <;> first | rfl | cases hkind
  rw [placeholders_eq, hroot, placeholdersBelow_mk]
  rfl

/-- A node that is no operator and names nothing has no defect of its own. -/
theorem gather (us : List Tree)
    (hoperands : (Tree.mk id kind lexeme category ts synthetic).operands = ts)
    (h : Bear (us ++ ts) es) : Bear (us ++ [Tree.mk id kind lexeme category ts synthetic]) es where
  arity := by
    obtain ⟨hus, hts⟩ := List.forall_mem_append.mp h.arity
    exact List.forall_mem_append.mpr ⟨hus, List.forall_mem_singleton.mpr (arity_root hkind hts)⟩
  oneSided := by
    rw [List.flatMap_append, List.flatMap_singleton, oneSided_root hkind, ← List.flatMap_append]
    exact h.oneSided
  placeholders := by
    rw [List.map_append, List.map_singleton, List.sum_append, List.sum_singleton,
      placeholders_root hkind, hoperands, ← sum_placeholders, ← List.sum_append,
      ← List.map_append]
    exact h.placeholders

theorem node (hoperands : (Tree.mk id kind lexeme category ts synthetic).operands = ts)
    (h : Bear ts es) : Bear [Tree.mk id kind lexeme category ts synthetic] es :=
  gather hkind [] hoperands h

/-- The name that a node gives to something is not counted. -/
theorem naming (before : List Tree) {after : List Tree} {nameId : Int} {name : Lexeme}
    (hoperands : (Tree.mk id kind lexeme category
      (before ++ Tree.mk nameId .identifier name .identifier [] false :: after)
        synthetic).operands = before ++ after) (h : Bear (before ++ after) es) :
    Bear [Tree.mk id kind lexeme category
      (before ++ Tree.mk nameId .identifier name .identifier [] false :: after) synthetic] es where
  arity := by
    obtain ⟨hbefore, hafter⟩ := List.forall_mem_append.mp h.arity
    refine List.forall_mem_singleton.mpr (arity_root hkind ?_)
    rw [List.forall_mem_append, List.forall_mem_cons]
    exact ⟨hbefore, (IsParsed.identifier nameId name).arityAll, hafter⟩
  oneSided := by
    have hname : (Tree.mk nameId .identifier name .identifier [] false).oneSided = [] :=
      oneSided_mk nameId .identifier name .identifier [] false
    rw [List.flatMap_singleton, oneSided_root hkind, List.flatMap_append, List.flatMap_cons, hname,
      List.nil_append, ← List.flatMap_append]
    exact h.oneSided
  placeholders := by
    have hname : (Tree.mk nameId .identifier name .identifier [] false).placeholdersBelow = 0 :=
      placeholdersBelow_mk nameId .identifier name .identifier false []
    rw [List.map_singleton, List.sum_singleton, placeholders_root hkind, hoperands,
      List.map_append, List.map_cons, List.sum_append, List.sum_cons, hname, Nat.zero_add,
      ← List.sum_append, ← List.map_append, ← sum_placeholders]
    exact h.placeholders

end Root

end Bear

end Tree

/-! ## Trees of statements -/

open SnippetTree.Numbering
open SnippetTree.Tree (Bear)

theorem Expr.always_bears (e : Expr) : e.toTree.Always fun t => Bear [t] [e] := by
  intro first
  obtain ⟨hgaps, honeSided⟩ := e.always_defects first
  have hparsed := e.always_parsed first
  refine ⟨List.forall_mem_singleton.mpr hparsed.arityAll, ?_, ?_⟩
  · rw [List.flatMap_singleton, List.flatMap_singleton, honeSided]
  · rw [List.map_singleton, List.map_singleton, hparsed.placeholders_eq_gaps, hgaps]

theorem Reading.always_bears (r : Reading) : r.toTree.Always fun t => Bear [t] r.exprs := by
  cases r with
  | expr e => exact e.always_bears
  | raw text => exact always_create fun id => Bear.node rfl rfl .nil

theorem Reading.always_bearsIfAny (r : Option Reading) :
    (Reading.toTrees r).Always fun ts => Bear ts (r.elim [] Reading.exprs) := by
  cases r with
  | none => exact always_pure .nil
  | some r => exact r.always_bears.bind fun _ ht => always_pure ht

namespace Numbering

/-- A keyword bears nothing. -/
theorem always_bearsKeyword (word : Lexeme) : (keyword word).Always fun t => Bear [t] [] :=
  always_create fun _ => Bear.node rfl rfl .nil

/-- What is made one after the other bears what each bears. -/
theorem always_bearAll {α : Type} {f : α → Numbering Tree} {exprs : α → List Expr}
    (h : ∀ a, (f a).Always fun t => Bear [t] (exprs a)) (as : List α) :
    (as.mapM f).Always fun ts => Bear ts (as.flatMap exprs) :=
  fun first => Bear.flatMap (always_mapM (fun a _ => h a) first)

/-- Trees that are held may be put into a group, if there are any. -/
theorem always_bearGroup (kind : Kind) (hkind : kind.isGroup = true) (label : Lexeme)
    {us ts : List Tree} {es : List Expr} (h : Bear (us ++ ts) es) :
    (groupIfAny kind label ts).Always fun grouped => Bear (us ++ grouped) es := by
  intro first
  unfold groupIfAny
  cases ts with
  | nil => exact h
  | cons t ts => cases kind <;> first | exact Bear.gather rfl us rfl h | cases hkind

end Numbering

/-- An assignment names its target. -/
theorem Assigned.always_bears (target : Lexeme) (a : Assigned) :
    (a.toTree target).Always fun t => Bear [t] a.exprs := by
  intro first
  exact Bear.naming rfl [] rfl (Reading.always_bearsIfAny a.value _)

namespace Declaration

theorem always_bearsInitial (d : Declaration) :
    d.initialTrees.Always fun ts => Bear ts d.exprs := by
  unfold initialTrees exprs
  cases d.initial with
  | none => exact always_pure .nil
  | some a => exact (a.always_bears d.name).bind fun _ ht => always_pure ht

/-- A declaration names what it declares, after the type. -/
theorem always_bears (d : Declaration) : d.toTree.Always fun t => Bear [t] d.exprs := by
  refine (always_bearsKeyword d.typeName).bind fun typeName htype => ?_
  intro first
  exact Bear.naming rfl [typeName] rfl (htype.append (d.always_bearsInitial _))

end Declaration

theorem Parameter.always_bears (p : Parameter) : p.toTree.Always fun t => Bear [t] [] := by
  intro first
  unfold toTree
  cases p.typeName with
  | none => exact Bear.naming rfl [] rfl .nil
  | some typeName => exact Bear.naming rfl [_] rfl (always_bearsKeyword typeName first)

/-- A function is named, and so are its parameters. -/
theorem FunctionHead.always_bears (f : FunctionHead) : f.toTree.Always fun t => Bear [t] [] := by
  refine (always_bearAll Parameter.always_bears f.parameters).bind fun parameters hparameters =>
    (always_bearsKeyword f.returnType).bind fun returnType hreturn => ?_
  rw [List.flatMap_eq_nil_iff.mpr fun _ _ => rfl] at hparameters
  intro first
  have hlist := always_bearGroup .parameterList rfl "Parameters" (hreturn.append hparameters)
  exact Bear.naming rfl [returnType] rfl (hlist _)

theorem ClauseContent.always_bears (content : ClauseContent) :
    content.toTree.Always fun t => Bear [t] content.exprs := by
  cases content with
  | declaration d => exact d.always_bears
  | assignment a => exact a.assigned.always_bears a.target
  | reading r => exact r.always_bears

theorem Clause.always_bears (c : Clause) : c.toTree.Always fun t => Bear [t] c.content.exprs :=
  c.content.always_bears.bind fun _ ht => always_create fun _ => Bear.node rfl rfl ht

/-- **The tree of a statement has the defects of its expressions and no others.** -/
theorem Statement.always_bears (s : Statement) : s.toTree.Always fun t => Bear [t] s.exprs := by
  cases s with
  | declaration d => exact d.always_bears
  | function f => exact f.always_bears
  | condition word test =>
      refine (Reading.always_bearsIfAny test).bind fun ts hts => always_create fun id => ?_
      cases word <;> exact Bear.node rfl rfl hts
  | forLoop clauses =>
      exact (always_bearAll Clause.always_bears clauses).bind fun _ hts =>
        always_create fun _ => Bear.node rfl rfl hts
  | returning value =>
      exact (Reading.always_bearsIfAny value).bind fun _ hts =>
        always_create fun _ => Bear.node rfl rfl hts
  | assignment a => exact a.assigned.always_bears a.target
  | expression text e =>
      exact e.always_bears.bind fun _ ht => always_create fun _ => Bear.node rfl rfl ht

/-! ## Trees of programs -/

namespace Program

theorem always_bearTrees (p : Program) : p.toTrees.Always fun ts => Bear ts p.exprs := by
  cases p with
  | expression r =>
      exact r.always_bears.bind fun _ ht first => Bear.node rfl rfl ht
  | lines statements =>
      intro first
      have htrees := always_bearAll Statement.always_bears statements first
      have hlength := length_run_mapM Statement.toTree statements first
      have hsorted := htrees.perm (select_perm statements _ hlength)
      have hdeclarations :=
        always_bearGroup .declarationsGroup rfl "Declarations" hsorted
          ((statements.mapM Statement.toTree).run first).2
      -- the group of the declarations goes before the statements that are still to be grouped
      beta_reduce at hdeclarations
      rw [List.append_assoc] at hdeclarations
      have hmoved := hdeclarations.perm (List.perm_append_comm.append_left _)
      rw [← List.append_assoc] at hmoved
      exact always_bearGroup .statementsGroup rfl "Statements" hmoved _

/-- **The tree of a program has the defects of its expressions and no others.** -/
theorem always_bears (title : Lexeme) (p : Program) :
    (p.toTree title).Always fun t => Bear [t] p.exprs := by
  intro first
  exact Bear.node rfl rfl (p.always_bearTrees _)

end Program

end SnippetTree
