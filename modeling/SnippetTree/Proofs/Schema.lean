import SnippetTree.Proofs.NoFault
import SnippetTree.Proofs.Outcomes
import SnippetTree.Proofs.Shows

/-!
# The shape of finished trees

Whoever reads a tree that was built sees nodes and no statements. This file says which trees there
can be, in terms of nodes only: what kind, category and marks a node has, how many children, and of
which shape these are. The numbers of the nodes are left open, and so are the words.

The types of statements already exclude most other trees, so the proof goes through them function by
function. Whatever is made under any numbering has a shape (`Numbering.Always`), and the shape of
a whole is put together from the shapes of its parts. Only the roles of the clauses of a loop do not
follow from its type; they come from the header that it was read from (`Statement.Ordered`).
-/

namespace SnippetTree

open SnippetTree.Numbering

/-! ## Shapes -/

namespace Tree

/-- The tree of an expression that was parsed. Only damaged expressions have a binary operator with
one operand. -/
inductive IsParsed : Tree → Prop where
  | identifier (id : Int) (name : Lexeme) :
      IsParsed (.mk id .identifier name .identifier [] false)
  | keyword (id : Int) (word : Lexeme) : IsParsed (.mk id .keyword word .keyword [] false)
  | constant (id : Int) (text : Lexeme) : IsParsed (.mk id .constant text .constant [] false)
  | unary (id : Int) (operator : Lexeme) {operand : Tree} :
      IsParsed operand → IsParsed (.mk id .unaryOp operator .operator [operand] false)
  | binary (id : Int) (operator : Lexeme) {left right : Tree} :
      IsParsed left → IsParsed right →
      IsParsed (.mk id .binaryOp operator .operator [left, right] false)
  | oneSided (id : Int) (operator : Lexeme) {operand : Tree} :
      IsParsed operand → IsParsed (.mk id .binaryOp operator .operator [operand] false)
  | call (id : Int) (callee : Lexeme) {arguments : List Tree} :
      (∀ argument ∈ arguments, IsParsed argument) →
      IsParsed (.mk id .call callee .identifier arguments false)

/-- An expression: parsed, or raw text in a single node. -/
inductive IsExpression : Tree → Prop where
  | parsed {t : Tree} : t.IsParsed → IsExpression t
  | raw (id : Int) (text : Lexeme) : IsExpression (.mk id .expression text .constant [] false)

/-- At most one expression. -/
structure AtMostOneExpression (ts : List Tree) : Prop where
  length : ts.length ≤ 1
  expressions : ∀ t ∈ ts, t.IsExpression

/-- At most one group, which is not empty and whose members all satisfy `P`. -/
inductive AtMostOneGroup (kind : Kind) (label : Lexeme) (P : Tree → Prop) : List Tree → Prop where
  | none : AtMostOneGroup kind label P []
  | one (id : Int) {members : List Tree} : members ≠ [] → (∀ t ∈ members, P t) →
      AtMostOneGroup kind label P [.mk id kind label .keyword members true]

/-- The operators that assign. -/
def assignOperators : List Lexeme := ["=", "+=", "-=", "*=", "/=", "%="]

/-- An assignment to a target: an operator, the target as a name, and at most one value. -/
inductive IsAssignment (target : Lexeme) : Tree → Prop where
  | mk (id targetId : Int) {operator : Lexeme} {values : List Tree} :
      operator ∈ assignOperators → AtMostOneExpression values →
      IsAssignment target (.mk id .assignment operator .operator
        (.mk targetId .identifier target .identifier [] false :: values) false)

/-- A declaration of a variable: a type, a name, and possibly an assignment to that name. -/
inductive IsVariable : Tree → Prop where
  | bare (id typeId nameId : Int) (typeName name : Lexeme) :
      IsVariable (.mk id .variableDeclaration ("Variable: " ++ name) .identifier
        [.mk typeId .keyword typeName .keyword [] false,
          .mk nameId .identifier name .identifier [] false] false)
  | initialised (id typeId nameId : Int) (typeName name : Lexeme) {initial : Tree} :
      initial.IsAssignment name →
      IsVariable (.mk id .variableDeclaration ("Variable: " ++ name) .identifier
        [.mk typeId .keyword typeName .keyword [] false,
          .mk nameId .identifier name .identifier [] false, initial] false)

/-- A parameter: a name, possibly with a type before it. It has the lexeme of its name. -/
inductive IsParameter : Tree → Prop where
  | bare (id nameId : Int) (name : Lexeme) :
      IsParameter (.mk id .declaration name .identifier
        [.mk nameId .identifier name .identifier [] false] false)
  | typed (id typeId nameId : Int) (typeName name : Lexeme) :
      IsParameter (.mk id .declaration name .identifier
        [.mk typeId .keyword typeName .keyword [] false,
          .mk nameId .identifier name .identifier [] false] false)

/-- A declaration of a function: a return type, a name, and possibly a list of parameters. -/
inductive IsFunction : Tree → Prop where
  | mk (id typeId nameId : Int) (returnType name : Lexeme) {list : List Tree} :
      AtMostOneGroup .parameterList "Parameters" IsParameter list →
      IsFunction (.mk id .functionDeclaration ("Function: " ++ name) .identifier
        (.mk typeId .keyword returnType .keyword [] false ::
          .mk nameId .identifier name .identifier [] false :: list) false)

/-- What a clause of a loop holds. -/
inductive IsClauseContent : Tree → Prop where
  | declaration {t : Tree} : t.IsVariable → IsClauseContent t
  | assignment {t : Tree} (target : Lexeme) : t.IsAssignment target → IsClauseContent t
  | expression {t : Tree} : t.IsExpression → IsClauseContent t

/-- A clause of a loop: a container with a label and one thing in it. -/
inductive IsClause (label : Lexeme) : Tree → Prop where
  | mk (id : Int) {content : Tree} : content.IsClauseContent →
      IsClause label (.mk id .expression label .keyword [content] true)

/-- The labels of the clauses of a loop: some of those of a loop that counts, or some of those of a
loop over an iterable, in this order. -/
def ClauseLabels (labels : List Lexeme) : Prop :=
  labels.Sublist ["Init", "Condition", "Update"] ∨ labels.Sublist ["Target", "Iterable"]

/-- A statement that is no declaration. -/
inductive IsStatement : Tree → Prop where
  | conditional (id : Int) {word : Lexeme} {test : List Tree} :
      word ∈ ["if", "elif", "else if"] → AtMostOneExpression test →
      IsStatement (.mk id .conditional word .keyword test false)
  | whileLoop (id : Int) {test : List Tree} : AtMostOneExpression test →
      IsStatement (.mk id .whileLoop "while" .keyword test false)
  | forLoop (id : Int) {labels : List Lexeme} {clauses : List Tree} :
      ClauseLabels labels → List.Forall₂ IsClause labels clauses →
      IsStatement (.mk id .forLoop "for" .keyword clauses false)
  | returning (id : Int) {value : List Tree} : AtMostOneExpression value →
      IsStatement (.mk id .returning "return" .keyword value false)
  | assignment {t : Tree} (target : Lexeme) : t.IsAssignment target → IsStatement t
  | expression (id : Int) (text : Lexeme) {t : Tree} : t.IsParsed →
      IsStatement (.mk id .statement text .identifier [t] false)

/-- A whole program of a dialect. Flat expressions are one expression in a group of statements.
Lines are functions, then the declarations and then all other statements, the latter two in groups.
-/
inductive IsProgram (spec : Dialect.Spec) : Tree → Prop where
  | expression (id groupId : Int) {t : Tree} : spec.dialect.isLineOriented = false →
      t.IsExpression →
      IsProgram spec (.mk id .program spec.title .keyword
        [.mk groupId .statementsGroup "Statements" .keyword [t] true] false)
  | lines (id : Int) {functions declarations statements : List Tree} :
      spec.dialect.isLineOriented = true → (∀ t ∈ functions, t.IsFunction) →
      AtMostOneGroup .declarationsGroup "Declarations" IsVariable declarations →
      AtMostOneGroup .statementsGroup "Statements" IsStatement statements →
      IsProgram spec (.mk id .program spec.title .keyword
        (functions ++ declarations ++ statements) false)

theorem atMostOneExpression_nil : AtMostOneExpression [] :=
  ⟨Nat.zero_le 1, fun _ h => absurd h List.not_mem_nil⟩

theorem atMostOneExpression_singleton {t : Tree} (h : t.IsExpression) : AtMostOneExpression [t] :=
  ⟨Nat.le_refl 1, fun _ ht => List.mem_singleton.mp ht ▸ h⟩

end Tree

namespace Numbering

theorem always_groupIfAny {kind : Kind} {label : Lexeme} {R : Tree → Prop} {ts : List Tree}
    (h : ∀ t ∈ ts, R t) : (groupIfAny kind label ts).Always (Tree.AtMostOneGroup kind label R) := by
  intro first
  unfold groupIfAny
  cases ts with
  | nil => exact .none
  | cons t ts => exact .one first (List.cons_ne_nil t ts) h

end Numbering

/-! ## Expressions -/

mutual

theorem Expr.always_parsed : ∀ e : Expr, e.toTree.Always Tree.IsParsed
  | .identifier name => fun first => .identifier first name
  | .keyword word => fun first => .keyword first word
  | .constant text => fun first => .constant first text
  | .placeholder => fun first => .identifier first ""
  | .unary operator e =>
      (always_parsed e).bind fun _ he => always_create fun id => .unary id operator he
  | .leftOnly operator e =>
      (always_parsed e).bind fun _ he => always_create fun id => .oneSided id operator he
  | .rightOnly operator e =>
      (always_parsed e).bind fun _ he => always_create fun id => .oneSided id operator he
  | .binary operator l r =>
      (always_parsed l).bind fun _ hl => (always_parsed r).bind fun _ hr =>
        always_create fun id => .binary id operator hl hr
  | .call callee es =>
      (alwaysAll_parsed es).bind fun _ hes => always_create fun id => .call id callee hes

theorem Expr.alwaysAll_parsed : ∀ es : List Expr,
    (toTrees es).Always fun ts => ∀ t ∈ ts, t.IsParsed
  | [] => always_pure fun _ h => absurd h List.not_mem_nil
  | e :: es =>
      (always_parsed e).bind fun _ he => (alwaysAll_parsed es).bind fun _ hes =>
        always_pure (List.forall_mem_cons.mpr ⟨he, hes⟩)

end

theorem Reading.always_expression (r : Reading) : r.toTree.Always Tree.IsExpression := by
  cases r with
  | expr e => exact fun first => .parsed (e.always_parsed first)
  | raw text => exact always_create fun id => .raw id text

theorem Reading.always_atMostOne (value : Option Reading) :
    (Reading.toTrees value).Always Tree.AtMostOneExpression := by
  cases value with
  | none => exact always_pure Tree.atMostOneExpression_nil
  | some r =>
      exact r.always_expression.bind fun _ h => always_pure (Tree.atMostOneExpression_singleton h)

/-! ## Statements -/

theorem AssignOp.text_mem (operator : AssignOp) : operator.text ∈ Tree.assignOperators := by
  cases operator <;> decide

theorem Assigned.always_assignment (target : Lexeme) (a : Assigned) :
    (a.toTree target).Always (Tree.IsAssignment target) := by
  intro first
  exact .mk _ _ a.operator.text_mem (Reading.always_atMostOne a.value _)

theorem Declaration.always_variable (d : Declaration) : d.toTree.Always Tree.IsVariable := by
  intro first
  unfold toTree initialTrees
  cases d.initial with
  | none => exact .bare _ _ _ d.typeName d.name
  | some a => exact .initialised _ _ _ d.typeName d.name (a.always_assignment d.name _)

theorem Parameter.always_parameter (p : Parameter) : p.toTree.Always Tree.IsParameter := by
  intro first
  unfold toTree
  cases p.typeName with
  | none => exact .bare _ _ p.name
  | some typeName => exact .typed _ _ _ typeName p.name

theorem forall_of_forall₂ {α β : Type} {P : β → Prop} {as : List α} {bs : List β}
    (h : List.Forall₂ (fun _ b => P b) as bs) : ∀ b ∈ bs, P b := by
  intro b hb
  obtain ⟨_, -, hP⟩ := exists_of_mem_of_forall₂ h hb
  exact hP

theorem FunctionHead.always_function (f : FunctionHead) : f.toTree.Always Tree.IsFunction := by
  intro first
  have hparameters : ∀ t ∈ ((f.parameters.mapM Parameter.toTree).run first).1, t.IsParameter :=
    forall_of_forall₂ (always_mapM (fun p _ => p.always_parameter) first)
  exact .mk _ _ _ f.returnType f.name (always_groupIfAny hparameters _)

theorem ClauseContent.always_content (content : ClauseContent) :
    content.toTree.Always Tree.IsClauseContent := by
  cases content with
  | declaration d => exact fun first => .declaration (d.always_variable first)
  | assignment a =>
      exact fun first => .assignment a.target (a.assigned.always_assignment a.target first)
  | reading r => exact fun first => .expression (r.always_expression first)

theorem Clause.always_clause (c : Clause) : c.toTree.Always (Tree.IsClause c.role.label) :=
  c.content.always_content.bind fun _ h => always_create fun id => .mk id h

/-- The labels of clauses in the order of a header are in the order of its labels. -/
theorem clauseLabels_of_ordered {clauses : List Clause}
    (h : (Statement.forLoop clauses).Ordered) :
    Tree.ClauseLabels (clauses.map fun c => c.role.label) := by
  have hlabels : (clauses.map fun c => c.role.label) =
      (clauses.map Clause.role).map ClauseRole.label := by rw [List.map_map]; rfl
  rw [Tree.ClauseLabels, hlabels]
  rcases h with h | h
  · exact .inl (h.map ClauseRole.label)
  · exact .inr (h.map ClauseRole.label)

/-- What the tree of a statement looks like. -/
def Statement.Shaped (s : Statement) (t : Tree) : Prop :=
  (s.isFunction = true → t.IsFunction) ∧ (s.isDeclaration = true → t.IsVariable) ∧
    ((!s.isFunction && !s.isDeclaration) = true → t.IsStatement)

theorem Statement.shaped_of_isStatement {s : Statement} {t : Tree} (hf : s.isFunction = false)
    (hd : s.isDeclaration = false) (h : t.IsStatement) : s.Shaped t := by
  refine ⟨?_, ?_, fun _ => h⟩
  · rw [hf]
    exact fun hfalse => Bool.noConfusion hfalse
  · rw [hd]
    exact fun hfalse => Bool.noConfusion hfalse

/-- **The tree of a statement has the shape of its sort.** -/
theorem Statement.always_shaped {s : Statement} (hs : s.Ordered) : s.toTree.Always s.Shaped := by
  cases s with
  | declaration d =>
      intro first
      exact ⟨fun h => Bool.noConfusion h, fun _ => d.always_variable first,
        fun h => Bool.noConfusion h⟩
  | function f =>
      intro first
      exact ⟨fun _ => f.always_function first, fun h => Bool.noConfusion h,
        fun h => Bool.noConfusion h⟩
  | condition word test =>
      intro first
      refine shaped_of_isStatement rfl rfl ?_
      have htest := Reading.always_atMostOne test first
      cases word with
      | ifWord => exact .conditional _ (by decide) htest
      | whileWord => exact .whileLoop _ htest
      | elifWord => exact .conditional _ (by decide) htest
      | elseIfWord => exact .conditional _ (by decide) htest
  | forLoop clauses =>
      intro first
      refine shaped_of_isStatement rfl rfl ?_
      have hclauses := always_mapM (fun c (_ : c ∈ clauses) => c.always_clause) first
      exact .forLoop _ (clauseLabels_of_ordered hs) (List.forall₂_map_left_iff.mpr hclauses)
  | returning value =>
      intro first
      exact shaped_of_isStatement rfl rfl (.returning _ (Reading.always_atMostOne value first))
  | assignment a =>
      intro first
      exact shaped_of_isStatement rfl rfl
        (.assignment a.target (a.assigned.always_assignment a.target first))
  | expression text e =>
      intro first
      exact shaped_of_isStatement rfl rfl (.expression _ text (e.always_parsed first))

/-! ## Programs -/

namespace Program

/-- The trees that are selected belong to statements that satisfy the condition. -/
theorem forall_mem_select {p : Statement → Bool} {P : Tree → Prop} {statements : List Statement}
    {trees : List Tree} (h : List.Forall₂ (fun s t => p s = true → P t) statements trees) :
    ∀ t ∈ select p statements trees, P t := by
  intro t ht
  obtain ⟨⟨s, t'⟩, hmem, heq⟩ := List.mem_map.mp ht
  cases heq
  obtain ⟨hzip, hp⟩ := List.mem_filter.mp hmem
  exact (List.forall₂_iff_zip.mp h).2 hzip hp

/-- The program belongs to the dialect, and its loops are in order. -/
def Fits (spec : Dialect.Spec) : Program → Prop
  | expression _ => spec.dialect.isLineOriented = false
  | lines statements => spec.dialect.isLineOriented = true ∧ ∀ s ∈ statements, s.Ordered

theorem always_program {spec : Dialect.Spec} {p : Program} (hp : p.Fits spec) :
    (p.toTree spec.title).Always (Tree.IsProgram spec) := by
  intro first
  cases p with
  | expression r => exact .expression _ _ hp (r.always_expression _)
  | lines statements =>
      obtain ⟨hline, hordered⟩ := hp
      have htrees := always_mapM (fun s hs => Statement.always_shaped (hordered s hs)) (first + 1)
      exact .lines _ hline (forall_mem_select (htrees.imp fun _ _ h => h.1))
        (always_groupIfAny (forall_mem_select (htrees.imp fun _ _ h => h.2.1)) _)
        (always_groupIfAny (forall_mem_select (htrees.imp fun _ _ h => h.2.2)) _)

end Program

/-! ## Builds -/

theorem Reader.fits_of_understand {r : Reader} {settings : Settings} {text : Text}
    {understood : Understood} (h : r.understand settings text = .ok understood) :
    understood.program.Fits r.spec := by
  unfold understand at h
  split at h
  · rename_i hline
    obtain ⟨outcomes, houtcomes, heq⟩ := exists_of_bind_ok h
    cases heq
    exact ⟨hline, fun s hs => ordered_of_outcomes houtcomes hs⟩
  · rename_i hline
    cases h
    exact Bool.eq_false_iff.mpr hline

namespace Assembler

/-- **Every tree that is built has the shape of a program of its dialect.** -/
theorem isProgram_of_ofName {settings : Settings} {frames : Nat} {name : Option String}
    {a : Assembler} (h : ofName settings frames name = .ok a) (text : String) :
    ∃ built after, a.build text = .ok (built, after) ∧ built.tree.IsProgram a.reader.spec := by
  obtain ⟨understood, built, after, hunderstood, hbuild, htree⟩ :=
    build_ok (regular_of_ofName h) text
  refine ⟨built, after, hbuild, ?_⟩
  have hshape := Program.always_program (Reader.fits_of_understand hunderstood) 1
  rw [← htree] at hshape
  exact hshape

/-- A snippet with a function, a loop that lacks its update, a declaration without a value and a
raw value. -/
theorem isProgram_java : ∃ a, ofName (.ofEnvironment .empty) 1000 (some "java") = .ok a ∧
    ∃ built after,
      a.build "void f(int n) \x7b\nfor (int i = 0; i < n;) \x7b\nint k = ;\nreturn @;" =
        .ok (built, after) ∧
      built.tree.IsProgram a.reader.spec :=
  ⟨_, ofName_label (.ofEnvironment .empty) 1000 .java,
    isProgram_of_ofName (ofName_label (.ofEnvironment .empty) 1000 .java) _⟩

end Assembler

end SnippetTree
