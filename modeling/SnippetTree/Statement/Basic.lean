import SnippetTree.Reading
import SnippetTree.Statement.Assign
import SnippetTree.Statement.Header

/-!
# Statements

What a line can be. The types say which parts a statement has, so that a statement that lacks a
part it must have cannot be written down: a declaration has a type and a name, an initial value
belongs to the name that is declared, and the expression of an expression statement is never raw
text.
-/

namespace SnippetTree

/-- An assignment operator and the value to its right, if there is one. -/
structure Assigned where
  operator : AssignOp
  value : Option Reading
  deriving Repr

/-- A typed declaration of a variable. -/
structure Declaration where
  typeName : Lexeme
  name : Lexeme
  initial : Option Assigned
  deriving Repr

/-- An assignment to a target. -/
structure Assignment where
  target : Lexeme
  assigned : Assigned
  deriving Repr

/-- A parameter of a function. -/
structure Parameter where
  typeName : Option Lexeme
  name : Lexeme
  deriving DecidableEq, Repr

/-- The head of a function. -/
structure FunctionHead where
  returnType : Lexeme
  name : Lexeme
  parameters : List Parameter
  deriving DecidableEq, Repr

/-- The part that a clause plays in the header of a loop. -/
inductive ClauseRole where
  | init
  | condition
  | update
  | target
  | iterable
  deriving DecidableEq, Repr

/-- How the role of a clause is written. -/
def ClauseRole.label : ClauseRole → String
  | init => "Init"
  | condition => "Condition"
  | update => "Update"
  | target => "Target"
  | iterable => "Iterable"

/-- What a clause holds. -/
inductive ClauseContent where
  | declaration (d : Declaration)
  | assignment (a : Assignment)
  | reading (r : Reading)
  deriving Repr

/-- One part of the header of a loop. -/
structure Clause where
  role : ClauseRole
  content : ClauseContent
  deriving Repr

/-- A line that was understood. -/
inductive Statement where
  | declaration (d : Declaration)
  | function (f : FunctionHead)
  | condition (word : ConditionWord) (test : Option Reading)
  | forLoop (clauses : List Clause)
  | returning (value : Option Reading)
  | assignment (a : Assignment)
  | expression (text : Lexeme) (e : Expr)
  deriving Repr

namespace Statement

/-- The statement declares a function. -/
def isFunction : Statement → Bool
  | function _ => true
  | _ => false

/-- The statement declares a variable. -/
def isDeclaration : Statement → Bool
  | declaration _ => true
  | _ => false

end Statement

/-! ## Trees of statements -/

open SnippetTree.Numbering

/-- The tree of a reading, if there is one, as a list of children. -/
def Reading.toTrees : Option Reading → Numbering (List Tree)
  | none => return []
  | some r => return [← r.toTree]

/-- The tree of an assignment: the target, then the value. -/
def Assigned.toTree (target : Lexeme) (a : Assigned) : Numbering Tree := do
  let name ← identifier target
  let value ← Reading.toTrees a.value
  create .assignment a.operator.text .operator (name :: value) false

namespace Declaration

/-- The tree of the initial value of a name, if it has one. -/
def initialTrees (d : Declaration) : Numbering (List Tree) :=
  match d.initial with
  | none => return []
  | some a => return [← a.toTree d.name]

/-- The tree of a declaration: the type, the name, and the assignment of the initial value. -/
def toTree (d : Declaration) : Numbering Tree := do
  let typeName ← keyword d.typeName
  let name ← identifier d.name
  let initial ← d.initialTrees
  create .variableDeclaration ("Variable: " ++ d.name) .identifier (typeName :: name :: initial)
    false

end Declaration

/-- The tree of an assignment. -/
def Assignment.toTree (a : Assignment) : Numbering Tree :=
  a.assigned.toTree a.target

/-- The tree of a parameter: its type, if it has one, and its name. -/
def Parameter.toTree (p : Parameter) : Numbering Tree := do
  let typeTrees ← match p.typeName with
    | none => pure []
    | some t => do pure [← keyword t]
  let name ← identifier p.name
  create .declaration p.name .identifier (typeTrees ++ [name]) false

/-- The tree of a function head: the return type, the name and the parameters. The parameters are
numbered before the type and the name. -/
def FunctionHead.toTree (f : FunctionHead) : Numbering Tree := do
  let parameters ← f.parameters.mapM Parameter.toTree
  let returnType ← keyword f.returnType
  let name ← identifier f.name
  let list ← groupIfAny .parameterList "Parameters" parameters
  create .functionDeclaration ("Function: " ++ f.name) .identifier (returnType :: name :: list) false

/-- The tree of what a clause holds. -/
def ClauseContent.toTree : ClauseContent → Numbering Tree
  | declaration d => d.toTree
  | assignment a => a.toTree
  | reading r => r.toTree

/-- The tree of a clause, wrapped into a node that tells its role. -/
def Clause.toTree (c : Clause) : Numbering Tree := do
  let content ← c.content.toTree
  create .expression c.role.label .keyword [content] true

/-- The kind of the statement that a header word begins. -/
def ConditionWord.kind : ConditionWord → Kind
  | whileWord => .whileLoop
  | ifWord | elifWord | elseIfWord => .conditional

/-- The tree of a statement. -/
def Statement.toTree : Statement → Numbering Tree
  | declaration d => d.toTree
  | function f => f.toTree
  | condition word test => do
    let test ← Reading.toTrees test
    create word.kind word.text .keyword test false
  | forLoop clauses => do
    let clauses ← clauses.mapM Clause.toTree
    create .forLoop "for" .keyword clauses false
  | returning value => do
    let value ← Reading.toTrees value
    create .returning "return" .keyword value false
  | assignment a => a.toTree
  | expression text e => do
    let e ← e.toTree
    create .statement text .identifier [e] false

end SnippetTree
