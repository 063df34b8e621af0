import SnippetTree.Lexeme
import SnippetTree.Diagnostic
import SnippetTree.Tree.Rose

/-!
# Syntax trees

One type of tree carries every construct. A node is classified twice, by the part it plays (its
kind) and by the look of its lexeme (its category). Nodes that only hold others together are
marked as synthetic, so that nobody has to recognise them by their labels.
-/

namespace SnippetTree

/-- The part that a node plays. -/
inductive Kind where
  | program
  | functionDeclaration
  | variableDeclaration
  | declaration
  | declarationsGroup
  | statementsGroup
  | parameterList
  | conditional
  | whileLoop
  | forLoop
  | returning
  | assignment
  | statement
  | binaryOp
  | unaryOp
  | call
  | expression
  | identifier
  | constant
  | keyword
  deriving DecidableEq, Repr

namespace Kind

/-- Every kind, in the order in which they are listed to a reader. -/
def all : List Kind :=
  [.program, .functionDeclaration, .variableDeclaration, .declaration, .declarationsGroup,
   .statementsGroup, .parameterList, .conditional, .whileLoop, .forLoop, .returning, .assignment,
   .statement, .binaryOp, .unaryOp, .call, .expression, .identifier, .constant, .keyword]

/-- How a kind is written in a tree. -/
def label : Kind → String
  | program => "program"
  | functionDeclaration => "function-declaration"
  | variableDeclaration => "variable-declaration"
  | declaration => "declaration"
  | declarationsGroup => "declarations-group"
  | statementsGroup => "statements-group"
  | parameterList => "parameter-list"
  | conditional => "if"
  | whileLoop => "while"
  | forLoop => "for"
  | returning => "return"
  | assignment => "assignment"
  | statement => "statement"
  | binaryOp => "binary-op"
  | unaryOp => "unary-op"
  | call => "call"
  | expression => "expression"
  | identifier => "identifier"
  | constant => "constant"
  | keyword => "keyword"

/-- How a kind is written in the description of a single node. -/
def symbol (kind : Kind) : String :=
  kind.label.map fun c => if c = '-' then '_' else c.toUpper

/-- A kind whose nodes always hold others together. -/
def isGroup : Kind → Bool
  | declarationsGroup | statementsGroup | parameterList => true
  | _ => false

end Kind

/-- What is known of a single node. -/
@[ext]
structure Label where
  id : Int
  kind : Kind
  lexeme : Lexeme
  category : Category
  /-- The node stands for no lexeme and only holds others together. -/
  synthetic : Bool
  deriving DecidableEq, Repr

/-- A syntax tree. -/
abbrev Tree := Rose Label

namespace Tree

/-- The tree with the given root. A group is synthetic, whatever is asked for. -/
def mk (id : Int) (kind : Kind) (lexeme : Lexeme) (category : Category) (children : List Tree)
    (synthetic : Bool) : Tree :=
  .node ⟨id, kind, lexeme, category, synthetic || kind.isGroup⟩ children

/-- The number of the root. -/
def id (t : Tree) : Int :=
  t.value.id

/-- The kind of the root. -/
def kind (t : Tree) : Kind :=
  t.value.kind

/-- The subtrees whose root is of the given kind, each before its children. -/
def findAll (t : Tree) (kind : Kind) : List Tree :=
  t.walk.filter (·.value.kind == kind)

/-- What a look-up table of trees tells them apart by: the root without its marks and children. -/
def lookupKey (t : Tree) : Int × Kind × Lexeme × Category :=
  (t.value.id, t.value.kind, t.value.lexeme, t.value.category)

/-! ## Texts for a reader -/

/-- The root in a few characters. -/
def brief (t : Tree) : String :=
  t.value.kind.label ++ "(" ++ quoted t.value.lexeme ++ ")#" ++ toString t.value.id

/-- The root with everything but its marks, and the number of its children. -/
def describe (t : Tree) : String :=
  "Node(" ++ toString t.value.id ++ ", " ++ t.value.kind.symbol ++ ", " ++ quoted t.value.lexeme ++
    ", " ++ t.value.category.symbol ++ ", children=" ++ toString t.children.length ++ ")"

/-- One line of an outline, without its indentation. -/
def outlineLine (label : Label) : String :=
  (if label.synthetic then "+" else "-") ++ " " ++ label.kind.label ++ " " ++
    quoted label.lexeme ++ " [" ++ label.category.label ++ "]"

/-- The lines of an outline: one for each node, indented by its depth. -/
def outlineLines (t : Tree) (indent : String) : List String :=
  t.visit.map fun (depth, subtree) =>
    String.join (List.replicate depth indent) ++ outlineLine subtree.value

/-- The tree as indented text, one node a line. -/
def outline (t : Tree) (indent : String) : String :=
  "\n".intercalate (t.outlineLines indent)

/-- The indentation that an outline has unless another one is asked for. -/
def standardIndent : String := "  "

end Tree

/-- The plain data of a single node. -/
structure Fields where
  id : Int
  kind : String
  lexeme : String
  category : String
  synthetic : Bool
  deriving DecidableEq, Repr

/-- A syntax tree as plain nested data. -/
abbrev Record := Rose Fields

/-- The plain data of a node. -/
def Label.fields (label : Label) : Fields :=
  ⟨label.id, label.kind.label, label.lexeme, label.category.label, label.synthetic⟩

/-- A tree as plain nested data. -/
def Tree.record (t : Tree) : Record :=
  t.mapWith Label.fields

end SnippetTree
