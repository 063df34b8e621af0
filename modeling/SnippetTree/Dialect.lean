import SnippetTree.Profile
import SnippetTree.Text.Quoted
import SnippetTree.Expr.Grammar

/-!
# Dialects

A dialect decides which glyphs, operators, words and heuristics apply to a snippet. All dialects
share the same rules; a dialect only picks the tables, which are gathered in its `Spec`.
-/

namespace SnippetTree

/-- The dialects that snippets are written in. -/
inductive Dialect where
  | expression
  | c
  | python
  | java
  deriving DecidableEq, Repr

namespace Dialect

/-- The name of a dialect. -/
def label : Dialect → String
  | expression => "expression"
  | c => "c"
  | python => "python"
  | java => "java"

/-- Snippets of the dialect are read line by line, each line as a statement. -/
def isLineOriented : Dialect → Bool
  | expression => false
  | c | python | java => true

/-! ## Names -/

/-- Every name that a dialect answers to. -/
def aliases : List (String × Dialect) :=
  [("expression", expression), ("math", expression),
   ("c", c), ("c-like", c),
   ("python", python), ("python-like", python),
   ("java", java), ("java-like", java)]

/-- The dialect that answers to a name. White space around the name and the case of its letters do
not matter. -/
def ofName? (name : String) : Option Dialect :=
  aliases.lookup (String.ofList (Text.lower (Text.trim name.toList)))

/-- A name that no dialect answers to. -/
structure Unknown where
  name : String
  deriving DecidableEq, Repr

namespace Unknown

/-- The names that would have been understood, sorted. -/
def known : List String :=
  (aliases.map (·.1)).mergeSort

/-- What is said when an unknown name is refused. -/
def message (e : Unknown) : String :=
  "Unknown dialect " ++ quoted e.name ++ "; expected one of " ++ ", ".intercalate known

end Unknown

/-- The dialect that answers to a name, or the refusal of the name. -/
def ofName (name : String) : Except Unknown Dialect :=
  match ofName? name with
  | some dialect => .ok dialect
  | none => .error ⟨name⟩

/-! ## Tables -/

/-- The tables and heuristics of a dialect. -/
structure Spec where
  dialect : Dialect
  /-- The label of the root of every tree. -/
  title : String
  profile : Profile
  grammar : Grammar
  /-- Words that a typed declaration may begin with. -/
  typeKeywords : List Lexeme
  /-- Words that introduce a function and belong to no type. -/
  functionKeywords : List Lexeme
  /-- Characters that the head of a function may end with if it opens no brace. -/
  headerEndings : List Char
  /-- The return type of a function whose head names none. -/
  returnType : Lexeme
  /-- A parameter is a name that a type may follow, instead of a type and a name. -/
  bareParameters : Bool
  /-- The character that opens a block. -/
  blockOpener : Char
  /-- A snippet to try the dialect on. -/
  sample : String

/-- A character that is dropped at the end of a line before it is parsed. -/
def Spec.isTerminator (spec : Spec) (c : Char) : Bool :=
  c == ';' || c == spec.blockOpener

/-- The type words that all typed dialects share. -/
def baseTypes : List Lexeme := ["int", "float", "double", "char", "void", "bool", "string"]

/-- The tiers that also know the word operators. -/
def wordTiers : List Tier :=
  [.left "logical-or" ["||", "or"], .left "logical-and" ["&&", "and"],
   .equality, .relational, .additive, .multiplicative]

/-- Flat arithmetic expressions. -/
def expressionSpec : Spec where
  dialect := expression
  title := "Expression Program"
  profile := .simple
  grammar := ⟨Tier.ofArithmetic, Grammar.commonSigns, Lexeme.coreKeywords⟩
  typeKeywords := []
  functionKeywords := []
  headerEndings := [')', ';']
  returnType := "void"
  bareParameters := false
  blockOpener := '\x7b'
  sample := "(3 + 5) * 2 - sqrt(16) / 4"

/-- The dialect with braces and C types. -/
def cSpec : Spec where
  dialect := c
  title := "C Program"
  profile := .extended
  grammar := ⟨Tier.ofLines, Grammar.commonSigns, Lexeme.coreKeywords ++
    ["long", "short", "unsigned", "signed", "struct", "const", "switch", "case", "break",
     "continue"]⟩
  typeKeywords := baseTypes ++ ["long", "short", "unsigned", "signed"]
  functionKeywords := []
  headerEndings := [')', ';']
  returnType := "void"
  bareParameters := false
  blockOpener := '\x7b'
  sample := "int factorial(int n) \x7b\n    if (n <= 1) \x7b\n        return 1;\n    \x7d\n" ++
    "    return n * factorial(n - 1);\n\x7d"

/-- The dialect with colons and word operators. -/
def pythonSpec : Spec where
  dialect := python
  title := "PYTHON Program"
  profile := .extended
  grammar := ⟨wordTiers, Grammar.commonSigns ++ ["not"], Lexeme.coreKeywords ++
    ["elif", "and", "or", "not", "in", "is", "lambda", "pass", "break", "continue", "with",
     "yield"]⟩
  typeKeywords := baseTypes
  functionKeywords := ["def"]
  headerEndings := [')', ';', ':']
  returnType := "None"
  bareParameters := true
  blockOpener := ':'
  sample := "def fibonacci(n):\n    if n <= 1:\n        return n\n" ++
    "    return fibonacci(n-1) + fibonacci(n-2)"

/-- The dialect with braces and Java types. -/
def javaSpec : Spec where
  dialect := java
  title := "JAVA Program"
  profile := .extended
  grammar := ⟨Tier.ofLines, Grammar.commonSigns, Lexeme.coreKeywords ++
    ["long", "short", "byte", "boolean", "new", "final", "protected", "extends", "implements",
     "this"]⟩
  typeKeywords := baseTypes ++ ["long", "short", "byte", "boolean"]
  functionKeywords := []
  headerEndings := [')', ';']
  returnType := "void"
  bareParameters := false
  blockOpener := '\x7b'
  sample := "public class Calculator \x7b\n    public int add(int a, int b) \x7b\n" ++
    "        return a + b;\n    \x7d\n\x7d"

/-- The tables of a dialect. -/
def spec : Dialect → Spec
  | expression => expressionSpec
  | c => cSpec
  | python => pythonSpec
  | java => javaSpec

end Dialect

end SnippetTree
