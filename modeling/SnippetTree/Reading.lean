import SnippetTree.Dialect
import SnippetTree.Expr.Parse

/-!
# Reading expressions from text

A text is read by cutting it into lexemes and parsing them. What comes out is an expression, or,
where not even a part of one was found, the text itself, kept raw so that nothing is lost. A
`Report` carries the problems met on the way, those of the tokenizer before those of the parser.
-/

namespace SnippetTree

/-- A value and the problems that were met while it was made, in order. -/
structure Report (α : Type) where
  value : α
  problems : List Problem
  deriving Repr

namespace Report

variable {α β : Type}

instance : Monad Report where
  pure value := ⟨value, []⟩
  bind r f :=
    let s := f r.value
    ⟨s.value, r.problems ++ s.problems⟩

@[simp] theorem value_pure (a : α) : (pure a : Report α).value = a := rfl

@[simp] theorem problems_pure (a : α) : (pure a : Report α).problems = [] := rfl

@[simp] theorem value_bind (r : Report α) (f : α → Report β) :
    (r >>= f).value = (f r.value).value := rfl

@[simp] theorem problems_bind (r : Report α) (f : α → Report β) :
    (r >>= f).problems = r.problems ++ (f r.value).problems := rfl

@[simp] theorem value_map (f : α → β) (r : Report α) : (f <$> r).value = f r.value := rfl

@[simp] theorem problems_map (f : α → β) (r : Report α) : (f <$> r).problems = r.problems :=
  List.append_nil r.problems

instance : LawfulMonad Report :=
  LawfulMonad.mk' Report
    (fun r => congrArg (Report.mk r.value) (List.append_nil r.problems))
    (fun _ _ => rfl)
    (fun r f g => congrArg (Report.mk (g (f r.value).value).value)
      (List.append_assoc r.problems (f r.value).problems (g (f r.value).value).problems))

/-- Notes a problem. -/
def note (problem : Problem) : Report Unit :=
  ⟨(), [problem]⟩

end Report

/-- What a text was read as. -/
inductive Reading where
  | expr (e : Expr)
  /-- A text that holds no expression, as it was written. -/
  | raw (text : Lexeme)
  deriving Repr

namespace Reading

/-- The tree of a reading; a raw text is a single node. -/
def toTree : Reading → Numbering Tree
  | expr e => e.toTree
  | raw text => Numbering.create .expression text .constant [] false

end Reading

/-- The tables of a dialect together with the nesting that is followed. -/
structure Reader where
  spec : Dialect.Spec
  limit : Nat

namespace Reader

/-- The reader of a dialect that may use that many call frames. -/
def ofDialect (dialect : Dialect) (frames : Nat) : Reader :=
  ⟨dialect.spec, Grammar.nestingLimit frames dialect.spec.grammar.tiers.length⟩

/-- Reads the expression in a text, if one can be started. -/
def expression? (r : Reader) (text : Text) : Report (Option Expr) :=
  let lexemes := r.spec.profile.tokenize text
  let parsed := r.spec.grammar.parse r.limit lexemes
  ⟨parsed.expr, Problem.ofLexemes lexemes ++ parsed.problems⟩

/-- Reads a text as an expression, or keeps it raw. -/
def read (r : Reader) (text : Text) : Report Reading := do
  match ← r.expression? text with
  | some e => return .expr e
  | none =>
    Report.note (.keptRaw (String.ofList text))
    return .raw (String.ofList text)

/-- Reads a text if there is one. -/
def readIfAny (r : Reader) (text : Text) : Report (Option Reading) := do
  if text.isEmpty then return none else return some (← r.read text)

/-- Reads a text and numbers the nodes of its tree from `first` on. A text that holds no expression
is kept as one node, or not at all. -/
def treeFrom (r : Reader) (keep : Bool) (text : Text) (first : Int) :
    Report (Option Tree × Int) :=
  if keep then
    let reading := r.read text
    let numbered := reading.value.toTree.run first
    ⟨(some numbered.1, numbered.2), reading.problems⟩
  else
    let reading := r.expression? text
    ⟨Expr.numbered reading.value first, reading.problems⟩

end Reader

end SnippetTree
