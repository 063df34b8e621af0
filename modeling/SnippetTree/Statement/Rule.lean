import SnippetTree.Statement.FunctionHead

/-!
# Rules for lines

A rule tells whether a line is a statement of its sort (`accepts`) and takes the statement out of
the line (`extract`). Rules stand in a table and the first one that accepts wins, so their order
matters: a typed declaration has to be claimed before an assignment, and the head of a function
before a call. The last rule of a table also gets the lines that no rule accepts.

Recognition looks at the line as it stands, extraction at the line without what ends it; the
faults of an extraction name what it would miss if the two disagreed.
-/

namespace SnippetTree

/-- The sorts of lines. -/
inductive Rule where
  | variableDeclaration
  | functionDeclaration
  | condition
  | forHeader
  | returning
  | assignment
  | expression
  deriving DecidableEq, Repr

/-- The text without white space on either side and without what ends a line. -/
def Dialect.Spec.strip (spec : Dialect.Spec) (text : Text) : Text :=
  Text.trim (Text.dropEndWhile spec.isTerminator (Text.trim text))

/-! ## Declarations and assignments -/

/-- The line begins with a type word and declares a name, which is no call. -/
def Declaration.isDeclaration (spec : Dialect.Spec) (text : Text) : Bool :=
  let declarator := match Text.splitAssign? text with
    | some split => split.target
    | none => Text.trim (Text.dropEndWhile (· == ';') text)
  Text.leadsWith spec.typeKeywords text && !declarator.contains '(' &&
    2 ≤ (Text.words declarator).length

/-- The line assigns to something that is neither a call nor within a quoted literal. -/
def Assignment.isAssignment (text : Text) : Bool :=
  match Text.splitAssign? text with
  | none => false
  | some split => !split.target.any fun c => c == '(' || c == '"' || c == '\''

namespace Reader

/-- Reads the value of an assignment. -/
def assigned (r : Reader) (operator : AssignOp) (value : Text) : Report Assigned := do
  return ⟨operator, ← r.readIfAny value⟩

/-- Takes a declaration out of a line: its first word is the type, its last one the name. -/
def declaration (r : Reader) (text : Text) : Except Fault (Report Declaration) :=
  let stripped := r.spec.strip text
  let split := Text.splitAssign? stripped
  let words := Text.words ((split.map (·.target)).getD stripped)
  match words.head?, words.getLast? with
  | some typeName, some name =>
    .ok do
      let initial ← match split with
        | none => pure none
        | some split => some <$> r.assigned split.operator split.value
      return ⟨String.ofList typeName, String.ofList name, initial⟩
  | _, _ => .error .noWord

/-- Takes an assignment out of a line. -/
def assignment (r : Reader) (text : Text) : Except Fault (Report Assignment) :=
  match (Text.splitAssign? (r.spec.strip text)).or (Text.splitAssign? text) with
  | none => .error .noAssignment
  | some split =>
    .ok do
      let assigned ← r.assigned split.operator (r.spec.strip split.value)
      return ⟨String.ofList split.target, assigned⟩

/-! ## Conditions -/

/-- The condition after a header word. Where braces open blocks, a parenthesised condition ends at
its parenthesis. -/
def conditionText (r : Reader) (rest : Text) : Text :=
  if r.spec.blockOpener == '\x7b' && (Text.trimStart rest).head? == some '(' then
    Text.trim ((Text.parenthesized? rest).getD [])
  else r.spec.strip rest

/-- Takes an if or while header out of a line. -/
def condition (r : Reader) (text : Text) : Except Fault (Report Statement) :=
  match Text.conditionHeader? text with
  | none => .error .noHeader
  | some (word, rest) =>
    .ok do
      return .condition word (← r.readIfAny (r.conditionText rest))

/-! ## Loops -/

/-- Reads a clause as a declaration, an assignment or an expression, whichever it looks like. -/
def clause (r : Reader) (role : ClauseRole) (text : Text) : Except Fault (Report Clause) :=
  if Declaration.isDeclaration r.spec text then do
    let d ← r.declaration text
    return do return ⟨role, .declaration (← d)⟩
  else if Assignment.isAssignment text then do
    let a ← r.assignment text
    return do return ⟨role, .assignment (← a)⟩
  else
    .ok do return ⟨role, .reading (← r.read text)⟩

/-- The clauses of a loop header, each with its role. A header with semicolons has up to three
parts, one with a colon two; parts that hold nothing are left out. -/
def clauseTexts (r : Reader) (text : Text) : List (ClauseRole × Text) :=
  if r.spec.blockOpener == ':' then
    match Text.forIn? (r.spec.strip text) with
    | none => []
    | some (target, iterable) =>
      [(.target, Text.trim target), (.iterable, Text.trim iterable)]
  else
    let content := (Text.parenthesized? text).getD []
    let parts : List (ClauseRole × Text) :=
      if content.contains ';' then
        [ClauseRole.init, .condition, .update].zip (Text.splitAt ';' content)
      else match Text.cutAt? ':' content with
        | some (target, iterable) => [(.target, target), (.iterable, iterable)]
        | none => [(.condition, content)]
    (parts.map fun (role, part) => (role, Text.trim part)).filter fun (_, part) => !part.isEmpty

/-- Takes the header of a loop out of a line. -/
def forLoop (r : Reader) (text : Text) : Except Fault (Report Statement) := do
  let clauses ← (r.clauseTexts text).mapM fun (role, part) => r.clause role part
  return do return .forLoop (← clauses.mapM fun clause => clause)

/-! ## Other statements -/

/-- Takes the value that is returned out of a line. -/
def returning (r : Reader) (text : Text) : Report Statement := do
  return .returning (← r.readIfAny (r.spec.strip (text.drop "return".length)))

/-- Takes an expression statement out of a line; there is none if no expression begins there. -/
def expressionStatement? (r : Reader) (text : Text) : Report (Option Statement) := do
  let stripped := r.spec.strip text
  if stripped.isEmpty then return none
  else
    let e? ← r.expression? stripped
    return e?.map (.expression (String.ofList stripped) ·)

end Reader

/-! ## The table -/

namespace Rule

/-- The name of a rule. -/
def name : Rule → String
  | variableDeclaration => "variable-declaration"
  | functionDeclaration => "function-declaration"
  | condition => "condition"
  | forHeader => "for"
  | returning => "return"
  | assignment => "assignment"
  | expression => "expression"

/-- The rules in the order in which they are tried. -/
def standard : List Rule :=
  [variableDeclaration, functionDeclaration, condition, forHeader, returning, assignment,
   expression]

/-- The line is a statement of this sort. -/
def accepts (rule : Rule) (spec : Dialect.Spec) (text : Text) : Bool :=
  match rule with
  | variableDeclaration => Declaration.isDeclaration spec text
  | functionDeclaration => FunctionHead.isHead spec text
  | condition => (Text.conditionHeader? text).isSome
  | forHeader => (Text.afterKeyword? "for" text).isSome
  | returning => (Text.afterKeyword? "return" text).isSome
  | assignment => Assignment.isAssignment text
  | expression => true

/-- Takes the statement out of a line; there may be none in it. -/
def extract (rule : Rule) (r : Reader) (text : Text) : Except Fault (Report (Option Statement)) :=
  match rule with
  | variableDeclaration => do
    let d ← r.declaration text
    return do return some (.declaration (← d))
  | functionDeclaration => do
    let f ← FunctionHead.extract r.spec text
    return pure (some (.function f))
  | condition => do
    let s ← r.condition text
    return some <$> s
  | forHeader => do
    let s ← r.forLoop text
    return some <$> s
  | returning => .ok (some <$> r.returning text)
  | assignment => do
    let a ← r.assignment text
    return do return some (.assignment (← a))
  | expression => .ok (r.expressionStatement? text)

/-- The first rule of a table that accepts a line, or the last one of the table. -/
def choose (rules : List Rule) (spec : Dialect.Spec) (text : Text) : Except Fault Rule :=
  match (rules.find? fun rule => rule.accepts spec text).or rules.getLast? with
  | some rule => .ok rule
  | none => .error .noRule

end Rule

end SnippetTree
