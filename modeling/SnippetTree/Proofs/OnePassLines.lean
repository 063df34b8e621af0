import SnippetTree.Proofs.OnePass
import SnippetTree.Statement.Outcome

/-!
# Lines that are read and numbered in one pass

A statement is taken out of a line first, and its nodes are made and numbered afterwards. Here the
rules are written once more so that they make each node when they come to it, with a number for it,
between one part of the line and the next. A name is made before the value that is assigned to it is
read, the parameters of a function before its return type, a clause before the next one is looked
at; a field that declares no parameter and a line without a statement make nothing.

A function that reads and makes in turn is a `Planting`, and each of them is shown to be one that
reads all and makes the nodes then (`Planting.later`). Three laws carry this: nodes can be made after
what is read next (`lift_bind_later`), what is made of made nodes can be made with them
(`later_bind_lift`), and what is read part by part can be read as a whole (`mapM_later`). The result
for lines is `classify_eq`.
-/

namespace SnippetTree

/-- Reading that makes nodes on the way: told the next free number, it gives what was made with the
number that is free afterwards and the problems that were met, or it says which part is missing. -/
def Planting (α : Type) : Type := Int → Except Fault (Report (α × Int))

namespace Planting

variable {α β γ : Type}

/-- What is planted if `next` is the next free number. -/
def run (x : Planting α) (next : Int) : Except Fault (Report (α × Int)) := x next

instance : Monad Planting where
  pure a := fun next => .ok ⟨(a, next), []⟩
  bind x f := fun next => (x next).bind fun made =>
    (f made.value.1 made.value.2).map fun more => ⟨more.value, made.problems ++ more.problems⟩

theorem run_bind (x : Planting α) (f : α → Planting β) (next : Int) :
    (x >>= f).run next = (x.run next).bind fun made =>
      ((f made.value.1).run made.value.2).map fun more =>
        ⟨more.value, made.problems ++ more.problems⟩ := rfl

instance : LawfulMonad Planting :=
  LawfulMonad.mk' Planting
    (fun x => by
      funext next
      show (x >>= fun a => pure a).run next = x.run next
      rw [run_bind]
      cases x.run next with
      | error fault => rfl
      | ok made =>
          exact congrArg Except.ok (congrArg (Report.mk made.value) (List.append_nil _)))
    (fun a f => by
      funext next
      show (pure a >>= f).run next = (f a).run next
      rw [run_bind]
      show ((f a).run next).map (fun more => ⟨more.value, [] ++ more.problems⟩) = (f a).run next
      cases (f a).run next <;> rfl)
    (fun x f g => by
      funext next
      show ((x >>= f) >>= g).run next = (x >>= fun a => f a >>= g).run next
      simp only [run_bind]
      cases x.run next with
      | error fault => rfl
      | ok made =>
          show (((f made.value.1).run made.value.2).map _).bind _ =
            Except.map _ (((f made.value.1).run made.value.2).bind _)
          cases (f made.value.1).run made.value.2 with
          | error fault => rfl
          | ok more =>
              show ((g more.value.1).run more.value.2).map _ =
                (((g more.value.1).run more.value.2).map _).map _
              cases (g more.value.1).run more.value.2 with
              | error fault => rfl
              | ok last =>
                  exact congrArg Except.ok
                    (congrArg (Report.mk last.value) (List.append_assoc _ _ _)))

/-- Nodes are made. -/
instance : MonadLift Numbering Planting where
  monadLift x := fun next => .ok ⟨x.run next, []⟩

/-- Something is found, or a part is missing. -/
instance : MonadLift (Except Fault) Planting where
  monadLift x := fun next => x.map fun a => ⟨(a, next), []⟩

/-- A part is missing. -/
def missing (fault : Fault) : Planting α :=
  fun _ => .error fault

/-- A problem is noted. -/
def note (problem : Problem) : Planting Unit :=
  fun next => .ok ⟨((), next), [problem]⟩

/-- All is read first, and the nodes are made of what was found. -/
def later (found : Except Fault (Report α)) (make : α → Numbering β) : Planting β :=
  fun next => found.map fun r => ⟨(make r.value).run next, r.problems⟩

/-! ## Reading first -/

theorem lift_ok (a : α) : (liftM (Except.ok a : Except Fault α) : Planting α) = pure a := rfl

/-- Nodes that are made before something is read can be made after that. -/
theorem lift_bind_later (x : Numbering α) (found : Except Fault (Report β))
    (make : α → β → Numbering γ) :
    (do let a ← (x : Planting α); later found (make a)) =
      later found fun b => (do let a ← x; make a b) := by
  funext next
  cases found <;> rfl

/-- Nodes that are made above others are made with them. -/
theorem later_bind_lift (found : Except Fault (Report α)) (make : α → Numbering β)
    (f : β → Numbering γ) :
    (do let b ← later found make; (f b : Planting γ)) =
      later found fun a => (do let b ← make a; f b) := by
  funext next
  cases found with
  | error fault => rfl
  | ok r =>
      exact congrArg Except.ok (congrArg (Report.mk _) (List.append_nil r.problems))

theorem map_later (f : β → γ) (found : Except Fault (Report α)) (make : α → Numbering β) :
    f <$> later found make = later found fun a => f <$> make a := by
  rw [map_eq_pure_bind]
  exact later_bind_lift found make fun b => pure (f b)

theorem map_found (found : Except Fault (Report α)) (f : α → β) :
    found.map (f <$> ·) = (do let r ← found; return f <$> r) := by
  cases found <;> rfl

/-- It makes no difference whether what was found is changed before nodes are made of it. -/
theorem later_map (found : Except Fault (Report α)) (f : α → β) (make : β → Numbering γ) :
    later (found.map (f <$> ·)) make = later found fun a => make (f a) := by
  funext next
  cases found with
  | error fault => rfl
  | ok r =>
      exact congrArg Except.ok (congrArg (Report.mk _) (List.append_nil r.problems))

/-- **What is read part by part, with nodes made after each part, can be read as a whole first.** -/
theorem mapM_later (found : α → Except Fault (Report β)) (make : β → Numbering γ) (as : List α) :
    as.mapM (fun a => later (found a) make) =
      later (do let parts ← as.mapM found; return parts.mapM id) fun bs => bs.mapM make := by
  induction as with
  | nil => rfl
  | cons a as ih =>
      rw [List.mapM_cons, List.mapM_cons, ih]
      funext next
      cases found a with
      | error fault => rfl
      | ok r =>
          cases as.mapM found with
          | error fault => rfl
          | ok parts =>
              have hvalue : ((r :: parts).mapM id).value = r.value :: (parts.mapM id).value := by
                rw [List.mapM_cons]
                rfl
              have hproblems : ((r :: parts).mapM id).problems =
                  r.problems ++ ((parts.mapM id).problems ++ []) := by
                rw [List.mapM_cons]
                rfl
              show _ = Except.ok (Report.mk ((((r :: parts).mapM id).value.mapM make).run next)
                ((r :: parts).mapM id).problems)
              rw [hvalue, hproblems, List.mapM_cons]
              rfl

end Planting

namespace OnePass

open SnippetTree.Numbering SnippetTree.Planting

/-! ## Values -/

/-- Reads the expression in a text and makes its tree while doing so. If there is none, the text is
kept as one node, or nothing is made. -/
def expression (r : Reader) (keep : Bool) (text : Text) : Planting (Option Tree) :=
  fun next => .ok (read r keep text next)

/-- Makes the tree of a text, as the only child of a node to come. -/
def value (r : Reader) (text : Text) : Planting (List Tree) :=
  Option.toList <$> expression r true text

/-- Makes the tree of a text if there is one. -/
def valueIfAny (r : Reader) (text : Text) : Planting (List Tree) :=
  if text.isEmpty then return [] else value r text

theorem expression_eq (r : Reader) (text : Text) :
    expression r false text = later (.ok (r.expression? text)) fun e? => e?.mapM Expr.toTree := by
  funext next
  exact congrArg Except.ok (read_eq r false text next)

theorem value_eq (r : Reader) (text : Text) :
    value r text = later (.ok (r.read text)) fun v => Reading.toTrees (some v) := by
  have hkept : expression r true text = later (.ok (r.read text)) fun v => some <$> v.toTree := by
    funext next
    exact congrArg Except.ok (read_eq r true text next)
  rw [value, hkept, map_later]
  rfl

theorem valueIfAny_eq (r : Reader) (text : Text) :
    valueIfAny r text = later (.ok (r.readIfAny text)) Reading.toTrees := by
  rw [valueIfAny, Reader.readIfAny]
  split
  · rfl
  · rw [value_eq]
    exact (later_map (.ok (r.read text)) some _).symm

/-! ## Assignments and declarations -/

/-- Makes the node of an assignment: first the target, then the value. -/
def assigned (r : Reader) (target : Lexeme) (operator : AssignOp) (text : Text) :
    Planting Tree := do
  let name ← identifier target
  let values ← valueIfAny r text
  create .assignment operator.text .operator (name :: values) false

theorem assigned_eq (r : Reader) (target : Lexeme) (operator : AssignOp) (text : Text) :
    assigned r target operator text =
      later (.ok (r.assigned operator text)) (Assigned.toTree target) := by
  rw [assigned, valueIfAny_eq]
  simp only [later_bind_lift, lift_bind_later]
  exact (later_map (.ok (r.readIfAny text)) (Assigned.mk operator) (Assigned.toTree target)).symm

/-- Makes the assignment of the initial value of a name, if there is one. -/
def initial (r : Reader) (name : Lexeme) : Option AssignSplit → Planting (List Tree)
  | none => return []
  | some split => ([·]) <$> assigned r name split.operator split.value

theorem initial_eq (r : Reader) (typeName name : Lexeme) (split : Option AssignSplit) :
    initial r name split =
      later (.ok (split.mapM fun split => r.assigned split.operator split.value)) fun a? =>
        (Declaration.mk typeName name a?).initialTrees := by
  cases split with
  | none => rfl
  | some split =>
      rw [initial, assigned_eq, map_later]
      exact (later_map (.ok (r.assigned split.operator split.value)) some fun a? =>
        (Declaration.mk typeName name a?).initialTrees).symm

/-- Makes the node of a declaration: first the type and the name, then the assignment of the initial
value. -/
def declaration (r : Reader) (text : Text) : Planting Tree :=
  let stripped := r.spec.strip text
  let split := Text.splitAssign? stripped
  let words := Text.words ((split.map (·.target)).getD stripped)
  match words.head?, words.getLast? with
  | some typeName, some name => do
    let typeLeaf ← keyword (String.ofList typeName)
    let leaf ← identifier (String.ofList name)
    let initial ← initial r (String.ofList name) split
    create .variableDeclaration ("Variable: " ++ String.ofList name) .identifier
      (typeLeaf :: leaf :: initial) false
  | _, _ => missing .noWord

theorem declaration_eq (r : Reader) (text : Text) :
    declaration r text = later (r.declaration text) Declaration.toTree := by
  rw [declaration, Reader.declaration]
  generalize Text.splitAssign? (r.spec.strip text) = split
  dsimp only
  generalize Text.words ((split.map (·.target)).getD (r.spec.strip text)) = words
  cases words.head? with
  | none => rfl
  | some typeName =>
      cases words.getLast? with
      | none => rfl
      | some name =>
          dsimp only
          rw [initial_eq r (String.ofList typeName)]
          simp only [later_bind_lift, lift_bind_later]
          have hmap := later_map
            (.ok (split.mapM fun split => r.assigned split.operator split.value))
            (Declaration.mk (String.ofList typeName) (String.ofList name)) Declaration.toTree
          cases split with
          | none => exact hmap.symm
          | some split => exact hmap.symm

/-- Makes the node of an assignment that is a line or a clause. -/
def assignment (r : Reader) (text : Text) : Planting Tree :=
  match (Text.splitAssign? (r.spec.strip text)).or (Text.splitAssign? text) with
  | none => missing .noAssignment
  | some split =>
    assigned r (String.ofList split.target) split.operator (r.spec.strip split.value)

theorem assignment_eq (r : Reader) (text : Text) :
    assignment r text = later (r.assignment text) Assignment.toTree := by
  rw [assignment, Reader.assignment]
  cases (Text.splitAssign? (r.spec.strip text)).or (Text.splitAssign? text) with
  | none => rfl
  | some split =>
      dsimp only
      rw [assigned_eq]
      exact (later_map (.ok (r.assigned split.operator (r.spec.strip split.value)))
        (Assignment.mk (String.ofList split.target)) Assignment.toTree).symm

/-! ## Heads of functions -/

/-- Makes the node of a parameter, unless the text declares none. -/
def parameter (spec : Dialect.Spec) (text : Text) : Numbering (Option Tree) :=
  if spec.bareParameters then
    let declared := Text.trim (text.takeWhile (· != '='))
    let (name, typeName) := (Text.cutAt? ':' declared).getD (declared, [])
    let name := Text.trim name
    let typeName := Text.trim typeName
    if name.isEmpty then return none
    else do
      let typeLeaves ← if typeName.isEmpty then pure [] else do
        pure [← keyword (String.ofList typeName)]
      let leaf ← identifier (String.ofList name)
      return some (← create .declaration (String.ofList name) .identifier (typeLeaves ++ [leaf])
        false)
  else
    let words := Text.words text
    match words.getLast? with
    | none => return none
    | some name =>
      let typeWords := words.dropLast
      if typeWords.isEmpty then return none
      else do
        let typeLeaf ← keyword (Text.joinWords typeWords)
        let leaf ← identifier (String.ofList name)
        return some (← create .declaration (String.ofList name) .identifier [typeLeaf, leaf] false)

/-- Makes the nodes of the parameters that are declared between commas. -/
def parameters (spec : Dialect.Spec) : List Text → Numbering (List Tree)
  | [] => return []
  | field :: fields => do
    let node ← parameter spec field
    let nodes ← parameters spec fields
    return node.toList ++ nodes

theorem parameter_eq (spec : Dialect.Spec) (text : Text) :
    parameter spec text = (spec.parameter? text).mapM Parameter.toTree := by
  unfold parameter Dialect.Spec.parameter?
  by_cases hbare : spec.bareParameters = true
  · rw [if_pos hbare, if_pos hbare]
    dsimp only
    split
    · rfl
    · split <;> rfl
  · rw [if_neg hbare, if_neg hbare]
    dsimp only
    cases (Text.words text).getLast? with
    | none => rfl
    | some name =>
        dsimp only
        split <;> rfl

/-- A field that declares no parameter leaves no node behind. -/
theorem parameters_eq (spec : Dialect.Spec) (fields : List Text) :
    parameters spec fields = (fields.filterMap spec.parameter?).mapM Parameter.toTree := by
  induction fields with
  | nil => rfl
  | cons field fields ih =>
      rw [parameters, parameter_eq, ih]
      cases h : spec.parameter? field with
      | none =>
          rw [List.filterMap_cons_none h]
          rfl
      | some p =>
          rw [List.filterMap_cons_some h, List.mapM_cons]
          rfl

/-- Makes the node of the head of a function: first the parameters, then the return type and the
name, and then the list that the parameters are put into, if there are any. -/
def functionHead (spec : Dialect.Spec) (text : Text) : Planting Tree := do
  let some (head, _) := Text.cutAt? '(' text | missing .noOpener
  let words := Text.words head
  let some name := words.getLast? | missing .noWord
  let some (_, afterCloser) := Text.cutAt? ')' text | missing .noCloser
  let nodes ← parameters spec (Text.splitAt ',' ((Text.parenthesized? text).getD []))
  let returnType ← keyword (FunctionHead.returnTypeOf spec words.dropLast afterCloser)
  let leaf ← identifier (String.ofList name)
  let list ← groupIfAny .parameterList "Parameters" nodes
  create .functionDeclaration ("Function: " ++ String.ofList name) .identifier
    (returnType :: leaf :: list) false

theorem functionHead_eq (spec : Dialect.Spec) (text : Text) :
    functionHead spec text =
      later ((FunctionHead.extract spec text).map pure) FunctionHead.toTree := by
  rw [functionHead, FunctionHead.extract]
  cases Text.cutAt? '(' text with
  | none => rfl
  | some opened =>
      dsimp only
      cases (Text.words opened.1).getLast? with
      | none => rfl
      | some name =>
          dsimp only
          cases Text.cutAt? ')' text with
          | none => rfl
          | some closed =>
              dsimp only
              rw [parameters_eq]
              rfl

/-! ## Headers -/

/-- Makes the node of an if or while header. -/
def condition (r : Reader) (text : Text) : Planting Tree :=
  match Text.conditionHeader? text with
  | none => missing .noHeader
  | some (word, rest) => do
    let test ← valueIfAny r (r.conditionText rest)
    create word.kind word.text .keyword test false

theorem condition_eq (r : Reader) (text : Text) :
    condition r text = later (r.condition text) Statement.toTree := by
  rw [condition, Reader.condition]
  cases Text.conditionHeader? text with
  | none => rfl
  | some header =>
      obtain ⟨word, rest⟩ := header
      dsimp only
      rw [valueIfAny_eq, later_bind_lift]
      exact (later_map (.ok (r.readIfAny (r.conditionText rest))) (Statement.condition word)
        Statement.toTree).symm

/-- Makes the node of a clause, above the declaration, the assignment or the expression that it
holds. -/
def clause (r : Reader) (role : ClauseRole) (text : Text) : Planting Tree := do
  let content ←
    if Declaration.isDeclaration r.spec text then ([·]) <$> declaration r text
    else if Assignment.isAssignment text then ([·]) <$> assignment r text
    else value r text
  create .expression role.label .keyword content true

theorem clause_eq (r : Reader) (role : ClauseRole) (text : Text) :
    clause r role text = later (r.clause role text) Clause.toTree := by
  rw [clause, Reader.clause]
  split
  · rw [declaration_eq, map_later, later_bind_lift]
    refine (later_map _ (fun d => Clause.mk role (.declaration d)) Clause.toTree).symm.trans ?_
    rw [map_found]
    rfl
  · split
    · rw [assignment_eq, map_later, later_bind_lift]
      refine (later_map _ (fun a => Clause.mk role (.assignment a)) Clause.toTree).symm.trans ?_
      rw [map_found]
      rfl
    · rw [value_eq, later_bind_lift]
      exact (later_map (.ok (r.read text)) (fun v => Clause.mk role (.reading v))
        Clause.toTree).symm

/-- Makes the node of the header of a loop, after the nodes of its clauses. -/
def forLoop (r : Reader) (text : Text) : Planting Tree := do
  let clauses ← (r.clauseTexts text).mapM fun (role, part) => clause r role part
  create .forLoop "for" .keyword clauses false

theorem forLoop_eq (r : Reader) (text : Text) :
    forLoop r text = later (r.forLoop text) Statement.toTree := by
  have hclauses : (fun part : ClauseRole × Text => clause r part.1 part.2) =
      fun part => later (r.clause part.1 part.2) Clause.toTree := by
    funext part
    exact clause_eq r part.1 part.2
  have hfound : r.forLoop text = (do
      let parts ← (r.clauseTexts text).mapM fun part => r.clause part.1 part.2
      return parts.mapM id : Except Fault (Report (List Clause))).map
        (Statement.forLoop <$> ·) := by
    show ((r.clauseTexts text).mapM fun part => r.clause part.1 part.2) >>= _ = _
    cases (r.clauseTexts text).mapM fun part : ClauseRole × Text => r.clause part.1 part.2 <;> rfl
  show ((r.clauseTexts text).mapM fun part => clause r part.1 part.2) >>= _ = _
  rw [hclauses, mapM_later, later_bind_lift, hfound, later_map]
  rfl

/-! ## Lines -/

/-- Makes the node of the return of a value. -/
def returning (r : Reader) (text : Text) : Planting Tree := do
  let value ← valueIfAny r (r.spec.strip (text.drop "return".length))
  create .returning "return" .keyword value false

theorem returning_eq (r : Reader) (text : Text) :
    returning r text = later (.ok (r.returning text)) Statement.toTree := by
  rw [returning, valueIfAny_eq, later_bind_lift]
  exact (later_map (.ok (r.readIfAny (r.spec.strip (text.drop "return".length))))
    Statement.returning Statement.toTree).symm

/-- Makes the node of an expression statement, if there is an expression. -/
def expressionStatement (r : Reader) (text : Text) : Planting (Option Tree) := do
  let stripped := r.spec.strip text
  if stripped.isEmpty then return none
  else
    let t? ← expression r false stripped
    (t?.mapM fun t => create .statement (String.ofList stripped) .identifier [t] false :
      Numbering (Option Tree))

theorem expressionStatement_eq (r : Reader) (text : Text) :
    expressionStatement r text =
      later (.ok (r.expressionStatement? text)) (Option.mapM Statement.toTree) := by
  rw [expressionStatement, Reader.expressionStatement?]
  generalize r.spec.strip text = stripped
  split
  · rfl
  · have hmake : (fun e? : Option Expr => e?.mapM Expr.toTree >>= fun t? =>
        t?.mapM fun t => create .statement (String.ofList stripped) .identifier [t] false) =
          fun e? => (e?.map (Statement.expression (String.ofList stripped))).mapM
            Statement.toTree := by
      funext e?
      cases e? <;> rfl
    rw [expression_eq, later_bind_lift, hmake]
    exact (later_map (.ok (r.expression? stripped))
      (Option.map (Statement.expression (String.ofList stripped)))
      (Option.mapM Statement.toTree)).symm

/-- Makes the node of a line by a rule, if the rule finds a statement. -/
def extract (rule : Rule) (r : Reader) (text : Text) : Planting (Option Tree) :=
  match rule with
  | .variableDeclaration => some <$> declaration r text
  | .functionDeclaration => some <$> functionHead r.spec text
  | .condition => some <$> condition r text
  | .forHeader => some <$> forLoop r text
  | .returning => some <$> returning r text
  | .assignment => some <$> assignment r text
  | .expression => expressionStatement r text

/-- The node of a statement of one sort is the node of the statement. -/
theorem some_later {α : Type} (sort : α → Statement) (make : α → Numbering Tree)
    (h : ∀ a, (sort a).toTree = make a) (found : Except Fault (Report α)) :
    some <$> later found make =
      later (found.map ((fun a => some (sort a)) <$> ·)) (Option.mapM Statement.toTree) := by
  rw [map_later, later_map]
  exact congrArg (later found) (funext fun a => congrArg (some <$> ·) (h a).symm)

theorem extract_eq (rule : Rule) (r : Reader) (text : Text) :
    extract rule r text = later (rule.extract r text) (Option.mapM Statement.toTree) := by
  cases rule with
  | variableDeclaration =>
      rw [extract, declaration_eq, some_later .declaration Declaration.toTree fun _ => rfl,
        map_found]
      rfl
  | functionDeclaration =>
      rw [extract, functionHead_eq, some_later .function FunctionHead.toTree fun _ => rfl,
        Rule.extract]
      cases FunctionHead.extract r.spec text <;> rfl
  | condition =>
      rw [extract, condition_eq, some_later id Statement.toTree fun _ => rfl, map_found]
      rfl
  | forHeader =>
      rw [extract, forLoop_eq, some_later id Statement.toTree fun _ => rfl, map_found]
      rfl
  | returning =>
      rw [extract, returning_eq, some_later id Statement.toTree fun _ => rfl]
      rfl
  | assignment =>
      rw [extract, assignment_eq, some_later .assignment Assignment.toTree fun _ => rfl,
        map_found]
      rfl
  | expression => exact expressionStatement_eq r text

/-- Makes the node of a line by a rule. A line in which the rule finds no statement is dropped. -/
def takeOrDrop (rule : Rule) (r : Reader) (text : Text) : Planting (Option Tree) := do
  match ← extract rule r text with
  | some t => return some t
  | none =>
    note (.droppedLine (String.ofList text))
    return none

/-- Makes the node of a line. A line without a statement makes none. -/
def classify (r : Reader) (rules : List Rule) (line : Text) : Planting (Option Tree) := do
  let text := Text.normalize line
  if text.isEmpty then return none
  else if text.all Text.isStructural then return none
  else
    let rule ← Rule.choose rules r.spec text
    takeOrDrop rule r text

/-- **A line that is read and numbered in one pass gives what it gives when it is read first.** -/
theorem classify_eq (r : Reader) (rules : List Rule) (line : Text) (first : Int) :
    (classify r rules line).run first = r.nodeFrom rules line first := by
  rw [classify, Reader.nodeFrom, Reader.classify]
  generalize Text.normalize line = text
  split
  · rfl
  split
  · rfl
  cases Rule.choose rules r.spec text with
  | error fault => rfl
  | ok rule =>
      rw [lift_ok, pure_bind, takeOrDrop, extract_eq]
      show _ = (rule.extract r text >>= fun found => _) >>= _
      cases rule.extract r text with
      | error fault => rfl
      | ok found =>
          obtain ⟨s?, problems⟩ := found
          cases s? with
          | none => rfl
          | some s =>
              exact congrArg Except.ok (congrArg (Report.mk _) (List.append_nil problems))

end OnePass

end SnippetTree
