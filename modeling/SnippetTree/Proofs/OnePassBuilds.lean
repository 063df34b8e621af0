import SnippetTree.Proofs.OnePassLines
import SnippetTree.Proofs.Shares

/-!
# Builds in one pass

A build classifies all lines, numbers what they are understood as, and selects the trees for the
places of the program. Here a build is one walk over the lines that carries the functions, the
declarations and the statements that it has made, with the warnings and the next free number: the
number of the root is taken before the first line, a line is classified and its node is made and put
behind those of its sort before the next line is looked at, and the groups and the root are made
when all lines are done.

What is carried is at every line what sorting all trees made so far would give (`Sorted.of`). One
line keeps that so (`add_of`), and hence do all of them (`sortLines_of`). Both builds therefore give
the same tree, with the same numbers and the same warnings (`build_eq`).
-/

namespace SnippetTree.OnePass

open SnippetTree.Numbering

/-- The nodes that were made for the lines so far, by their sorts, and what else was met. -/
structure Sorted where
  functions : List Tree
  declarations : List Tree
  statements : List Tree
  warnings : List Warning
  /-- The next free number. -/
  next : Int

namespace Sorted

/-- What is carried before the first line. -/
def start (next : Int) : Sorted := ⟨[], [], [], [], next⟩

/-- Takes in what was made for a line: its node goes behind the others of its sort. -/
def add (sorted : Sorted) (number : Int) (made : Report (Option Tree × Int)) : Sorted :=
  let warned := { sorted with
    warnings := sorted.warnings ++ made.problems.map fun problem => ⟨problem, number⟩
    next := made.value.2 }
  match made.value.1 with
  | none => warned
  | some t =>
    if t.isFunction then { warned with functions := sorted.functions ++ [t] }
    else if t.isDeclaration then { warned with declarations := sorted.declarations ++ [t] }
    else { warned with statements := sorted.statements ++ [t] }

/-- Makes the groups, and with them the children of the root. -/
def children (sorted : Sorted) : Numbering (List Tree) := do
  let declarations ← groupIfAny .declarationsGroup "Declarations" sorted.declarations
  let statements ← groupIfAny .statementsGroup "Statements" sorted.statements
  return sorted.functions ++ declarations ++ statements

end Sorted

/-- Reads lines from the one with the given number on, and sorts their nodes as they are made. -/
def sortLines (r : Reader) (settings : Settings) :
    (number : Nat) → List Text → Sorted → Except Fault Sorted
  | _, [], sorted => .ok sorted
  | number, line :: lines, sorted => do
    if settings.passesOver line then sortLines r settings (number + 1) lines sorted
    else
      let made ← (classify r Rule.standard (Text.trim line)).run sorted.next
      sortLines r settings (number + 1) lines (sorted.add number made)

/-- What is made below a root: its children with the next free number, and the warnings. -/
abbrev Below : Type := (List Tree × Int) × List Warning

/-- Makes what is below the root of a snippet of lines. -/
def ofLines (r : Reader) (settings : Settings) (text : Text) (next : Int) :
    Except Fault Below := do
  let sorted ← sortLines r settings 1 (Text.lines text) (.start next)
  return (sorted.children.run sorted.next, sorted.warnings)

/-- Makes what is below the root of a snippet that is one expression. -/
def ofExpression (r : Reader) (text : Text) (next : Int) : Below :=
  let made := read r true (Text.trim text) next
  let (statements, next) :=
    (group .statementsGroup "Statements" made.value.1.toList).run made.value.2
  (([statements], next), made.problems.map fun problem => ⟨problem, 1⟩)

/-- Makes what is below the root of a snippet. -/
def below (r : Reader) (settings : Settings) (text : Text) (next : Int) : Except Fault Below :=
  if r.spec.dialect.isLineOriented then ofLines r settings text next
  else .ok (ofExpression r text next)

/-- Builds the tree of a snippet, and gives it with the next free number and the warnings. -/
def build (a : Assembler) (text : String) : Except Fault (Tree × Int × List Warning) := do
  let (root, next) := fresh.run 1
  let ((children, next), warnings) ← below a.reader a.settings text.toList next
  let tree := .mk root .program a.reader.spec.title .keyword children false
  return (tree, next, a.standing ++ warnings)

/-! ## Lines -/

namespace Sorted

/-- The given trees, sorted. -/
def of (trees : List Tree) (warnings : List Warning) (next : Int) : Sorted where
  functions := trees.filter Tree.isFunction
  declarations := trees.filter Tree.isDeclaration
  statements := trees.filter Tree.isOther
  warnings := warnings
  next := next

/-- What is carried stays the trees so far, sorted. -/
theorem add_of (trees : List Tree) (warnings : List Warning) (next number : Int)
    (made : Report (Option Tree × Int)) :
    (of trees warnings next).add number made = of (trees ++ made.value.1.toList)
      (warnings ++ made.problems.map fun problem => ⟨problem, number⟩) made.value.2 := by
  obtain ⟨⟨t?, after⟩, problems⟩ := made
  cases t? with
  | none =>
      rw [Option.toList_none, List.append_nil]
      rfl
  | some t =>
      unfold of add
      simp only [Option.toList_some, List.filter_append, List.filter_singleton]
      by_cases hfunction : t.isFunction = true
      · have hdeclaration := Tree.isDeclaration_of_isFunction hfunction
        simp [Tree.isOther, hfunction, hdeclaration]
      · by_cases hdeclaration : t.isDeclaration = true
        · simp [Tree.isOther, hfunction, hdeclaration]
        · simp [Tree.isOther, hfunction, hdeclaration]

/-- A program is grouped out of its sorted trees as it is out of its statements. -/
theorem run_children_of (statements : List Statement) (warnings : List Warning) (first : Int) :
    let made := (statements.mapM Statement.toTree).run first
    (of made.1 warnings made.2).children.run made.2 =
      (Program.lines statements).toTrees.run first := by
  obtain ⟨hfunctions, hdeclarations, hothers⟩ := Program.select_toTree statements first
  dsimp only
  rw [children, of, ← hfunctions, ← hdeclarations, ← hothers]
  rfl

end Sorted

/-- What is carried after lines that were understood as given, if it was the given trees, sorted,
before them. -/
def Sorted.after (trees : List Tree) (warnings : List Warning) (next : Int)
    (outcomes : List (Int × Outcome)) : Sorted :=
  let made := ((outcomes.filterMap fun (_, outcome) => outcome.statement?).mapM
    Statement.toTree).run next
  of (trees ++ made.1) (warnings ++ outcomes.flatMap fun (line, outcome) => outcome.warnings line)
    made.2

/-- The first of the lines can be taken in by itself. -/
theorem Sorted.after_cons (trees : List Tree) (warnings : List Warning) (next number : Int)
    (outcome : Outcome) (outcomes : List (Int × Outcome)) :
    after trees warnings next ((number, outcome) :: outcomes) =
      let made := outcome.toTree.run next
      after (trees ++ made.1.toList) (warnings ++ outcome.warnings number) made.2 outcomes := by
  rw [after, run_mapM_filterMap_cons, List.flatMap_cons]
  dsimp only
  rw [← List.append_assoc, ← List.append_assoc]
  rfl

/-- **Lines that are read one after the other, with their nodes made and sorted on the way, give
what they give when all of them are read first.** -/
theorem sortLines_of (r : Reader) (settings : Settings) (number : Nat) (lines : List Text)
    (trees : List Tree) (warnings : List Warning) (next : Int) :
    sortLines r settings number lines (.of trees warnings next) =
      ((Reader.codeLinesFrom settings number lines).mapM fun (line : Int × Text) => do
        return (line.1, ← r.classify Rule.standard line.2)).map
          (Sorted.after trees warnings next) := by
  -- each line leaves sorted trees to the next one
  induction lines generalizing number trees warnings next with
  | nil =>
      show Except.ok (Sorted.of trees warnings next) =
        .ok (.of (trees ++ []) (warnings ++ []) next)
      rw [List.append_nil, List.append_nil]
  | cons line lines ih =>
      rw [sortLines, Reader.codeLinesFrom_cons]
      by_cases hpass : settings.passesOver line = true
      · rw [if_pos hpass, if_pos hpass]
        exact ih (number + 1) trees warnings next
      · rw [if_neg hpass, if_neg hpass, List.mapM_cons, classify_eq, Reader.nodeFrom]
        dsimp only [Sorted.of]
        cases r.classify Rule.standard (Text.trim line) with
        | error fault => rfl
        | ok outcome =>
            show sortLines r settings (number + 1) lines ((Sorted.of trees warnings next).add _ _)
              = _
            rw [Sorted.add_of, ih]
            cases (Reader.codeLinesFrom settings (number + 1) lines).mapM
                fun line : Int × Text => do
                  return (line.1, ← r.classify Rule.standard line.2) with
            | error fault => rfl
            | ok outcomes =>
                have hfirst := Sorted.after_cons trees warnings next number outcome outcomes
                exact congrArg Except.ok hfirst.symm

/-! ## Builds -/

theorem ofLines_eq (r : Reader) (settings : Settings) (text : Text) (next : Int) :
    ofLines r settings text next = (r.readLines settings text).map fun understood =>
      (understood.program.toTrees.run next, understood.warnings) := by
  have hlines : sortLines r settings 1 (Text.lines text) (.start next) =
      (r.outcomes settings text).map (Sorted.after [] [] next) :=
    sortLines_of r settings 1 (Text.lines text) [] [] next
  rw [ofLines, hlines, Reader.readLines]
  cases r.outcomes settings text with
  | error fault => rfl
  | ok outcomes =>
      have hchildren := Sorted.run_children_of
        (outcomes.filterMap fun (_, outcome) => outcome.statement?)
        (outcomes.flatMap fun (line, outcome) => outcome.warnings line) next
      exact congrArg (fun children => Except.ok (children, _)) hchildren

theorem ofExpression_eq (r : Reader) (text : Text) (next : Int) :
    ofExpression r text next = ((r.readExpression text).program.toTrees.run next,
      (r.readExpression text).warnings) := by
  rw [ofExpression, read_eq]
  rfl

theorem below_eq (r : Reader) (settings : Settings) (text : Text) (next : Int) :
    below r settings text next = (r.understand settings text).map fun understood =>
      (understood.program.toTrees.run next, understood.warnings) := by
  rw [below, Reader.understand]
  split
  · exact ofLines_eq r settings text next
  · rw [ofExpression_eq]
    rfl

/-- **A build that makes each node when it comes to it gives the tree, the next free number and the
warnings of the build**, whatever the assembler and the text. -/
theorem build_eq (a : Assembler) (text : String) :
    build a text = (a.build text).map fun (built, _) =>
      (built.tree, built.next, built.warnings) := by
  simp only [build, below_eq, Assembler.build]
  cases a.reader.understand a.settings text.toList <;> rfl

end SnippetTree.OnePass
