import SnippetTree.Proofs.Schema

/-!
# What each line adds to a build

A build of lines is put together by passes over all lines: they are classified, the statements are
numbered, the trees are sorted. Here the same build is described line by line. The *share* of a line
is what it adds, from the number that is free before it: no tree or one, the problems found in it,
and the number that is free after it. One share starts where the last one ended, and that is all
that one line ever knows of another.

The passes and the shares come to the same: the functions, declarations and statements of a built
tree are the trees of the shares, sorted by their kinds, and its warnings are the warnings of the
shares, after those that belong to every build (`Assembler.build_shares`).
-/

namespace SnippetTree

open SnippetTree.Numbering

/-! ## Reading a program off its tree -/

namespace Tree

/-- The tree declares a function. -/
def isFunction (t : Tree) : Bool :=
  t.kind == .functionDeclaration

/-- The tree declares a variable. -/
def isDeclaration (t : Tree) : Bool :=
  t.kind == .variableDeclaration

/-- The tree belongs to the statements of a program. -/
def isOther (t : Tree) : Bool :=
  !t.isFunction && !t.isDeclaration

/-- A tree does not declare both a function and a variable. -/
theorem isDeclaration_of_isFunction {t : Tree} (h : t.isFunction = true) :
    t.isDeclaration = false := by
  rw [isDeclaration, beq_iff_eq.mp h]
  rfl

/-- The functions of a program. -/
def functions (t : Tree) : List Tree :=
  t.children.filter Tree.isFunction

/-- What stands in the groups of a kind below the root. -/
def members (group : Kind) (t : Tree) : List Tree :=
  (t.children.filter fun c => Tree.kind c == group).flatMap Rose.children

/-- The declarations of a program. -/
def declarations (t : Tree) : List Tree :=
  t.members .declarationsGroup

/-- The statements of a program that are neither functions nor declarations. -/
def statements (t : Tree) : List Tree :=
  t.members .statementsGroup

end Tree

/-- The places of a program that the tree of a line can be put in. -/
inductive Place where
  | functions
  | declarations
  | statements
  deriving DecidableEq, Repr

namespace Place

/-- The tree belongs to the place, according to the kind of its root. -/
def takes : Place → Tree → Bool
  | functions => Tree.isFunction
  | declarations => Tree.isDeclaration
  | statements => Tree.isOther

/-- What stands in the place of a program. -/
def members : Place → Tree → List Tree
  | functions => Tree.functions
  | declarations => Tree.declarations
  | statements => Tree.statements

end Place

/-! ## Shares -/

/-- What a line adds to a build. -/
structure Share where
  /-- The number of the line, counted from one. -/
  number : Int
  /-- The number of nodes that is free before the line. -/
  first : Int
  trees : List Tree
  /-- The number of nodes that is free after the line. -/
  next : Int
  warnings : List Warning

/-- The share of a line of which that much has become. -/
def Outcome.share (number first : Int) (outcome : Outcome) : Share where
  number := number
  first := first
  trees := (outcome.toTree.run first).1.toList
  next := (outcome.toTree.run first).2
  warnings := outcome.warnings number

/-- The shares of lines, each of which starts where the one before it ended. -/
def shares : (number first : Int) → List Outcome → List Share
  | _, _, [] => []
  | number, first, outcome :: outcomes =>
    let share := outcome.share number first
    share :: shares (number + 1) share.next outcomes

/-- The number that is free after some shares, if `first` is free before them. -/
def freeAfter : (first : Int) → List Share → Int
  | first, [] => first
  | _, share :: rest => freeAfter share.next rest

/-- The line is blank or a comment. -/
def Settings.passesOver (settings : Settings) (line : Text) : Bool :=
  (Text.trim line).isEmpty || settings.isComment (Text.trim line)

namespace Reader

/-- What becomes of a line of a snippet, blank lines and comments included. -/
def lineOutcome (r : Reader) (settings : Settings) (line : Text) : Except Fault Outcome :=
  if settings.passesOver line then .ok .blank
  else r.classify Rule.standard (Text.trim line)

/-- What becomes of every line of a snippet. -/
def lineOutcomes (r : Reader) (settings : Settings) (text : Text) : Except Fault (List Outcome) :=
  (Text.lines text).mapM (r.lineOutcome settings)

end Reader

/-! ## Numbers -/

/-- The first statement has the first numbers, if there is one. -/
theorem run_mapM_filterMap_cons {α : Type} (statement? : α → Option Statement) (a : α)
    (as : List α) (first : Int) :
    (((a :: as).filterMap statement?).mapM Statement.toTree).run first =
      let made := ((statement? a).mapM Statement.toTree).run first
      let more := ((as.filterMap statement?).mapM Statement.toTree).run made.2
      (made.1.toList ++ more.1, more.2) := by
  cases hs : statement? a with
  | none =>
      rw [List.filterMap_cons_none hs]
      rfl
  | some s =>
      rw [List.filterMap_cons_some hs, List.mapM_cons]
      rfl

/-- Numbering all statements at once takes the same numbers as numbering line by line. -/
theorem run_mapM_statements (number first : Int) (outcomes : List Outcome) :
    ((outcomes.filterMap Outcome.statement?).mapM Statement.toTree).run first =
      ((shares number first outcomes).flatMap Share.trees,
        freeAfter first (shares number first outcomes)) := by
  -- what is free before a line is what the lines before it have left
  induction outcomes generalizing number first with
  | nil => rfl
  | cons outcome outcomes ih =>
      rw [run_mapM_filterMap_cons]
      dsimp only
      rw [ih (number + 1)]
      rfl

/-! ## Lines -/

namespace Reader

variable {r : Reader} {settings : Settings}

/-- The lines with code among those that are numbered from `n` on. -/
def codeLinesFrom (settings : Settings) (n : Nat) (lines : List Text) : List (Int × Text) :=
  ((lines.zipIdx n).map fun (line, number) => ((number : Int), Text.trim line)).filter
    fun (_, line) => !line.isEmpty && !settings.isComment line

theorem codeLinesFrom_cons (settings : Settings) (n : Nat) (line : Text) (lines : List Text) :
    codeLinesFrom settings n (line :: lines) =
      if settings.passesOver line then codeLinesFrom settings (n + 1) lines
      else ((n : Int), Text.trim line) :: codeLinesFrom settings (n + 1) lines := by
  have hkeep : (!(Text.trim line).isEmpty && !settings.isComment (Text.trim line)) =
      !settings.passesOver line := by rw [Settings.passesOver, Bool.not_or]
  simp only [codeLinesFrom, List.zipIdx_cons, List.map_cons, List.filter_cons, hkeep]
  cases settings.passesOver line with
  | true => rfl
  | false => rfl

/-- What the lines with code become is what all lines become, without the lines that add nothing. -/
theorem outcomes_of_lineOutcomes {lines : List Text} {outcomes : List Outcome} (n : Nat)
    (h : lines.mapM (r.lineOutcome settings) = .ok outcomes) :
    ∃ numbered : List (Int × Outcome),
      ((codeLinesFrom settings n lines).mapM fun (number, line) => do
        return (number, ← r.classify Rule.standard line)) = .ok numbered ∧
      (∀ first : Int, (numbered.flatMap fun (line, outcome) => outcome.warnings line) =
        (shares n first outcomes).flatMap Share.warnings) ∧
      (numbered.filterMap fun (_, outcome) => outcome.statement?) =
        outcomes.filterMap Outcome.statement? := by
  induction lines generalizing n outcomes with
  | nil =>
      cases h
      exact ⟨[], rfl, fun _ => rfl, rfl⟩
  | cons line lines ih =>
      rw [List.mapM_cons] at h
      obtain ⟨outcome, houtcome, hrest⟩ := exists_of_bind_ok h
      obtain ⟨later, hlater, heq⟩ := exists_of_bind_ok hrest
      cases heq
      obtain ⟨numbered, hnumbered, hwarnings, hstatements⟩ := ih (n + 1) hlater
      have hshares : ∀ first : Int, (shares n first (outcome :: later)).flatMap Share.warnings =
          outcome.warnings n ++ numbered.flatMap fun (line, outcome) => outcome.warnings line := by
        intro first
        rw [hwarnings (outcome.share n first).next]
        rfl
      unfold lineOutcome at houtcome
      by_cases hpass : settings.passesOver line = true
      · -- the line is left out, and adds nothing where it is kept
        rw [if_pos hpass] at houtcome
        cases houtcome
        rw [codeLinesFrom_cons, if_pos hpass]
        exact ⟨numbered, hnumbered, fun first => (hshares first).symm, hstatements⟩
      · -- the line is classified, as it is among the lines with code
        rw [if_neg hpass] at houtcome
        rw [codeLinesFrom_cons, if_neg hpass]
        refine ⟨((n : Int), outcome) :: numbered, ?_, fun first => (hshares first).symm, ?_⟩
        · have hhead : (do return ((n : Int), ← r.classify Rule.standard (Text.trim line))) =
              Except.ok ((n : Int), outcome) := by
            rw [houtcome]
            rfl
          rw [List.mapM_cons, hnumbered]
          dsimp only
          rw [hhead]
          rfl
        · rw [List.filterMap_cons, List.filterMap_cons, hstatements]

end Reader

/-! ## Trees -/

theorem Statement.isFunction_toTree (s : Statement) (first : Int) :
    (s.toTree.run first).1.isFunction = s.isFunction := by
  cases s with
  | condition word _ => cases word <;> rfl
  | _ => rfl

theorem Statement.isDeclaration_toTree (s : Statement) (first : Int) :
    (s.toTree.run first).1.isDeclaration = s.isDeclaration := by
  cases s with
  | condition word _ => cases word <;> rfl
  | _ => rfl

namespace Program

theorem select_eq_filter {p : Statement → Bool} {q : Tree → Bool} {statements : List Statement}
    {trees : List Tree} (h : List.Forall₂ (fun s t => q t = p s) statements trees) :
    select p statements trees = trees.filter q := by
  induction h with
  | nil => rfl
  | @cons s t statements trees hst _ ih =>
      simp only [select, List.zip_cons_cons, List.filter_cons, hst] at ih ⊢
      split
      · rw [List.map_cons, ih]
      · exact ih

/-- The children of a root above sorted trees, when `next` is the number of the first group. -/
def sorted (trees : List Tree) (next : Int) : List Tree :=
  let declarations := (groupIfAny .declarationsGroup "Declarations"
    (trees.filter Tree.isDeclaration)).run next
  let statements := (groupIfAny .statementsGroup "Statements"
    (trees.filter Tree.isOther)).run declarations.2
  trees.filter Tree.isFunction ++ declarations.1 ++ statements.1

/-- Statements are sorted by what they are, trees by their kinds, and both agree. -/
theorem select_toTree (statements : List Statement) (first : Int) :
    let trees := ((statements.mapM Statement.toTree).run first).1
    select Statement.isFunction statements trees = trees.filter Tree.isFunction ∧
      select Statement.isDeclaration statements trees = trees.filter Tree.isDeclaration ∧
      select (fun s => !s.isFunction && !s.isDeclaration) statements trees =
        trees.filter Tree.isOther := by
  have hkinds : List.Forall₂ (fun s t => Tree.isFunction t = s.isFunction ∧
      Tree.isDeclaration t = s.isDeclaration) statements
        ((statements.mapM Statement.toTree).run first).1 :=
    always_mapM (fun s _ first => ⟨s.isFunction_toTree first, s.isDeclaration_toTree first⟩) first
  exact ⟨select_eq_filter (hkinds.imp fun _ _ h => h.1),
    select_eq_filter (hkinds.imp fun _ _ h => h.2),
    select_eq_filter (hkinds.imp fun _ _ h => by rw [Tree.isOther, h.1, h.2])⟩

/-- The trees of a program are sorted by their kinds. -/
theorem run_lines (statements : List Statement) (first : Int) :
    ((Program.lines statements).toTrees.run first).1 =
      sorted ((statements.mapM Statement.toTree).run first).1
        ((statements.mapM Statement.toTree).run first).2 := by
  obtain ⟨hfunctions, hdeclarations, hothers⟩ := select_toTree statements first
  rw [sorted, ← hfunctions, ← hdeclarations, ← hothers]
  rfl

/-! What is sorted into a program can be read off it again. -/

theorem filter_groupIfAny_of_not {q : Tree → Bool} {kind : Kind} {label : Lexeme} {ts : List Tree}
    (h : ∀ id, q (.mk id kind label .keyword ts true) = false) (next : Int) :
    ((groupIfAny kind label ts).run next).1.filter q = [] := by
  cases ts with
  | nil => rfl
  | cons t ts =>
      show [Tree.mk next kind label .keyword (t :: ts) true].filter q = []
      rw [List.filter_cons, h next]
      rfl

theorem members_groupIfAny (kind : Kind) (label : Lexeme) (ts : List Tree) (next : Int) :
    (((groupIfAny kind label ts).run next).1.filter fun c => Tree.kind c == kind).flatMap
      Rose.children = ts := by
  cases ts with
  | nil => rfl
  | cons t ts =>
      show ([Tree.mk next kind label .keyword (t :: ts) true].filter
        fun c => Tree.kind c == kind).flatMap Rose.children = t :: ts
      have hkind : (Tree.kind (.mk next kind label .keyword (t :: ts) true) == kind) = true :=
        beq_self_eq_true kind
      rw [List.filter_cons, if_pos hkind]
      exact List.append_nil _

theorem filter_isFunction_of_not {kind : Kind} (h : kind ≠ .functionDeclaration)
    (trees : List Tree) :
    ((trees.filter Tree.isFunction).filter fun c => Tree.kind c == kind) = [] := by
  rw [List.filter_eq_nil_iff]
  intro t ht hkind
  have hfunction : (Tree.kind t == .functionDeclaration) = true := (List.mem_filter.mp ht).2
  rw [beq_iff_eq] at hfunction hkind
  exact h (hkind.symm.trans hfunction)

variable (trees : List Tree) (next : Int)

theorem functions_sorted : (sorted trees next).filter Tree.isFunction =
    trees.filter Tree.isFunction := by
  rw [sorted, List.filter_append, List.filter_append, List.filter_filter,
    filter_groupIfAny_of_not fun _ => rfl, filter_groupIfAny_of_not fun _ => rfl]
  simp

theorem declarations_sorted :
    ((sorted trees next).filter fun c => Tree.kind c == .declarationsGroup).flatMap Rose.children =
      trees.filter Tree.isDeclaration := by
  rw [sorted, List.filter_append, List.filter_append, filter_isFunction_of_not (by decide),
    List.flatMap_append, List.nil_append, members_groupIfAny,
    filter_groupIfAny_of_not fun _ => rfl, List.flatMap_nil, List.append_nil]

theorem statements_sorted :
    ((sorted trees next).filter fun c => Tree.kind c == .statementsGroup).flatMap Rose.children =
      trees.filter Tree.isOther := by
  rw [sorted, List.filter_append, List.filter_append, filter_isFunction_of_not (by decide),
    List.flatMap_append, List.nil_append, members_groupIfAny,
    filter_groupIfAny_of_not fun _ => rfl, List.flatMap_nil, List.nil_append]

end Program

/-! ## Builds -/

namespace Assembler

variable {a : Assembler}

/-- The build is what the shares add up to. -/
structure SumOf (a : Assembler) (built : Built) (shares : List Share) : Prop where
  /-- The nodes below the root are the trees of the shares, sorted, and the groups. -/
  children : built.tree.children =
    Program.sorted (shares.flatMap Share.trees) (freeAfter 2 shares)
  /-- What stands in a place is what the lines add to it, in the order of the lines. -/
  places : ∀ place : Place,
    place.members built.tree = (shares.flatMap Share.trees).filter place.takes
  /-- The warnings that belong to every build come before those of the lines. -/
  warnings : built.warnings = a.standing ++ shares.flatMap Share.warnings

/-- What a build gives, in terms of what the snippet was understood as. -/
theorem build_of_understand {text : String} {understood : Understood}
    (h : a.reader.understand a.settings text.toList = .ok understood) :
    ∃ built after, a.build text = .ok (built, after) ∧
      built.tree.children = (understood.program.toTrees.run 2).1 ∧
      built.warnings = a.standing ++ understood.warnings := by
  unfold build
  rw [h]
  exact ⟨_, _, rfl, rfl, rfl⟩

/-- A tree whose children are sorted has what was sorted into it. -/
theorem members_of_children {t : Tree} {trees : List Tree} {next : Int}
    (h : t.children = Program.sorted trees next) (place : Place) :
    place.members t = trees.filter place.takes := by
  cases place with
  | functions =>
      show t.children.filter Tree.isFunction = _
      rw [h]
      exact Program.functions_sorted trees next
  | declarations =>
      show (t.children.filter fun c => Tree.kind c == .declarationsGroup).flatMap Rose.children = _
      rw [h]
      exact Program.declarations_sorted trees next
  | statements =>
      show (t.children.filter fun c => Tree.kind c == .statementsGroup).flatMap Rose.children = _
      rw [h]
      exact Program.statements_sorted trees next

/-- **Every build of lines is the sum of the shares of its lines**, the first of which has the
number that is free after the root. -/
theorem build_shares (hspec : a.reader.spec.Regular) (hline : a.dialect.isLineOriented = true)
    (text : String) : ∃ outcomes built after,
      a.reader.lineOutcomes a.settings text.toList = .ok outcomes ∧
      a.build text = .ok (built, after) ∧ a.SumOf built (shares 1 2 outcomes) := by
  have houtcomes : ∃ outcomes, a.reader.lineOutcomes a.settings text.toList = .ok outcomes := by
    refine exists_ok_mapM ?_ _
    intro line
    unfold Reader.lineOutcome
    split
    · exact ⟨.blank, rfl⟩
    · exact Reader.classify_ok hspec _
  obtain ⟨outcomes, houtcomes⟩ := houtcomes
  obtain ⟨numbered, hnumbered, hwarnings, hstatements⟩ :=
    Reader.outcomes_of_lineOutcomes 1 houtcomes
  -- the passes of the build see only the lines with code, and they add the same
  have hread : a.reader.outcomes a.settings text.toList = .ok numbered := hnumbered
  have hunderstood : a.reader.understand a.settings text.toList = .ok {
      program := .lines (numbered.filterMap fun (_, outcome) => outcome.statement?)
      warnings := numbered.flatMap fun (line, outcome) => outcome.warnings line
      notes := numbered.flatMap fun (line, outcome) => Note.ofOutcome line outcome } := by
    unfold Reader.understand Reader.readLines
    rw [if_pos (show a.reader.spec.dialect.isLineOriented = true from hline), hread]
    rfl
  obtain ⟨built, after, hbuild, htrees, hstanding⟩ := build_of_understand hunderstood
  have hchildren : built.tree.children =
      Program.sorted ((shares 1 2 outcomes).flatMap Share.trees)
        (freeAfter 2 (shares 1 2 outcomes)) := by
    rw [htrees, Program.run_lines, hstatements, run_mapM_statements 1 2 outcomes]
  rw [hwarnings 2] at hstanding
  exact ⟨outcomes, built, after, houtcomes, hbuild, hchildren, members_of_children hchildren,
    hstanding⟩

end Assembler

end SnippetTree
