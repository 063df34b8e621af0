import Mathlib.Data.List.Perm.Subperm
import SnippetTree.Proofs.Descent
import SnippetTree.Proofs.LineIndependence
import SnippetTree.Proofs.Placeholders

/-!
# Every defect is accounted for

Where an operand is missing the parser goes on: it builds an operator with the operands it has, or
leaves an empty place. Each time it notes a problem, and it never leaves two defects for one. What a
call gives may hold what the call was given, so a problem pays for a new defect only: the problems
that are noted on the way *cover* the defects that come on top of those that there were before
(`Problem.Cover`). Covers are chained like the calls (`Descent.Runs.cover`), then like the parts of
a line, and then like the lines of a snippet, so that in the end the remarks on a build cover its
tree.

There may be more problems than defects. A prefix operator without an operand is noted and an empty
place is left; an operator without any operand is noted and nothing is left of it.
-/

namespace SnippetTree

open SnippetTree.Grammar (join applySign)

namespace Expr

/-- The number of defects of several expressions: operators that lack an operand, and empty
places. -/
def defects (es : List Expr) : Nat :=
  (es.flatMap oneSided).length + (es.map gaps).sum

theorem defects_append (es fs : List Expr) : defects (es ++ fs) = defects es + defects fs := by
  rw [defects, defects, defects, List.flatMap_append, List.map_append, List.length_append,
    List.sum_append]
  omega

end Expr

open SnippetTree.Expr (defects)

/-! ## Problems that cover defects -/

namespace Problem

/-- The codes of the problems that may leave a defect. -/
def lossCodes : List String := ["P101", "P104", "P108"]

/-- The problem may leave a defect. -/
def isLoss (p : Problem) : Bool :=
  lossCodes.contains p.code

/-- The operator that lacks an operand, if the problem is one of that kind. -/
def lacking? : Problem → Option Lexeme
  | missingOperand operator => some operator
  | _ => none

/-- The problems account for the defects that there are on top of those that there were before. -/
structure Cover (before : List Expr) (problems : List Problem) (after : List Expr) : Prop where
  /-- Each operator that lacks an operand lacked it before or is named by a problem of its own. -/
  named : (after.flatMap Expr.oneSided).Subperm
    (before.flatMap Expr.oneSided ++ problems.filterMap lacking?)
  /-- Each defect was there before or there is a problem for it. -/
  total : defects after ≤ defects before + problems.countP isLoss

namespace Cover

variable {before middle after es fs : List Expr} {problems more : List Problem}

/-- Problems may leave no defect. -/
theorem idle (es : List Expr) (problems : List Problem) : Cover es problems es where
  named := (List.sublist_append_left _ _).subperm
  total := Nat.le_add_right _ _

theorem refl (es : List Expr) : Cover es [] es :=
  idle es []

theorem trans (h : Cover before problems middle) (h' : Cover middle more after) :
    Cover before (problems ++ more) after where
  named := by
    rw [List.filterMap_append, ← List.append_assoc]
    exact h'.named.trans (h.named.append (.refl _))
  total := by
    have htotal := h.total
    have htotal' := h'.total
    rw [List.countP_append]
    omega

/-- What is held is not touched by what happens after it. -/
theorem frame (h : Cover [] problems after) (held : List Expr) :
    Cover held problems (held ++ after) where
  named := by
    rw [List.flatMap_append]
    exact (List.Subperm.refl _).append h.named
  total := by
    have htotal := h.total
    have hnone : defects [] = 0 := rfl
    rw [Expr.defects_append]
    omega

theorem append (h : Cover [] problems es) (h' : Cover [] more fs) :
    Cover [] (problems ++ more) (es ++ fs) :=
  h.trans (h'.frame es)

theorem flatMap {α : Type} {as : List α} {found : α → List Problem} {exprs : α → List Expr}
    (h : ∀ a ∈ as, Cover [] (found a) (exprs a)) :
    Cover [] (as.flatMap found) (as.flatMap exprs) := by
  induction as with
  | nil => exact refl []
  | cons a as ih =>
      rw [List.forall_mem_cons] at h
      exact h.1.append (ih h.2)

/-- A problem that may leave a defect pays for an empty place. -/
theorem placeholder {p : Problem} (h : p.isLoss = true) : Cover [] [p] [.placeholder] where
  named := List.nil_subperm
  total := by
    rw [List.countP_singleton, if_pos h]
    exact Nat.le_refl 1

/-- An operator with one operand, on either side, is paid for by the problem that names it. -/
theorem oneSided {e e' : Expr} {operator : Lexeme} (hgaps : e'.gaps = e.gaps)
    (honeSided : e'.oneSided = operator :: e.oneSided) :
    Cover [e] [.missingOperand operator] [e'] where
  named := by
    rw [List.flatMap_singleton, List.flatMap_singleton, honeSided]
    exact (List.perm_append_singleton operator e.oneSided).symm.subperm
  total := by
    have hproblem : [Problem.missingOperand operator].countP isLoss = 1 := rfl
    rw [defects, defects, List.flatMap_singleton, List.flatMap_singleton, List.map_singleton,
      List.map_singleton, List.sum_singleton, List.sum_singleton, hgaps, honeSided, hproblem,
      List.length_cons]
    omega

/-- A call has the defects of its arguments. -/
theorem call (callee : Lexeme) (es : List Expr) : Cover es [] [.call callee es] where
  named := by
    rw [List.flatMap_singleton, Expr.oneSided, Expr.oneSidedAll_eq]
    exact (List.sublist_append_left _ _).subperm
  total := by
    rw [defects, defects, List.flatMap_singleton, List.map_singleton, List.sum_singleton,
      Expr.oneSided, Expr.oneSidedAll_eq, Expr.gaps, Expr.gapsAll_eq]
    exact Nat.le_add_right _ _

/-- A binary operator has the defects of its operands. -/
theorem binary (operator : Lexeme) (l r : Expr) : Cover [l, r] [] [.binary operator l r] := by
  have honeSided : [l, r].flatMap Expr.oneSided =
      [Expr.binary operator l r].flatMap Expr.oneSided := by simp [Expr.oneSided]
  have hgaps : ([l, r].map Expr.gaps).sum = ([Expr.binary operator l r].map Expr.gaps).sum := by
    simp [Expr.gaps]
  constructor
  · rw [honeSided]
    exact (List.sublist_append_left _ _).subperm
  · rw [defects, defects, honeSided, hgaps]
    exact Nat.le_add_right _ _

end Cover

end Problem

open SnippetTree.Problem (Cover)

/-! ## The parser -/

namespace Descent

theorem cover_join (operator : Lexeme) (left right : Option Expr) :
    Cover (left.toList ++ right.toList) (join operator left right).2
      (join operator left right).1.toList := by
  cases left <;> cases right
  · exact .idle [] _
  · exact .oneSided rfl rfl
  · exact .oneSided rfl rfl
  · exact .binary operator _ _

theorem cover_applySign (operator : Lexeme) (operand : Option Expr) :
    Cover operand.toList (applySign operator operand).2
      (applySign operator operand).1.toList := by
  cases operand with
  | none => exact ⟨List.nil_subperm, Nat.le_refl _⟩
  | some e => exact ⟨(List.sublist_append_left _ _).subperm, Nat.le_refl _⟩

theorem cover_name (g : Grammar) {name : Lexeme} (h : name.isIdentifier = true) :
    Cover [] [] [g.nameLeaf name] := by
  have hne : name ≠ "" := by
    rintro rfl
    cases h
  refine ⟨?_, ?_⟩
  · rw [List.flatMap_singleton, Expr.oneSided_nameLeaf]
    exact List.nil_subperm
  · rw [defects, List.flatMap_singleton, Expr.oneSided_nameLeaf, List.map_singleton,
      Expr.gaps_nameLeaf hne]
    exact Nat.zero_le _

variable {g : Grammar} {limit : Nat} {task : Task} {s : Place} {r : Result}
  {visited : List Place}

/-- An operator is joined with what is on its sides. -/
theorem cover_round (operator : Lexeme) (left : Option Expr) {right : Result}
    (h : Cover [] right.problems right.value.toList) :
    Cover left.toList (right.noting (join operator left)).problems
      (join operator left right.value).1.toList :=
  (h.frame left.toList).trans (cover_join operator left right.value)

/-- **The problems of a call cover the defects that it adds.** -/
theorem Runs.cover (h : Runs g limit task s r visited) :
    Cover task.given r.problems r.value.toList := by
  induction h with
  | noLexeme => exact .placeholder rfl
  | whole _ _ ih => exact ih.trans (.idle _ _)
  | noTier _ ih => exact ih
  | tier _ _ ihl ihr => exact ihl.trans ihr
  | noOperator => exact .refl _
  | @joined _ _ left _ operator _ _ _ _ _ _ _ _ _ hjoin _ ihright ih =>
      have hround := cover_round operator left ihright
      rw [hjoin] at hround
      exact hround.trans ih
  | @noOperand _ _ left operator _ _ _ _ _ _ _ hjoin ih =>
      have hround := cover_round operator left ih
      rw [hjoin] at hround
      exact hround
  | joinedRight _ _ _ ih => exact cover_round _ _ ih
  | sign _ _ ih => exact ih.trans (cover_applySign _ _)
  | noSign _ _ ih => exact ih
  | nothing => exact .refl _
  | group _ _ ih => exact ih
  | groupAtEnd _ _ ih => exact ih.trans (.idle _ _)
  | groupLeftOpen _ _ _ ih => exact ih
  | constant => exact ⟨List.nil_subperm, Nat.le_refl _⟩
  | name _ _ hname _ => exact cover_name g hname
  | call _ _ _ _ ih => exact ih
  | noPrimary => exact .refl _
  | argumentsAtEnd => exact (Cover.call _ _).trans (.idle _ _)
  | argumentsClosed => exact .call _ _
  | argumentThenPass _ _ _ _ _ iha ih => exact (iha.frame _).trans ih
  | argumentThenStay _ _ _ _ _ iha ih => exact (iha.frame _).trans ih
  | nested _ _ _ ih => exact ih
  | nothingNested => exact .refl _
  | tooDeep => exact .placeholder rfl
  | skipAtEnd => exact .refl _
  | skipClosed => exact .refl _
  | skipOver _ _ ih => exact ih

end Descent

/-- **The problems of a parse cover its defects.** -/
theorem Grammar.cover_parse (g : Grammar) (limit : Nat) (lexemes : List Lexeme) :
    Cover [] (g.parse limit lexemes).problems (g.parse limit lexemes).expr.toList := by
  obtain ⟨visited, hruns⟩ := Descent.runs_parse g limit lexemes
  exact hruns.cover

/-! ## Readings -/

/-- The problems of a report cover the defects of the expressions in its value. -/
def Report.Covers {α : Type} (x : Report α) (exprs : α → List Expr) : Prop :=
  Cover [] x.problems (exprs x.value)

namespace Report

variable {α β : Type} {x : Report α} {exprs : α → List Expr} {others : β → List Expr}

theorem covers_pure {a : α} (h : exprs a = []) : (pure a : Report α).Covers exprs := by
  unfold Covers
  rw [value_pure, h]
  exact .refl []

theorem Covers.bind {f : α → Report β} (hx : x.Covers exprs)
    (hf : ∀ a, Cover (exprs a) (f a).problems (others (f a).value)) : (x >>= f).Covers others :=
  hx.trans (hf x.value)

/-- What is put together from a value has its defects. -/
theorem Covers.map (hx : x.Covers exprs) {f : α → β} (h : ∀ a, others (f a) = exprs a) :
    (f <$> x).Covers others := by
  unfold Covers
  rw [problems_map, value_map, h]
  exact hx

theorem covers_mapM {f : α → Report β} {as : List α} (h : ∀ a ∈ as, (f a).Covers others) :
    (as.mapM f).Covers (List.flatMap others) := by
  induction as with
  | nil => exact covers_pure rfl
  | cons a as ih =>
      rw [List.forall_mem_cons] at h
      rw [List.mapM_cons]
      refine h.1.bind fun b => ?_
      exact ((ih h.2).frame (others b)).trans (.refl _)

end Report

/-- The expressions of a statement, if there is one. -/
def Statement.exprsIfAny (s : Option Statement) : List Expr :=
  s.elim [] Statement.exprs

namespace Reader

variable {r : Reader} {text : Text}

theorem covers_expression? (r : Reader) (text : Text) :
    (r.expression? text).Covers Option.toList :=
  (Cover.idle [] _).trans (r.spec.grammar.cover_parse r.limit _)

theorem covers_read (r : Reader) (text : Text) : (r.read text).Covers Reading.exprs := by
  refine (r.covers_expression? text).bind fun e? => ?_
  cases e? with
  | none => exact .idle [] _
  | some e => exact .refl [e]

theorem covers_readIfAny (r : Reader) (text : Text) :
    (r.readIfAny text).Covers fun value => value.elim [] Reading.exprs := by
  unfold readIfAny
  split
  · exact Report.covers_pure rfl
  · exact (r.covers_read text).bind fun _ => .refl _

theorem covers_assigned (r : Reader) (operator : AssignOp) (value : Text) :
    (r.assigned operator value).Covers Assigned.exprs :=
  (r.covers_readIfAny value).bind fun _ => .refl _

theorem covers_declaration {d : Report Declaration} (h : r.declaration text = .ok d) :
    d.Covers Declaration.exprs := by
  unfold declaration at h
  dsimp only at h
  split at h
  · cases h
    generalize Text.splitAssign? (r.spec.strip text) = split?
    cases split? with
    | none => exact Report.covers_pure rfl
    | some split =>
        have hinitial : (some <$> r.assigned split.operator split.value).Covers
            fun initial => initial.elim [] Assigned.exprs :=
          (r.covers_assigned split.operator split.value).map fun _ => rfl
        exact hinitial.bind fun _ => .refl _
  · cases h

theorem covers_assignment {a : Report Assignment} (h : r.assignment text = .ok a) :
    a.Covers fun a => a.assigned.exprs := by
  unfold assignment at h
  split at h
  · cases h
  · cases h
    exact (r.covers_assigned _ _).bind fun _ => .refl _

theorem covers_condition {s : Report Statement} (h : r.condition text = .ok s) :
    s.Covers Statement.exprs := by
  unfold condition at h
  split at h
  · cases h
  · cases h
    exact (r.covers_readIfAny _).bind fun _ => .refl _

theorem covers_clause {role : ClauseRole} {c : Report Clause} (h : r.clause role text = .ok c) :
    c.Covers fun c => c.content.exprs := by
  unfold clause at h
  split at h
  · obtain ⟨d, hd, heq⟩ := exists_of_bind_ok h
    cases heq
    exact (covers_declaration hd).bind fun _ => .refl _
  · split at h
    · obtain ⟨a, ha, heq⟩ := exists_of_bind_ok h
      cases heq
      exact (covers_assignment ha).bind fun _ => .refl _
    · cases h
      exact (r.covers_read text).bind fun _ => .refl _

theorem covers_forLoop {s : Report Statement} (h : r.forLoop text = .ok s) :
    s.Covers Statement.exprs := by
  obtain ⟨clauses, hclauses, heq⟩ := exists_of_bind_ok h
  cases heq
  refine Report.Covers.bind (Report.covers_mapM ?_) fun _ => .refl _
  intro c hc
  obtain ⟨_, -, hclause⟩ := exists_of_mem_of_forall₂ (forall₂_of_mapM_ok hclauses) hc
  exact covers_clause hclause

theorem covers_expressionStatement? (r : Reader) (text : Text) :
    (r.expressionStatement? text).Covers Statement.exprsIfAny := by
  unfold expressionStatement?
  dsimp only
  split
  · exact Report.covers_pure rfl
  · refine (r.covers_expression? _).map fun e? => ?_
    cases e? <;> rfl

end Reader

/-! ## Lines -/

/-- **The problems that a rule meets cover the defects of the statement** that it takes out. -/
theorem Rule.covers_extract {rule : Rule} {r : Reader} {text : Text}
    {found : Report (Option Statement)} (h : rule.extract r text = .ok found) :
    found.Covers Statement.exprsIfAny := by
  cases rule with
  | variableDeclaration =>
      obtain ⟨d, hd, heq⟩ := exists_of_bind_ok h
      cases heq
      exact (Reader.covers_declaration hd).bind fun _ => .refl _
  | functionDeclaration =>
      obtain ⟨f, -, heq⟩ := exists_of_bind_ok h
      cases heq
      exact Report.covers_pure rfl
  | condition =>
      obtain ⟨s, hs, heq⟩ := exists_of_bind_ok h
      cases heq
      exact (Reader.covers_condition hs).map fun _ => rfl
  | forHeader =>
      obtain ⟨s, hs, heq⟩ := exists_of_bind_ok h
      cases heq
      exact (Reader.covers_forLoop hs).map fun _ => rfl
  | returning =>
      cases h
      exact Report.Covers.map ((r.covers_readIfAny _).bind fun _ => .refl _) fun _ => rfl
  | assignment =>
      obtain ⟨a, ha, heq⟩ := exists_of_bind_ok h
      cases heq
      exact (Reader.covers_assignment ha).bind fun _ => .refl _
  | expression =>
      cases h
      exact r.covers_expressionStatement? text

/-- The expressions of the statement of a line, if it has one. -/
def Outcome.exprs (outcome : Outcome) : List Expr :=
  Statement.exprsIfAny outcome.statement?

/-- Problems that are put down as warnings about one line are not changed by that. -/
theorem Warning.map_problem (problems : List Problem) (line : Int) :
    (problems.map fun p => (⟨p, line⟩ : Warning)).map Warning.problem = problems := by
  rw [List.map_map]
  exact List.map_id _

namespace Reader

variable {r : Reader}

/-- A line that is dropped leaves no defect, whatever was found in it. -/
theorem cover_classify {rules : List Rule} {line : Text} {outcome : Outcome}
    (h : r.classify rules line = .ok outcome) : Cover [] outcome.problems outcome.exprs := by
  cases classified_of_classify h with
  | blank => exact .refl []
  | structural => exact .refl []
  | kept _ _ hextract => exact Rule.covers_extract hextract
  | dropped => exact .idle [] _

theorem cover_outcomes {settings : Settings} {text : Text} {outcomes : List (Int × Outcome)}
    (h : r.outcomes settings text = .ok outcomes) :
    Cover [] (outcomes.flatMap fun (_, outcome) => outcome.problems)
      (outcomes.flatMap fun (_, outcome) => outcome.exprs) := by
  refine Cover.flatMap ?_
  intro outcome hmem
  obtain ⟨line, -, hline⟩ := exists_of_mem_of_forall₂ (forall₂_of_mapM_ok h) hmem
  obtain ⟨outcome', hclassify, heq⟩ := exists_of_bind_ok hline
  cases heq
  exact cover_classify hclassify

/-- **The warnings about a snippet cover the defects of the program** that is read from it. -/
theorem cover_understand {settings : Settings} {text : Text} {understood : Understood}
    (h : r.understand settings text = .ok understood) :
    Cover [] (understood.warnings.map (·.problem)) understood.program.exprs := by
  unfold understand at h
  split at h
  · obtain ⟨outcomes, houtcomes, heq⟩ := exists_of_bind_ok h
    cases heq
    have hwarnings : ((outcomes.flatMap fun (line, outcome) => outcome.warnings line).map
        Warning.problem) = outcomes.flatMap fun (_, outcome) => outcome.problems := by
      rw [List.map_flatMap]
      refine List.flatMap_congr fun (line, outcome) _ => ?_
      exact Warning.map_problem outcome.problems line
    have hexprs : ((outcomes.filterMap fun (_, outcome) => outcome.statement?).flatMap
        Statement.exprs) = outcomes.flatMap fun (_, outcome) => outcome.exprs := by
      rw [List.filterMap_eq_flatMap_toList, List.flatMap_assoc]
      refine List.flatMap_congr fun (line, outcome) _ => ?_
      show outcome.statement?.toList.flatMap Statement.exprs = outcome.exprs
      unfold Outcome.exprs
      cases outcome.statement? with
      | none => rfl
      | some s => exact List.flatMap_singleton ..
    have hcover := cover_outcomes houtcomes
    rw [← hwarnings, ← hexprs] at hcover
    exact hcover
  · cases h
    have hcover := r.covers_read (Text.trim text)
    unfold Report.Covers at hcover
    rw [← Warning.map_problem (r.read (Text.trim text)).problems 1] at hcover
    exact hcover

end Reader

/-! ## Trees and remarks -/

/-- The remark is about a problem that may leave a defect. -/
def Diagnostic.isLoss (d : Diagnostic) : Bool :=
  d.code.any Problem.lossCodes.contains

/-- The remarks account for the defects of a tree, of whose empty names so many stand for an
operand. -/
structure Tree.Accounted (t : Tree) (empty : Nat) (diagnostics : List Diagnostic) : Prop where
  /-- A prefix operator has one operand, a binary one has one or two. -/
  arity : t.Arity
  /-- The remarks on missing operands name operators, and those of the tree that lack an operand are
  among them, as many times as they lack one. -/
  named : ∃ operators : List Lexeme,
    ((diagnostics.filter (·.code == some "P101")).map (·.message)) =
      operators.map (fun operator => (Problem.missingOperand operator).message) ∧
    t.oneSided.Subperm operators
  /-- There is a remark for each defect. -/
  total : t.oneSided.length + empty ≤ diagnostics.countP Diagnostic.isLoss
  /-- Without such remarks the tree has no defect. -/
  full : (∀ d ∈ diagnostics, d.isLoss = false) → t.IsFull ∧ empty = 0

namespace Problem

/-- The remarks on missing operands name the operators that lack one. -/
theorem named_diagnostics (warnings : List Warning) :
    (((warnings.map Warning.diagnostic).filter (·.code == some "P101")).map (·.message)) =
      ((warnings.map (·.problem)).filterMap lacking?).map
        (fun operator => (missingOperand operator).message) := by
  induction warnings with
  | nil => rfl
  | cons w warnings ih =>
      obtain ⟨p, line⟩ := w
      cases p with
      | missingOperand operator => exact congrArg (_ :: ·) ih
      | _ => exact ih

theorem countP_diagnostics (warnings : List Warning) :
    (warnings.map Warning.diagnostic).countP Diagnostic.isLoss =
      (warnings.map (·.problem)).countP isLoss := by
  rw [List.countP_map, List.countP_map]
  rfl

end Problem

/-- What covers the expressions of a tree accounts for the tree. -/
theorem Tree.Bear.accounted {t : Tree} {es : List Expr} {warnings : List Warning}
    (h : Tree.Bear [t] es) (hcover : Cover [] (warnings.map (·.problem)) es) :
    t.Accounted t.placeholders (warnings.map Warning.diagnostic) := by
  have harity := h.arity t (List.mem_singleton_self t)
  have honeSided := h.oneSided
  have hplaceholders := h.placeholders
  rw [List.flatMap_singleton] at honeSided
  rw [List.map_singleton, List.sum_singleton] at hplaceholders
  have htotal : t.oneSided.length + t.placeholders ≤
      (warnings.map Warning.diagnostic).countP Diagnostic.isLoss := by
    have hdefects : defects es ≤ defects [] + _ := hcover.total
    have hnone : defects [] = 0 := rfl
    rw [Problem.countP_diagnostics, honeSided.length_eq, hplaceholders]
    rw [defects] at hdefects
    omega
  refine ⟨harity, ⟨_, Problem.named_diagnostics warnings, ?_⟩, htotal, ?_⟩
  · exact honeSided.subperm.trans hcover.named
  · intro hnone
    have hzero : (warnings.map Warning.diagnostic).countP Diagnostic.isLoss = 0 :=
      List.countP_eq_zero.mpr fun d hd => by simp [hnone d hd]
    refine ⟨harity.isFull (List.length_eq_zero_iff.mp ?_), ?_⟩ <;> omega

/-- **Every defect is accounted for**, in the outcome of a parse, whatever the lexemes and the
table, and in every build. -/
theorem Tree.accounted_of_parse_and_build :
    (∀ (g : Grammar) (limit : Nat) (lexemes : List Lexeme), ∀ e ∈ (g.parse limit lexemes).expr,
      ∀ first line : Int, (e.toTree.run first).1.Accounted (e.toTree.run first).1.gaps
        ((g.parse limit lexemes).problems.map fun p => Warning.diagnostic ⟨p, line⟩)) ∧
    (∀ (settings : Settings) (frames : Nat) (name : Option String) (a : Assembler),
      Assembler.ofName settings frames name = .ok a → ∀ text : String,
      ∃ built after, a.build text = .ok (built, after) ∧
        built.tree.Accounted built.tree.placeholders built.diagnostics) := by
  constructor
  · intro g limit lexemes e he first line
    have hcover := g.cover_parse limit lexemes
    rw [Option.mem_def.mp he, ← Warning.map_problem (g.parse limit lexemes).problems line]
      at hcover
    have haccounted := (e.always_bears first).accounted hcover
    rw [(e.always_parsed first).placeholders_eq_gaps, List.map_map] at haccounted
    exact haccounted
  · intro settings frames name a h text
    obtain ⟨understood, hunderstood⟩ :=
      Reader.understand_ok (Assembler.regular_of_ofName h) a.settings text.toList
    -- an unknown dialect is warned of before all lines, and leaves no defect
    have hcover := (Cover.idle [] (a.standing.map (·.problem))).append
      (Reader.cover_understand hunderstood)
    rw [List.nil_append, ← List.map_append] at hcover
    unfold Assembler.build
    rw [hunderstood]
    exact ⟨_, _, rfl, (understood.program.always_bears _ 1).accounted hcover⟩

/-- In `a + f(-) *` one operator lacks its right operand and another one has an empty place. In the
snippet the same happens in a declaration and in a call, and an assignment has no target. -/
theorem Tree.accounted_damaged :
    (Dialect.cSpec.grammar.parse 5 ["a", "+", "f", "(", "-", ")", "*"]).expr =
      some (.binary "+" (.identifier "a") (.leftOnly "*" (.call "f" [.unary "-" .placeholder]))) ∧
    (((Expr.binary "+" (.identifier "a")
      (.leftOnly "*" (.call "f" [.unary "-" .placeholder]))).toTree.run 1).1.Accounted
        ((Expr.binary "+" (.identifier "a")
          (.leftOnly "*" (.call "f" [.unary "-" .placeholder]))).toTree.run 1).1.gaps
        ((Dialect.cSpec.grammar.parse 5 ["a", "+", "f", "(", "-", ")", "*"]).problems.map
          fun p => Warning.diagnostic ⟨p, 1⟩)) ∧
    ∃ a, Assembler.ofName (.ofEnvironment .empty) 1000 (some "c") = .ok a ∧
      ∃ built after, a.build "int x = a + ;\nf(- );\n= 1;" = .ok (built, after) ∧
        built.tree.Accounted built.tree.placeholders built.diagnostics := by
  have hexpr : (Dialect.cSpec.grammar.parse 5 ["a", "+", "f", "(", "-", ")", "*"]).expr =
      some (.binary "+" (.identifier "a")
        (.leftOnly "*" (.call "f" [.unary "-" .placeholder]))) := by decide +kernel
  have hofName := Assembler.ofName_label (.ofEnvironment .empty) 1000 .c
  exact ⟨hexpr, Tree.accounted_of_parse_and_build.1 _ _ _ _ (Option.mem_def.mpr hexpr) 1 1,
    _, hofName, Tree.accounted_of_parse_and_build.2 _ _ _ _ hofName _⟩

end SnippetTree
