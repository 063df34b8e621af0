import SnippetTree.Proofs.Outcomes
import SnippetTree.Proofs.ParserSteps

/-!
# Problems that are met while a text is read

Two kinds of problems are not about any text that is read: that a line was left out is noted once
the whole line is done with, and that the name of a dialect was unknown before any line is begun.
All other problems come from the tokenizer, the parser, or the reader that keeps a text raw. This
file follows them through the parser and through the rules: whatever a line holds, neither of the
two is met while it is read (`Rule.ofReading_extract`). So if a line is reported as left out, it is
because of the line itself and not of something inside it.
-/

namespace SnippetTree

namespace Problem

/-- The problem may be met while a text is read. -/
def isOfReading : Problem → Bool
  | droppedLine _ | unknownDialect _ _ => false
  | cutLiteral _ | missingOperand _ | unclosedGroup _ | trailingLexemes _ | emptyExpression
  | keptRaw _ | nestedTooDeep _ => true

/-- All of the problems may be met while a text is read. -/
def OfReading (problems : List Problem) : Prop :=
  ∀ problem ∈ problems, problem.isOfReading = true

theorem OfReading.nil : OfReading [] := by
  intro problem h
  cases h

theorem OfReading.one {problem : Problem} (h : problem.isOfReading = true) :
    OfReading [problem] := by
  intro other hother
  rw [List.mem_singleton.mp hother]
  exact h

theorem OfReading.append {before after : List Problem} (hbefore : OfReading before)
    (hafter : OfReading after) : OfReading (before ++ after) := by
  intro problem h
  rcases List.mem_append.mp h with h | h
  · exact hbefore problem h
  · exact hafter problem h

theorem ofReading_ofLexemes (lexemes : List Lexeme) : OfReading (ofLexemes lexemes) := by
  intro problem h
  obtain ⟨lexeme, -, rfl⟩ := List.mem_map.mp h
  rfl

end Problem

open SnippetTree.Problem

/-! ## The parser -/

/-- A parser that meets problems of reading only, wherever it starts. -/
def ExprParser.OfReading (parser : ExprParser) : Prop :=
  ∀ c, Problem.OfReading (parser c).problems

namespace Grammar

variable {g : Grammar} {operand : ExprParser} {nested : List Tier → ExprParser}

theorem ofReading_join (operator : Lexeme) (l r : Option Expr) :
    OfReading (join operator l r).2 := by
  cases l <;> cases r
  · exact .one rfl
  · exact .one rfl
  · exact .one rfl
  · exact .nil

theorem ofReading_applySign (operator : Lexeme) (e : Option Expr) :
    OfReading (applySign operator e).2 := by
  cases e with
  | none => exact .one rfl
  | some e => exact .nil

/-- Each operator of a tier is joined with its operands, and the loop goes on with fewer lexemes. -/
theorem ofReading_foldLeft (h : operand.OfReading) (operators : List Lexeme)
    (left : Option Expr) : ExprParser.OfReading (foldLeft operators operand left) := by
  intro c
  -- on the number of lexemes that are left: an operator is taken before its right operand is read
  induction hlength : c.rest.length using Nat.strongRecOn generalizing left c with
  | _ length ih =>
      obtain ⟨rest, depth, deepest⟩ := c
      obtain hoff | ⟨operator, rest, rfl, hoperator⟩ := off_or_cons operators rest
      · rw [foldLeft_off hoff]
        exact .nil
      · rw [foldLeft_cons hoperator]
        have hshorter : (operand ⟨rest, depth, deepest⟩).cursor.rest.length < length := by
          have hsuffix := (operand ⟨rest, depth, deepest⟩).suffix.length_le
          dsimp only at hlength hsuffix
          rw [List.length_cons] at hlength
          omega
        refine ((h _).append (ofReading_join operator left _)).append ?_
        show OfReading (goOn operators operand
          (join operator left (operand ⟨rest, depth, deepest⟩).value).1
          (operand ⟨rest, depth, deepest⟩).cursor).problems
        cases (join operator left (operand ⟨rest, depth, deepest⟩).value).1 with
        | none => exact .nil
        | some e => exact ih _ hshorter (some e) _ rfl

theorem ofReading_foldRight (h : operand.OfReading) (operators : List Lexeme)
    (left : Option Expr) : ExprParser.OfReading (foldRight operators operand left) := by
  intro c
  obtain ⟨rest, depth, deepest⟩ := c
  obtain hoff | ⟨operator, rest, rfl, hoperator⟩ := off_or_cons operators rest
  · rw [foldRight_off hoff]
    exact .nil
  · rw [foldRight_cons hoperator]
    exact (h _).append (ofReading_join operator left _)

theorem ofReading_closeGroup (inner : Option Expr) : ExprParser.OfReading (closeGroup inner) := by
  intro c
  obtain ⟨rest, depth, deepest⟩ := c
  cases rest with
  | nil => exact .one rfl
  | cons lexeme rest =>
      by_cases hcloser : lexeme = ")"
      · subst hcloser
        exact .nil
      · rw [closeGroup_other inner hcloser]
        exact .nil

/-- Each round over the arguments reads one of them or passes over a lexeme. -/
theorem ofReading_arguments (h : operand.OfReading) (c : Cursor) :
    OfReading (arguments operand c).problems := by
  induction hlength : c.rest.length using Nat.strongRecOn generalizing c with
  | _ length ih =>
      obtain ⟨rest, depth, deepest⟩ := c
      cases rest with
      | nil =>
          rw [arguments_nil]
          exact .one rfl
      | cons lexeme rest =>
          by_cases hcloser : lexeme = ")"
          · subst hcloser
            rw [arguments_closer]
            exact .nil
          · rw [arguments_cons hcloser]
            have hshorter := passComma_lt (operand ⟨lexeme :: rest, depth, deepest⟩).suffix
              (List.cons_ne_nil lexeme rest)
            have hmore := ih _ (hlength ▸ hshorter) _ rfl
            have hcomma : OfReading (passComma ⟨lexeme :: rest, depth, deepest⟩
                (operand ⟨lexeme :: rest, depth, deepest⟩).cursor).problems := by
              rw [passComma_problems]
              exact .nil
            exact (h _).append (hcomma.append (hmore.append .nil))

theorem ofReading_primary (h : ∀ tiers, (nested tiers).OfReading) :
    (g.primary nested).OfReading := by
  intro c
  obtain ⟨rest, depth, deepest⟩ := c
  cases rest with
  | nil => exact .nil
  | cons lexeme rest =>
      unfold primary
      dsimp only
      split
      · exact (h _ _).append (ofReading_closeGroup _ _)
      · split
        · exact .nil
        · split
          · split
            · exact (ofReading_arguments (h _) _).append .nil
            · exact .nil
          · exact .nil

theorem ofReading_unary (h : ∀ tiers, (nested tiers).OfReading) : (g.unary nested).OfReading := by
  intro c
  obtain ⟨rest, depth, deepest⟩ := c
  obtain hoff | ⟨operator, rest, rfl, hoperator⟩ := off_or_cons g.signs rest
  · rw [unary_off hoff]
    exact ofReading_primary h _
  · rw [unary_sign hoperator]
    exact (h _ _).append (ofReading_applySign operator _)

/-- An expression of some tiers is one of tighter tiers and the operators of the first tier. -/
theorem ofReading_climb (h : ∀ tiers, (nested tiers).OfReading) (tiers : List Tier) :
    (g.climb nested tiers).OfReading := by
  induction tiers with
  | nil => exact ofReading_unary h
  | cons tier tighter ih =>
      intro c
      cases hright : tier.rightAssociative with
      | false =>
          rw [climb_left hright]
          exact (ih c).append (ofReading_foldLeft ih tier.operators _ _)
      | true =>
          rw [climb_right hright]
          exact (ih c).append (ofReading_foldRight (h _) tier.operators _ _)

theorem ofReading_nestedAt (g : Grammar) (limit room : Nat) (tiers : List Tier) :
    (g.nestedAt limit room tiers).OfReading := by
  induction room generalizing tiers with
  | zero =>
      intro c
      obtain ⟨rest, depth, deepest⟩ := c
      cases rest with
      | nil => exact .nil
      | cons lexeme rest => exact .one rfl
  | succ room ih =>
      intro c
      exact ofReading_climb ih tiers c.enter

/-- **A parse meets problems of reading only.** -/
theorem ofReading_parse (g : Grammar) (limit : Nat) (lexemes : List Lexeme) :
    OfReading (g.parse limit lexemes).problems := by
  unfold parse
  split
  · exact .one rfl
  · refine (ofReading_climb (g.ofReading_nestedAt limit limit) g.tiers _).append ?_
    split
    · exact .nil
    · exact .one rfl

end Grammar

/-! ## Readings -/

/-- A report of problems of reading only. -/
def Report.OfReading {α : Type} (report : Report α) : Prop :=
  Problem.OfReading report.problems

namespace Report

variable {α β : Type}

theorem ofReading_pure (a : α) : (pure a : Report α).OfReading := .nil

theorem OfReading.bind {x : Report α} {f : α → Report β} (hx : x.OfReading)
    (hf : ∀ a, (f a).OfReading) : (x >>= f).OfReading := by
  show Problem.OfReading (x >>= f).problems
  rw [problems_bind]
  exact Problem.OfReading.append hx (hf x.value)

theorem OfReading.map {x : Report α} (hx : x.OfReading) (f : α → β) : (f <$> x).OfReading := by
  show Problem.OfReading (f <$> x).problems
  rw [problems_map]
  exact hx

theorem ofReading_mapM {f : α → Report β} {as : List α} (h : ∀ a ∈ as, (f a).OfReading) :
    (as.mapM f).OfReading := by
  induction as with
  | nil => exact ofReading_pure []
  | cons a as ih =>
      rw [List.mapM_cons]
      exact (h a (List.mem_cons_self ..)).bind fun _ =>
        (ih fun a ha => h a (List.mem_cons_of_mem _ ha)).bind fun _ => ofReading_pure _

end Report

namespace Reader

variable {r : Reader} {text : Text}

theorem ofReading_expression? (r : Reader) (text : Text) : (r.expression? text).OfReading :=
  (ofReading_ofLexemes _).append (r.spec.grammar.ofReading_parse r.limit _)

theorem ofReading_read (r : Reader) (text : Text) : (r.read text).OfReading := by
  refine (r.ofReading_expression? text).bind ?_
  intro e?
  cases e? with
  | none => exact Problem.OfReading.one rfl
  | some e => exact .nil

theorem ofReading_readIfAny (r : Reader) (text : Text) : (r.readIfAny text).OfReading := by
  unfold readIfAny
  split
  · exact .nil
  · exact (r.ofReading_read text).bind fun _ => .nil

theorem ofReading_assigned (r : Reader) (operator : AssignOp) (value : Text) :
    (r.assigned operator value).OfReading :=
  (r.ofReading_readIfAny value).bind fun _ => .nil

theorem ofReading_declaration {d : Report Declaration} (h : r.declaration text = .ok d) :
    d.OfReading := by
  unfold declaration at h
  dsimp only at h
  split at h
  · cases h
    generalize Text.splitAssign? (r.spec.strip text) = split?
    cases split? with
    | none => exact .nil
    | some split =>
        exact ((r.ofReading_assigned split.operator split.value).map some).bind fun _ => .nil
  · cases h

theorem ofReading_assignment {a : Report Assignment} (h : r.assignment text = .ok a) :
    a.OfReading := by
  unfold assignment at h
  split at h
  · cases h
  · cases h
    exact (r.ofReading_assigned _ _).bind fun _ => .nil

theorem ofReading_condition {s : Report Statement} (h : r.condition text = .ok s) :
    s.OfReading := by
  unfold condition at h
  split at h
  · cases h
  · cases h
    exact (r.ofReading_readIfAny _).bind fun _ => .nil

theorem ofReading_clause {role : ClauseRole} {c : Report Clause}
    (h : r.clause role text = .ok c) : c.OfReading := by
  unfold clause at h
  split at h
  · obtain ⟨d, hd, heq⟩ := exists_of_bind_ok h
    cases heq
    exact (ofReading_declaration hd).bind fun _ => .nil
  · split at h
    · obtain ⟨a, ha, heq⟩ := exists_of_bind_ok h
      cases heq
      exact (ofReading_assignment ha).bind fun _ => .nil
    · cases h
      exact (r.ofReading_read text).bind fun _ => .nil

theorem ofReading_forLoop {s : Report Statement} (h : r.forLoop text = .ok s) : s.OfReading := by
  obtain ⟨clauses, hclauses, heq⟩ := exists_of_bind_ok h
  cases heq
  refine Report.OfReading.bind (Report.ofReading_mapM ?_) fun _ => .nil
  intro c hc
  obtain ⟨_, -, hclause⟩ := exists_of_mem_of_forall₂ (forall₂_of_mapM_ok hclauses) hc
  exact ofReading_clause hclause

theorem ofReading_expressionStatement? (r : Reader) (text : Text) :
    (r.expressionStatement? text).OfReading := by
  unfold expressionStatement?
  dsimp only
  split
  · exact .nil
  · exact (r.ofReading_expression? _).bind fun _ => .nil

end Reader

/-! ## Lines -/

/-- **A rule meets problems of reading only**, whatever it takes out of a text. -/
theorem Rule.ofReading_extract {rule : Rule} {r : Reader} {text : Text}
    {found : Report (Option Statement)} (h : rule.extract r text = .ok found) :
    found.OfReading := by
  cases rule with
  | variableDeclaration =>
      obtain ⟨d, hd, heq⟩ := exists_of_bind_ok h
      cases heq
      exact (Reader.ofReading_declaration hd).bind fun _ => .nil
  | functionDeclaration =>
      obtain ⟨f, -, heq⟩ := exists_of_bind_ok h
      cases heq
      exact .nil
  | condition =>
      obtain ⟨s, hs, heq⟩ := exists_of_bind_ok h
      cases heq
      exact (Reader.ofReading_condition hs).map _
  | forHeader =>
      obtain ⟨s, hs, heq⟩ := exists_of_bind_ok h
      cases heq
      exact (Reader.ofReading_forLoop hs).map _
  | returning =>
      cases h
      exact Report.OfReading.map ((r.ofReading_readIfAny _).bind fun _ => Report.ofReading_pure _) _
  | assignment =>
      obtain ⟨a, ha, heq⟩ := exists_of_bind_ok h
      cases heq
      exact (Reader.ofReading_assignment ha).bind fun _ => .nil
  | expression =>
      cases h
      exact r.ofReading_expressionStatement? text

end SnippetTree
