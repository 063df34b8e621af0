import SnippetTree.Proofs.Bounds
import SnippetTree.Proofs.NestingLimit

/-!
# Tiers without an operator among the lexemes make no difference

A tier of a table costs a call at every operand, and gives way at once if none of its operators is
next. So a tier none of whose operators is among the lexemes can be taken out of the table, or put
in anywhere, and the descent still reads the same lexemes in the same order, opens the same nestings
and notes the same problems: a run over a table is a run over the tiers that are in use
(`Runs.inUse`). Two tables with the same tiers in use therefore give the same parse under the same
nesting limit.

The limit that a table comes with depends on the number of its tiers, though, unused ones included.
As long as it is not reached under either table, this makes no difference either, by the theorem on
limits in `NestingLimit.lean`.
-/

namespace SnippetTree

namespace Tier

/-- One of the operators of the tier is among the lexemes. -/
def occursIn (lexemes : List Lexeme) (tier : Tier) : Bool :=
  tier.operators.any fun operator => lexemes.contains operator

/-- Those of the tiers that have an operator among the lexemes. -/
def inUse (lexemes : List Lexeme) (tiers : List Tier) : List Tier :=
  tiers.filter (occursIn lexemes)

variable {lexemes : List Lexeme} {tier : Tier}

theorem occursIn_of_mem {operator : Lexeme} (ho : operator ∈ tier.operators)
    (h : operator ∈ lexemes) : tier.occursIn lexemes = true :=
  List.any_eq_true.mpr ⟨operator, ho, List.contains_iff_mem.mpr h⟩

theorem not_mem_of_occursIn (h : tier.occursIn lexemes = false) {operator : Lexeme}
    (hmem : operator ∈ lexemes) : operator ∉ tier.operators := by
  intro ho
  rw [occursIn_of_mem ho hmem] at h
  exact Bool.noConfusion h

theorem inUse_cons_of_occursIn (h : tier.occursIn lexemes = true) (tiers : List Tier) :
    inUse lexemes (tier :: tiers) = tier :: inUse lexemes tiers :=
  List.filter_cons_of_pos h

theorem inUse_cons_of_not (h : tier.occursIn lexemes = false) (tiers : List Tier) :
    inUse lexemes (tier :: tiers) = inUse lexemes tiers :=
  List.filter_cons_of_neg (Bool.eq_false_iff.mp h)

end Tier

/-- The grammar with another table. -/
def Grammar.withTiers (g : Grammar) (tiers : List Tier) : Grammar :=
  { g with tiers }

namespace Descent

/-- What a call is made for, if its tiers without an operator among the lexemes are left out. -/
def Task.inUse (lexemes : List Lexeme) : Task → Task
  | .tiers list => .tiers (Tier.inUse lexemes list)
  | .operators tier tighter left => .operators tier (Tier.inUse lexemes tighter) left
  | .nested list => .nested (Tier.inUse lexemes list)
  | task => task

variable {g : Grammar} {limit : Nat} {task : Task} {s s' : Place} {r : Result}
  {visited : List Place} {lexemes : List Lexeme}

/-! ## What is left to be read -/

theorem Move.suffix (h : Move limit s s') : s'.rest <:+ s.rest := by
  cases h with
  | read => exact List.suffix_cons _ _
  | enter => exact List.suffix_refl _
  | leave => exact List.suffix_refl _

theorem Moves.suffix (h : Moves limit s visited s') : s'.rest <:+ s.rest := by
  induction h with
  | none => exact List.suffix_refl _
  | cons hmove _ ih => exact ih.trans hmove.suffix

/-- Everything that is left to be read is among the lexemes. -/
def Place.Within (lexemes : List Lexeme) (s : Place) : Prop :=
  s.rest ⊆ lexemes

theorem Place.Within.after (hs : s.Within lexemes) (h : Runs g limit task s r visited) :
    r.place.Within lexemes :=
  List.Subset.trans h.moves.suffix.subset hs

theorem Place.Within.tail {lexeme : Lexeme} {rest : List Lexeme} {depth : Nat}
    (hs : Place.Within lexemes ⟨lexeme :: rest, depth⟩) : Place.Within lexemes ⟨rest, depth⟩ :=
  List.Subset.trans (List.subset_cons_self _ _) hs

theorem Place.Within.off (hs : s.Within lexemes) {tier : Tier}
    (h : tier.occursIn lexemes = false) : Grammar.Off s.rest tier.operators := by
  intro next hnext
  exact Tier.not_mem_of_occursIn h (hs (List.mem_of_mem_head? hnext))

/-! ## Runs -/

/-- **A call goes the same way if unused tiers are left out**, through the same places. -/
theorem Runs.inUse (h : Runs g limit task s r visited) (hwithin : s.Within lexemes) :
    Runs (g.withTiers (Tier.inUse lexemes g.tiers)) limit (task.inUse lexemes) s r visited := by
  induction h with
  | noLexeme => exact .noLexeme
  | whole hne _ ih => exact .whole hne (ih hwithin)
  | noTier _ ih => exact .noTier (ih hwithin)
  | @tier tier tighter s l r there onward hl hr ihl ihr =>
      have hleft := ihl hwithin
      cases hused : tier.occursIn lexemes with
      | true =>
          rw [Task.inUse, Tier.inUse_cons_of_occursIn hused]
          exact .tier hleft (ihr (hwithin.after hl))
      | false =>
          -- none of the operators is next, so the tier has given back what the tighter ones gave
          have hoff := (hwithin.after hl).off hused
          obtain ⟨rfl, rfl⟩ := hr.unique (.noOperator hoff)
          have hsame : Result.after l.problems ⟨l.value, [], l.place⟩ = l :=
            congrArg (Result.mk l.value · l.place) (List.append_nil l.problems)
          rw [Task.inUse, Tier.inUse_cons_of_not hused, hsame, List.append_nil]
          exact hleft
  | noOperator hoff => exact .noOperator hoff
  | joined ha ho hright hjoin _ ihright ih =>
      exact .joined ha ho (ihright hwithin.tail) hjoin (ih (hwithin.tail.after hright))
  | noOperand ha ho _ hjoin ih => exact .noOperand ha ho (ih hwithin.tail) hjoin
  | joinedRight ha ho _ ih =>
      have hused := Tier.occursIn_of_mem ho (hwithin (List.mem_cons_self ..))
      have hright := ih hwithin.tail
      rw [Task.inUse, Tier.inUse_cons_of_occursIn hused] at hright
      exact .joinedRight ha ho hright
  | sign ho _ ih => exact .sign ho (ih hwithin.tail)
  | noSign hoff _ ih => exact .noSign hoff (ih hwithin)
  | nothing => exact .nothing
  | group _ hplace ih => exact .group (ih hwithin.tail) hplace
  | groupAtEnd _ hend ih => exact .groupAtEnd (ih hwithin.tail) hend
  | groupLeftOpen _ hplace hcloser ih => exact .groupLeftOpen (ih hwithin.tail) hplace hcloser
  | constant hparen hconst => exact .constant hparen hconst
  | name hparen hconst hident hcall => exact .name hparen hconst hident hcall
  | call hparen hconst hident _ ih => exact .call hparen hconst hident (ih hwithin.tail.tail)
  | noPrimary hparen hconst hident => exact .noPrimary hparen hconst hident
  | argumentsAtEnd => exact .argumentsAtEnd
  | argumentsClosed => exact .argumentsClosed
  | argumentThenPass hcloser ha hplace hpass _ iha ih =>
      have hafter := hwithin.after ha
      rw [hplace] at hafter
      exact .argumentThenPass hcloser (iha hwithin) hplace hpass (ih hafter.tail)
  | argumentThenStay hcloser ha hcomma hread _ iha ih =>
      exact .argumentThenStay hcloser (iha hwithin) hcomma hread (ih (hwithin.after ha))
  | nested hroom _ hplace ih => exact .nested hroom (ih hwithin) hplace
  | nothingNested hdeep => exact .nothingNested hdeep
  | tooDeep hdeep _ ih => exact .tooDeep hdeep (ih hwithin)
  | skipAtEnd => exact .skipAtEnd
  | skipClosed => exact .skipClosed
  | skipOver hopen _ ih => exact .skipOver hopen (ih hwithin.tail)

end Descent

/-! ## Parses -/

/-- Nothing tells the two parses apart: neither their expressions and the trees that are made of
them, nor their problems, nor where they stopped. -/
structure Parse.Agrees (p q : Parse) : Prop where
  expr : p.expr = q.expr
  numbered : ∀ first, Expr.numbered p.expr first = Expr.numbered q.expr first
  problems : p.problems = q.problems
  rest : p.cursor.rest = q.cursor.rest
  depth : p.cursor.depth = q.cursor.depth

theorem Parse.agrees_of_result {p q : Parse} (h : p.result = q.result) : p.Agrees q := by
  obtain ⟨hexpr, hproblems, hrest, hdepth⟩ := Parse.fields_of_result h
  refine ⟨hexpr, ?_, hproblems, hrest, hdepth⟩
  intro first
  rw [hexpr]
  rfl

namespace Grammar

/-- A parse is the parse with those tiers that are in use. -/
theorem parse_inUse (g : Grammar) (limit : Nat) (lexemes : List Lexeme) :
    ((g.withTiers (Tier.inUse lexemes g.tiers)).parse limit lexemes).result =
      (g.parse limit lexemes).result := by
  obtain ⟨visited, h⟩ := Descent.runs_parse g limit lexemes
  exact (h.inUse (List.Subset.refl _)).eq_parse.symm

/-- Under one nesting limit, tables with the same tiers in use give the same parse. -/
theorem parse_withTiers {g : Grammar} {tiers : List Tier} {lexemes : List Lexeme}
    (hsame : Tier.inUse lexemes tiers = Tier.inUse lexemes g.tiers) (limit : Nat) :
    ((g.withTiers tiers).parse limit lexemes).result = (g.parse limit lexemes).result := by
  have hthere := (g.withTiers tiers).parse_inUse limit lexemes
  have hhere := g.parse_inUse limit lexemes
  rw [← hsame] at hhere
  exact hthere.symm.trans hhere

/-- A limit that is not reached may be raised. -/
theorem result_parse_of_le {g : Grammar} {m n : Nat} {lexemes : List Lexeme} (hle : m ≤ n)
    (hfollowed : Problem.Followed (g.parse m lexemes).problems) :
    (g.parse n lexemes).result = (g.parse m lexemes).result := by
  obtain ⟨visited, hlow⟩ := Descent.runs_parse g m lexemes
  obtain ⟨visited', hhigh⟩ := hlow.raise hle hfollowed
  exact hhigh.eq_parse.symm

/-- **Unused tiers make no difference.** Let two tables have the same tiers in use, so that either
comes from the other by taking out and putting in tiers none of whose operators is among the
lexemes. If no nesting limit is reached, the lexemes have the same parse, whatever limits the two
tables come with. -/
theorem parse_of_sameInUse {g : Grammar} {tiers : List Tier} {m n : Nat} {lexemes : List Lexeme}
    (hsame : Tier.inUse lexemes tiers = Tier.inUse lexemes g.tiers)
    (hfollowed : ∀ problem ∈ (g.parse m lexemes).problems, problem.code ≠ "P108")
    (hfollowed' : ∀ problem ∈ ((g.withTiers tiers).parse n lexemes).problems,
      problem.code ≠ "P108") :
    ((g.withTiers tiers).parse n lexemes).Agrees (g.parse m lexemes) := by
  -- both limits are raised to the greater one of them
  have hhere := result_parse_of_le (Nat.le_max_left m n) hfollowed
  have hthere := result_parse_of_le (Nat.le_max_right m n) hfollowed'
  have hboth := parse_withTiers hsame (max m n)
  exact Parse.agrees_of_result (hthere.symm.trans (hboth.trans hhere))

/-- Of the tiers of C only the one of the sums is in use here, and one of the powers, which is not,
may be put in beside it. The limit is then 93 instead of 62. -/
theorem parse_sums :
    Tier.inUse ["(", "a", "+", "-", "b", "]", "c"] [.additive, .power] =
      Tier.inUse ["(", "a", "+", "-", "b", "]", "c"] Dialect.cSpec.grammar.tiers ∧
    (∀ problem ∈ (Dialect.cSpec.grammar.parse (nestingLimit 1000 6)
      ["(", "a", "+", "-", "b", "]", "c"]).problems, problem.code ≠ "P108") ∧
    (∀ problem ∈ ((Dialect.cSpec.grammar.withTiers [.additive, .power]).parse (nestingLimit 1000 2)
      ["(", "a", "+", "-", "b", "]", "c"]).problems, problem.code ≠ "P108") ∧
    ((Dialect.cSpec.grammar.withTiers [.additive, .power]).parse (nestingLimit 1000 2)
      ["(", "a", "+", "-", "b", "]", "c"]).Agrees
        (Dialect.cSpec.grammar.parse (nestingLimit 1000 6)
          ["(", "a", "+", "-", "b", "]", "c"]) := by
  have hsame : Tier.inUse ["(", "a", "+", "-", "b", "]", "c"] [.additive, .power] =
      Tier.inUse ["(", "a", "+", "-", "b", "]", "c"] Dialect.cSpec.grammar.tiers := by decide
  have hfollowed : ∀ problem ∈ (Dialect.cSpec.grammar.parse (nestingLimit 1000 6)
      ["(", "a", "+", "-", "b", "]", "c"]).problems, problem.code ≠ "P108" := by decide +kernel
  have hfollowed' : ∀ problem ∈ ((Dialect.cSpec.grammar.withTiers [.additive, .power]).parse
      (nestingLimit 1000 2) ["(", "a", "+", "-", "b", "]", "c"]).problems,
      problem.code ≠ "P108" := by decide +kernel
  exact ⟨hsame, hfollowed, hfollowed', parse_of_sameInUse hsame hfollowed hfollowed'⟩

end Grammar

end SnippetTree
