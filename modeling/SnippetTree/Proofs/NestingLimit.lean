import SnippetTree.Proofs.Descent
import SnippetTree.Dialect

/-!
# The nesting limit shows only where it is reached

A limit on the nestings changes a parse only by the part that is passed over when it is reached, and
that is noted. As long as nothing of the kind is noted, a higher limit gives the same parse: the
same expression and so the same tree with the same numbers, the same problems, and the same lexemes
read.

There is one case in which the limit acts in silence. At the end of the lexemes a part that nests
too deeply is simply missing, and nothing is noted about it. With a higher limit the descent is
followed down to the last primary instead, which finds nothing either (`runs_tiers_nil`).
-/

namespace SnippetTree

/-- Nothing was passed over because it nested too deeply. -/
def Problem.Followed (problems : List Problem) : Prop :=
  ∀ problem ∈ problems, problem.code ≠ "P108"

theorem Problem.followed_append {before after : List Problem} :
    Problem.Followed (before ++ after) ↔ Problem.Followed before ∧ Problem.Followed after :=
  List.forall_mem_append

namespace Descent

open SnippetTree.Problem (Followed followed_append)

variable {g : Grammar} {m n : Nat} {task : Task} {s : Place} {r : Result} {visited : List Place}

/-- Where nothing is left to be read, every tier finds nothing and notes nothing. -/
theorem runs_tiers_nil (g : Grammar) (limit depth : Nat) (tiers : List Tier) :
    ∃ visited, Runs g limit (.tiers tiers) ⟨[], depth⟩ ⟨none, [], ⟨[], depth⟩⟩ visited := by
  induction tiers with
  | nil => exact ⟨_, .noTier (.noSign nofun .nothing)⟩
  | cons tier tighter ih =>
      obtain ⟨visited, h⟩ := ih
      exact ⟨_, .tier h (.noOperator nofun)⟩

/-- So does a part inside a nesting, however many are open. -/
theorem runs_nested_nil (g : Grammar) (limit depth : Nat) (tiers : List Tier) :
    ∃ visited, Runs g limit (.nested tiers) ⟨[], depth⟩ ⟨none, [], ⟨[], depth⟩⟩ visited := by
  rcases Nat.lt_or_ge depth limit with hroom | hdeep
  · obtain ⟨visited, h⟩ := runs_tiers_nil g limit (depth + 1) tiers
    exact ⟨_, .nested hroom h rfl⟩
  · exact ⟨_, .nothingNested hdeep⟩

/-- **A call that passes over nothing goes on in the same way under a higher limit.** -/
theorem Runs.raise (h : Runs g m task s r visited) (hle : m ≤ n) (hfollowed : Followed r.problems) :
    ∃ visited', Runs g n task s r visited' := by
  induction h with
  | noLexeme => exact ⟨_, .noLexeme⟩
  | whole hne _ ih =>
      obtain ⟨_, h⟩ := ih (followed_append.mp hfollowed).1
      exact ⟨_, .whole hne h⟩
  | noTier _ ih =>
      obtain ⟨_, h⟩ := ih hfollowed
      exact ⟨_, .noTier h⟩
  | tier _ _ ihl ihr =>
      obtain ⟨hbefore, hafter⟩ := followed_append.mp hfollowed
      obtain ⟨_, hl⟩ := ihl hbefore
      obtain ⟨_, hr⟩ := ihr hafter
      exact ⟨_, .tier hl hr⟩
  | noOperator hoff => exact ⟨_, .noOperator hoff⟩
  | joined ha ho _ hjoin _ ihright ih =>
      obtain ⟨hbefore, hafter⟩ := followed_append.mp hfollowed
      obtain ⟨_, hright⟩ := ihright (followed_append.mp hbefore).1
      obtain ⟨_, h⟩ := ih hafter
      exact ⟨_, .joined ha ho hright hjoin h⟩
  | noOperand ha ho _ hjoin ih =>
      obtain ⟨_, h⟩ := ih (followed_append.mp hfollowed).1
      exact ⟨_, .noOperand ha ho h hjoin⟩
  | joinedRight ha ho _ ih =>
      obtain ⟨_, h⟩ := ih (followed_append.mp hfollowed).1
      exact ⟨_, .joinedRight ha ho h⟩
  | sign ho _ ih =>
      obtain ⟨_, h⟩ := ih (followed_append.mp hfollowed).1
      exact ⟨_, .sign ho h⟩
  | noSign hoff _ ih =>
      obtain ⟨_, h⟩ := ih hfollowed
      exact ⟨_, .noSign hoff h⟩
  | nothing => exact ⟨_, .nothing⟩
  | group _ hplace ih =>
      obtain ⟨_, h⟩ := ih hfollowed
      exact ⟨_, .group h hplace⟩
  | groupAtEnd _ hend ih =>
      obtain ⟨_, h⟩ := ih (followed_append.mp hfollowed).1
      exact ⟨_, .groupAtEnd h hend⟩
  | groupLeftOpen _ hplace hcloser ih =>
      obtain ⟨_, h⟩ := ih hfollowed
      exact ⟨_, .groupLeftOpen h hplace hcloser⟩
  | constant hparen hconst => exact ⟨_, .constant hparen hconst⟩
  | name hparen hconst hident hcall => exact ⟨_, .name hparen hconst hident hcall⟩
  | call hparen hconst hident _ ih =>
      obtain ⟨_, h⟩ := ih hfollowed
      exact ⟨_, .call hparen hconst hident h⟩
  | noPrimary hparen hconst hident => exact ⟨_, .noPrimary hparen hconst hident⟩
  | argumentsAtEnd => exact ⟨_, .argumentsAtEnd⟩
  | argumentsClosed => exact ⟨_, .argumentsClosed⟩
  | argumentThenPass hcloser _ hplace hpass _ iha ih =>
      obtain ⟨hbefore, hafter⟩ := followed_append.mp hfollowed
      obtain ⟨_, ha⟩ := iha hbefore
      obtain ⟨_, h⟩ := ih hafter
      exact ⟨_, .argumentThenPass hcloser ha hplace hpass h⟩
  | argumentThenStay hcloser _ hcomma hread _ iha ih =>
      obtain ⟨hbefore, hafter⟩ := followed_append.mp hfollowed
      obtain ⟨_, ha⟩ := iha hbefore
      obtain ⟨_, h⟩ := ih hafter
      exact ⟨_, .argumentThenStay hcloser ha hcomma hread h⟩
  | nested hroom _ hplace ih =>
      obtain ⟨_, h⟩ := ih hfollowed
      exact ⟨_, .nested (Nat.lt_of_lt_of_le hroom hle) h hplace⟩
  -- the limit is reached at the end, in silence: here the higher limit may go on
  | nothingNested => exact runs_nested_nil g n _ _
  -- the limit is reached before the end: this is noted
  | tooDeep => exact absurd rfl (hfollowed _ (List.mem_singleton_self _))
  | skipAtEnd => exact ⟨_, .skipAtEnd⟩
  | skipClosed => exact ⟨_, .skipClosed⟩
  | skipOver hopen _ ih =>
      obtain ⟨_, h⟩ := ih hfollowed
      exact ⟨_, .skipOver hopen h⟩

end Descent

namespace Grammar

/-- **Until it is reached, the nesting limit makes no difference.** If a parse passes over nothing
because of the limit, then under any higher limit the lexemes have the same parse. -/
theorem parse_of_followed {g : Grammar} {m n : Nat} {lexemes : List Lexeme} (hle : m ≤ n)
    (hfollowed : ∀ problem ∈ (g.parse m lexemes).problems, problem.code ≠ "P108") :
    (g.parse n lexemes).expr = (g.parse m lexemes).expr ∧
    (∀ first, Expr.numbered (g.parse n lexemes).expr first =
      Expr.numbered (g.parse m lexemes).expr first) ∧
    (g.parse n lexemes).problems = (g.parse m lexemes).problems ∧
    (g.parse n lexemes).cursor.rest = (g.parse m lexemes).cursor.rest ∧
    (g.parse n lexemes).cursor.depth = (g.parse m lexemes).cursor.depth := by
  obtain ⟨visited, hlow⟩ := Descent.runs_parse g m lexemes
  obtain ⟨visited', hhigh⟩ := hlow.raise hle hfollowed
  have hsame : (g.parse m lexemes).result = (g.parse n lexemes).result := hhigh.eq_parse
  obtain ⟨hexpr, hproblems, hplace⟩ := Descent.Result.mk.inj hsame
  obtain ⟨hrest, hdepth⟩ := Descent.Place.mk.inj hplace
  refine ⟨hexpr.symm, ?_, hproblems.symm, hrest.symm, hdepth.symm⟩
  intro first
  rw [hexpr]

/-- In `a + - (` the only nesting is reached at the end, where nothing is noted about it; a limit
of 62 makes no difference. -/
theorem parse_openGroup : 1 ≤ 62 ∧
    (∀ problem ∈ (Dialect.cSpec.grammar.parse 1 ["a", "+", "-", "("]).problems,
      problem.code ≠ "P108") ∧
    (Dialect.cSpec.grammar.parse 62 ["a", "+", "-", "("]).expr =
      (Dialect.cSpec.grammar.parse 1 ["a", "+", "-", "("]).expr ∧
    (∀ first, Expr.numbered (Dialect.cSpec.grammar.parse 62 ["a", "+", "-", "("]).expr first =
      Expr.numbered (Dialect.cSpec.grammar.parse 1 ["a", "+", "-", "("]).expr first) ∧
    (Dialect.cSpec.grammar.parse 62 ["a", "+", "-", "("]).problems =
      (Dialect.cSpec.grammar.parse 1 ["a", "+", "-", "("]).problems ∧
    (Dialect.cSpec.grammar.parse 62 ["a", "+", "-", "("]).cursor.rest =
      (Dialect.cSpec.grammar.parse 1 ["a", "+", "-", "("]).cursor.rest ∧
    (Dialect.cSpec.grammar.parse 62 ["a", "+", "-", "("]).cursor.depth =
      (Dialect.cSpec.grammar.parse 1 ["a", "+", "-", "("]).cursor.depth := by
  have hle : 1 ≤ 62 := by decide
  have hfollowed : ∀ problem ∈ (Dialect.cSpec.grammar.parse 1 ["a", "+", "-", "("]).problems,
      problem.code ≠ "P108" := by decide +kernel
  exact ⟨hle, hfollowed, parse_of_followed hle hfollowed⟩

end Grammar

end SnippetTree
