import SnippetTree.Proofs.ParserSteps

/-!
# The descent, call by call

The parser of `Parse.lean` is a recursion on the nestings that may still be entered, on the tiers
and on the lexemes, and it ends because they run out. Here the same descent is written down as
rules, with none of these measures: what a call gives, if the calls that it makes give what they
give. The number of open nestings is a counter, raised and lowered on the way and compared with the
limit, and every change of the place where the descent stands is listed.

A rule has a premise for each call that is made, so a derivation is the tree of all calls, and a
finite one. Two statements tie the rules to the parser: `runs_parse`, every parse is the end of a
derivation, and `Runs.unique`, no call can go on in two ways. What holds of all parses, whatever
the lexemes and the table, is proved by induction on the derivation, one case for each rule.
-/

namespace SnippetTree

namespace Descent

/-- Where a descent stands: what is still to be read, and how many nestings are open. -/
structure Place where
  rest : List Lexeme
  depth : Nat
  deriving DecidableEq, Repr

/-- What a call gives back. -/
structure Result where
  value : Option Expr
  problems : List Problem
  /-- Where the descent stands afterwards. -/
  place : Place

namespace Result

/-- The result of a call that was made after some problems had been noted. -/
def after (problems : List Problem) (r : Result) : Result :=
  { r with problems := problems ++ r.problems }

/-- The result with its value replaced and more problems noted. -/
def noting (r : Result) (f : Option Expr → Option Expr × List Problem) : Result :=
  ⟨(f r.value).1, r.problems ++ (f r.value).2, r.place⟩

/-- The result after the descent has moved on. -/
def moved (r : Result) (place : Place) : Result :=
  { r with place := place }

end Result

/-- What the parser is called for. -/
inductive Task where
  /-- All of the lexemes. -/
  | whole
  /-- An expression of the given tiers. -/
  | tiers (tiers : List Tier)
  /-- The operators of a tier with their right operands, after a left operand. -/
  | operators (tier : Tier) (tighter : List Tier) (left : Option Expr)
  /-- Prefix operators and the operand that they apply to. -/
  | signs
  /-- A group, a value, a name or a call. -/
  | primary
  /-- The arguments of a call that are still to be read, after those that have been. -/
  | arguments (callee : Lexeme) (before : List Expr)
  /-- A part inside a nesting, of the given tiers. -/
  | nested (tiers : List Tier)
  /-- The end of the enclosing group, when that many groups have been opened on the way. -/
  | skip (opened : Nat)

/-- The expressions that a call is given. -/
def Task.given : Task → List Expr
  | .operators _ _ left => left.toList
  | .arguments _ before => before
  | _ => []

/-- How many groups are open after a lexeme that is passed over. -/
def openedAfter (lexeme : Lexeme) (opened : Nat) : Nat :=
  if lexeme = ")" then opened - 1 else if lexeme = "(" then opened + 1 else opened

/-- What is noted about lexemes after the end of the expression. -/
def leftOver (rest : List Lexeme) : List Problem :=
  if rest.isEmpty then [] else [.trailingLexemes rest]

open SnippetTree.Grammar (Off join applySign)

/--
`Runs g limit task s r visited`: a parser of the table `g`, called for `task` where the descent
stands at `s`, gives `r`; `visited` are the places that it goes through after `s`, in their order.
-/
inductive Runs (g : Grammar) (limit : Nat) : Task → Place → Result → List Place → Prop where
  -- all lexemes
  | noLexeme {depth : Nat} :
      Runs g limit .whole ⟨[], depth⟩ ⟨some .placeholder, [.emptyExpression], ⟨[], depth⟩⟩ []
  | whole {s : Place} {r : Result} {visited : List Place} :
      s.rest ≠ [] → Runs g limit (.tiers g.tiers) s r visited →
      Runs g limit .whole s (r.noting fun e => (e, leftOver r.place.rest)) visited
  -- tiers and their operators
  | noTier {s : Place} {r : Result} {visited : List Place} :
      Runs g limit .signs s r visited → Runs g limit (.tiers []) s r visited
  | tier {tier : Tier} {tighter : List Tier} {s : Place} {l r : Result}
      {there onward : List Place} :
      Runs g limit (.tiers tighter) s l there →
      Runs g limit (.operators tier tighter l.value) l.place r onward →
      Runs g limit (.tiers (tier :: tighter)) s (r.after l.problems) (there ++ onward)
  | noOperator {tier : Tier} {tighter : List Tier} {left : Option Expr} {s : Place} :
      Off s.rest tier.operators → Runs g limit (.operators tier tighter left) s ⟨left, [], s⟩ []
  | joined {tier : Tier} {tighter : List Tier} {left : Option Expr} {e : Expr} {operator : Lexeme}
      {rest : List Lexeme} {depth : Nat} {right r : Result} {there onward : List Place} :
      tier.rightAssociative = false → operator ∈ tier.operators →
      Runs g limit (.tiers tighter) ⟨rest, depth⟩ right there →
      (join operator left right.value).1 = some e →
      Runs g limit (.operators tier tighter (some e)) right.place r onward →
      Runs g limit (.operators tier tighter left) ⟨operator :: rest, depth⟩
        (r.after (right.noting (join operator left)).problems)
        (⟨rest, depth⟩ :: (there ++ onward))
  | noOperand {tier : Tier} {tighter : List Tier} {left : Option Expr} {operator : Lexeme}
      {rest : List Lexeme} {depth : Nat} {right : Result} {there : List Place} :
      tier.rightAssociative = false → operator ∈ tier.operators →
      Runs g limit (.tiers tighter) ⟨rest, depth⟩ right there →
      (join operator left right.value).1 = none →
      Runs g limit (.operators tier tighter left) ⟨operator :: rest, depth⟩
        ⟨none, right.problems ++ (join operator left right.value).2, right.place⟩
        (⟨rest, depth⟩ :: there)
  | joinedRight {tier : Tier} {tighter : List Tier} {left : Option Expr} {operator : Lexeme}
      {rest : List Lexeme} {depth : Nat} {right : Result} {there : List Place} :
      tier.rightAssociative = true → operator ∈ tier.operators →
      Runs g limit (.nested (tier :: tighter)) ⟨rest, depth⟩ right there →
      Runs g limit (.operators tier tighter left) ⟨operator :: rest, depth⟩
        (right.noting (join operator left)) (⟨rest, depth⟩ :: there)
  -- prefix operators
  | sign {operator : Lexeme} {rest : List Lexeme} {depth : Nat} {r : Result}
      {there : List Place} :
      operator ∈ g.signs → Runs g limit (.nested []) ⟨rest, depth⟩ r there →
      Runs g limit .signs ⟨operator :: rest, depth⟩ (r.noting (applySign operator))
        (⟨rest, depth⟩ :: there)
  | noSign {s : Place} {r : Result} {visited : List Place} :
      Off s.rest g.signs → Runs g limit .primary s r visited → Runs g limit .signs s r visited
  -- groups, values, names and calls
  | nothing {depth : Nat} : Runs g limit .primary ⟨[], depth⟩ ⟨none, [], ⟨[], depth⟩⟩ []
  | group {rest rest' : List Lexeme} {depth depth' : Nat} {r : Result} {there : List Place} :
      Runs g limit (.nested g.tiers) ⟨rest, depth⟩ r there → r.place = ⟨")" :: rest', depth'⟩ →
      Runs g limit .primary ⟨"(" :: rest, depth⟩ (r.moved ⟨rest', depth'⟩)
        (⟨rest, depth⟩ :: (there ++ [⟨rest', depth'⟩]))
  | groupAtEnd {rest : List Lexeme} {depth : Nat} {r : Result} {there : List Place} :
      Runs g limit (.nested g.tiers) ⟨rest, depth⟩ r there → r.place.rest = [] →
      Runs g limit .primary ⟨"(" :: rest, depth⟩ (r.noting fun e => (e, [.unclosedGroup "("]))
        (⟨rest, depth⟩ :: there)
  | groupLeftOpen {next : Lexeme} {rest rest' : List Lexeme} {depth : Nat} {r : Result}
      {there : List Place} :
      Runs g limit (.nested g.tiers) ⟨rest, depth⟩ r there → r.place.rest = next :: rest' →
      next ≠ ")" → Runs g limit .primary ⟨"(" :: rest, depth⟩ r (⟨rest, depth⟩ :: there)
  | constant {lexeme : Lexeme} {rest : List Lexeme} {depth : Nat} :
      lexeme ≠ "(" → lexeme.isConstant = true →
      Runs g limit .primary ⟨lexeme :: rest, depth⟩ ⟨some (.constant lexeme), [], ⟨rest, depth⟩⟩
        [⟨rest, depth⟩]
  | name {lexeme : Lexeme} {rest : List Lexeme} {depth : Nat} :
      lexeme ≠ "(" → lexeme.isConstant = false → lexeme.isIdentifier = true →
      rest.head? ≠ some "(" →
      Runs g limit .primary ⟨lexeme :: rest, depth⟩ ⟨some (g.nameLeaf lexeme), [], ⟨rest, depth⟩⟩
        [⟨rest, depth⟩]
  | call {callee : Lexeme} {rest : List Lexeme} {depth : Nat} {r : Result} {there : List Place} :
      callee ≠ "(" → callee.isConstant = false → callee.isIdentifier = true →
      Runs g limit (.arguments callee []) ⟨rest, depth⟩ r there →
      Runs g limit .primary ⟨callee :: "(" :: rest, depth⟩ r
        (⟨"(" :: rest, depth⟩ :: ⟨rest, depth⟩ :: there)
  | noPrimary {lexeme : Lexeme} {rest : List Lexeme} {depth : Nat} :
      lexeme ≠ "(" → lexeme.isConstant = false → lexeme.isIdentifier = false →
      Runs g limit .primary ⟨lexeme :: rest, depth⟩ ⟨none, [], ⟨lexeme :: rest, depth⟩⟩ []
  -- arguments
  | argumentsAtEnd {callee : Lexeme} {before : List Expr} {depth : Nat} :
      Runs g limit (.arguments callee before) ⟨[], depth⟩
        ⟨some (.call callee before), [.unclosedGroup "("], ⟨[], depth⟩⟩ []
  | argumentsClosed {callee : Lexeme} {before : List Expr} {rest : List Lexeme} {depth : Nat} :
      Runs g limit (.arguments callee before) ⟨")" :: rest, depth⟩
        ⟨some (.call callee before), [], ⟨rest, depth⟩⟩ [⟨rest, depth⟩]
  | argumentThenPass {callee lexeme next : Lexeme} {before : List Expr} {rest rest' : List Lexeme}
      {depth depth' : Nat} {a r : Result} {there onward : List Place} :
      lexeme ≠ ")" → Runs g limit (.nested g.tiers) ⟨lexeme :: rest, depth⟩ a there →
      a.place = ⟨next :: rest', depth'⟩ → next = "," ∨ rest'.length = rest.length →
      Runs g limit (.arguments callee (before ++ a.value.toList)) ⟨rest', depth'⟩ r onward →
      Runs g limit (.arguments callee before) ⟨lexeme :: rest, depth⟩ (r.after a.problems)
        (there ++ ⟨rest', depth'⟩ :: onward)
  | argumentThenStay {callee lexeme : Lexeme} {before : List Expr} {rest : List Lexeme}
      {depth : Nat} {a r : Result} {there onward : List Place} :
      lexeme ≠ ")" → Runs g limit (.nested g.tiers) ⟨lexeme :: rest, depth⟩ a there →
      a.place.rest.head? ≠ some "," → a.place.rest.length ≠ rest.length + 1 →
      Runs g limit (.arguments callee (before ++ a.value.toList)) a.place r onward →
      Runs g limit (.arguments callee before) ⟨lexeme :: rest, depth⟩ (r.after a.problems)
        (there ++ onward)
  -- nestings
  | nested {tiers : List Tier} {rest rest' : List Lexeme} {depth depth' : Nat} {r : Result}
      {there : List Place} :
      depth < limit → Runs g limit (.tiers tiers) ⟨rest, depth + 1⟩ r there →
      r.place = ⟨rest', depth'⟩ →
      Runs g limit (.nested tiers) ⟨rest, depth⟩ (r.moved ⟨rest', depth' - 1⟩)
        (⟨rest, depth + 1⟩ :: (there ++ [⟨rest', depth' - 1⟩]))
  | nothingNested {tiers : List Tier} {depth : Nat} : limit ≤ depth →
      Runs g limit (.nested tiers) ⟨[], depth⟩ ⟨none, [], ⟨[], depth⟩⟩ []
  | tooDeep {tiers : List Tier} {lexeme : Lexeme} {rest : List Lexeme} {depth : Nat} {r : Result}
      {there : List Place} : limit ≤ depth →
      Runs g limit (.skip 0) ⟨lexeme :: rest, depth⟩ r there →
      Runs g limit (.nested tiers) ⟨lexeme :: rest, depth⟩
        ⟨some .placeholder, [.nestedTooDeep limit], r.place⟩ there
  | skipAtEnd {opened depth : Nat} :
      Runs g limit (.skip opened) ⟨[], depth⟩ ⟨none, [], ⟨[], depth⟩⟩ []
  | skipClosed {rest : List Lexeme} {depth : Nat} :
      Runs g limit (.skip 0) ⟨")" :: rest, depth⟩ ⟨none, [], ⟨")" :: rest, depth⟩⟩ []
  | skipOver {lexeme : Lexeme} {rest : List Lexeme} {opened depth : Nat} {r : Result}
      {there : List Place} : ¬ (lexeme = ")" ∧ opened = 0) →
      Runs g limit (.skip (openedAfter lexeme opened)) ⟨rest, depth⟩ r there →
      Runs g limit (.skip opened) ⟨lexeme :: rest, depth⟩ r (⟨rest, depth⟩ :: there)

variable {g : Grammar} {limit : Nat} {task : Task} {s : Place} {r r' : Result}
  {visited visited' : List Place}

/-! ## A call goes on in one way only -/

/-- Where an argument has read something and no comma comes next, no lexeme is passed over. -/
theorem not_passed {next : Lexeme} {rest rest' : List Lexeme} {depth' : Nat} {a : Result}
    (hplace : a.place = ⟨next :: rest', depth'⟩) (hcomma : a.place.rest.head? ≠ some ",")
    (hread : a.place.rest.length ≠ rest.length + 1) :
    ¬ (next = "," ∨ rest'.length = rest.length) := by
  rw [hplace] at hcomma hread
  rintro (rfl | hlength)
  · exact hcomma rfl
  · exact hread (congrArg (· + 1) hlength)

/-- **A call gives one result, in one way.** The rules for one task exclude each other, so two
derivations for a call end with the same rule, and the calls that it makes give the same. -/
theorem Runs.unique (h : Runs g limit task s r visited) (h' : Runs g limit task s r' visited') :
    r = r' ∧ visited = visited' := by
  induction h generalizing r' visited' with
  -- there are lexemes or there are none
  | noLexeme =>
      cases h' with
      | noLexeme => exact ⟨rfl, rfl⟩
      | whole hne => exact absurd rfl hne
  | whole hne _ ih =>
      cases h' with
      | noLexeme => exact absurd rfl hne
      | whole _ h =>
          obtain ⟨rfl, rfl⟩ := ih h
          exact ⟨rfl, rfl⟩
  -- there is one rule for no tier, and one for some
  | noTier _ ih =>
      cases h' with
      | noTier h => exact ih h
  | tier _ _ ihl ihr =>
      cases h' with
      | tier hl hr =>
          obtain ⟨rfl, rfl⟩ := ihl hl
          obtain ⟨rfl, rfl⟩ := ihr hr
          exact ⟨rfl, rfl⟩
  -- an operator comes next or none does, the tier groups to the left or to the right, and two
  -- operands that are the same are joined or are not
  | noOperator hoff =>
      cases h' with
      | noOperator => exact ⟨rfl, rfl⟩
      | joined _ ho | noOperand _ ho | joinedRight _ ho => exact absurd ho hoff.not_mem
  | joined hleft ho _ hjoin _ ihright ih =>
      cases h' with
      | noOperator hoff => exact absurd ho hoff.not_mem
      | joined _ _ hright hjoin' h =>
          obtain ⟨rfl, rfl⟩ := ihright hright
          obtain rfl := Option.some.inj (hjoin.symm.trans hjoin')
          obtain ⟨rfl, rfl⟩ := ih h
          exact ⟨rfl, rfl⟩
      | noOperand _ _ hright hnone =>
          obtain ⟨rfl, -⟩ := ihright hright
          exact absurd (hjoin.symm.trans hnone) (Option.some_ne_none _)
      | joinedRight hright => exact absurd (hleft.symm.trans hright) Bool.false_ne_true
  | noOperand hleft ho _ hnone ih =>
      cases h' with
      | noOperator hoff => exact absurd ho hoff.not_mem
      | joined _ _ hright hjoin =>
          obtain ⟨rfl, -⟩ := ih hright
          exact absurd (hjoin.symm.trans hnone) (Option.some_ne_none _)
      | noOperand _ _ hright =>
          obtain ⟨rfl, rfl⟩ := ih hright
          exact ⟨rfl, rfl⟩
      | joinedRight hright => exact absurd (hleft.symm.trans hright) Bool.false_ne_true
  | joinedRight hright ho _ ih =>
      cases h' with
      | noOperator hoff => exact absurd ho hoff.not_mem
      | joined hleft | noOperand hleft =>
          exact absurd (hleft.symm.trans hright) Bool.false_ne_true
      | joinedRight _ _ h =>
          obtain ⟨rfl, rfl⟩ := ih h
          exact ⟨rfl, rfl⟩
  -- a sign comes next or none does
  | sign hsign _ ih =>
      cases h' with
      | sign _ h =>
          obtain ⟨rfl, rfl⟩ := ih h
          exact ⟨rfl, rfl⟩
      | noSign hoff => exact absurd hsign hoff.not_mem
  | noSign hoff _ ih =>
      cases h' with
      | sign hsign => exact absurd hsign hoff.not_mem
      | noSign _ h => exact ih h
  -- the next lexeme opens a group, is a value, is a name, or is none of these
  | nothing =>
      cases h' with
      | nothing => exact ⟨rfl, rfl⟩
  | group _ hplace ih =>
      cases h' with
      | group h hplace' =>
          obtain ⟨rfl, rfl⟩ := ih h
          obtain ⟨rfl, rfl⟩ : _ ∧ _ := by simpa using hplace.symm.trans hplace'
          exact ⟨rfl, rfl⟩
      | groupAtEnd h hend =>
          obtain ⟨rfl, -⟩ := ih h
          rw [hplace] at hend
          cases hend
      | groupLeftOpen h hnext hother =>
          obtain ⟨rfl, -⟩ := ih h
          rw [hplace] at hnext
          cases hnext
          exact absurd rfl hother
      | constant hparen | name hparen | call hparen | noPrimary hparen => exact absurd rfl hparen
  | groupAtEnd _ hend ih =>
      cases h' with
      | group h hplace =>
          obtain ⟨rfl, -⟩ := ih h
          rw [hplace] at hend
          cases hend
      | groupAtEnd h =>
          obtain ⟨rfl, rfl⟩ := ih h
          exact ⟨rfl, rfl⟩
      | groupLeftOpen h hnext =>
          obtain ⟨rfl, -⟩ := ih h
          exact absurd (hnext.symm.trans hend) (List.cons_ne_nil _ _)
      | constant hparen | name hparen | call hparen | noPrimary hparen => exact absurd rfl hparen
  | groupLeftOpen _ hnext hother ih =>
      cases h' with
      | group h hplace =>
          obtain ⟨rfl, -⟩ := ih h
          rw [hplace] at hnext
          cases hnext
          exact absurd rfl hother
      | groupAtEnd h hend =>
          obtain ⟨rfl, -⟩ := ih h
          exact absurd (hnext.symm.trans hend) (List.cons_ne_nil _ _)
      | groupLeftOpen h =>
          obtain ⟨rfl, rfl⟩ := ih h
          exact ⟨rfl, rfl⟩
      | constant hparen | name hparen | call hparen | noPrimary hparen => exact absurd rfl hparen
  | constant hparen hconstant =>
      cases h' with
      | group | groupAtEnd | groupLeftOpen => exact absurd rfl hparen
      | constant => exact ⟨rfl, rfl⟩
      | name _ hnot | call _ hnot | noPrimary _ hnot =>
          exact absurd (hnot.symm.trans hconstant) Bool.false_ne_true
  | name hparen hnot hname hplain =>
      cases h' with
      | group | groupAtEnd | groupLeftOpen => exact absurd rfl hparen
      | constant _ hconstant => exact absurd (hnot.symm.trans hconstant) Bool.false_ne_true
      | name => exact ⟨rfl, rfl⟩
      | call => exact absurd rfl hplain
      | noPrimary _ _ hother => exact absurd (hother.symm.trans hname) Bool.false_ne_true
  | call hparen hnot hname _ ih =>
      cases h' with
      | group | groupAtEnd | groupLeftOpen => exact absurd rfl hparen
      | constant _ hconstant => exact absurd (hnot.symm.trans hconstant) Bool.false_ne_true
      | name _ _ _ hplain => exact absurd rfl hplain
      | call _ _ _ h =>
          obtain ⟨rfl, rfl⟩ := ih h
          exact ⟨rfl, rfl⟩
      | noPrimary _ _ hother => exact absurd (hother.symm.trans hname) Bool.false_ne_true
  | noPrimary hparen hnot hother =>
      cases h' with
      | group | groupAtEnd | groupLeftOpen => exact absurd rfl hparen
      | constant _ hconstant => exact absurd (hnot.symm.trans hconstant) Bool.false_ne_true
      | name _ _ hname | call _ _ hname =>
          exact absurd (hother.symm.trans hname) Bool.false_ne_true
      | noPrimary => exact ⟨rfl, rfl⟩
  -- the arguments are at their end or not; then a lexeme is passed after the argument, namely a
  -- comma or the one that the argument left where it began, or none is
  | argumentsAtEnd =>
      cases h' with
      | argumentsAtEnd => exact ⟨rfl, rfl⟩
  | argumentsClosed =>
      cases h' with
      | argumentsClosed => exact ⟨rfl, rfl⟩
      | argumentThenPass hother | argumentThenStay hother => exact absurd rfl hother
  | argumentThenPass hother _ hplace hpass _ iha ih =>
      cases h' with
      | argumentsClosed => exact absurd rfl hother
      | argumentThenPass _ ha hplace' _ h =>
          obtain ⟨rfl, rfl⟩ := iha ha
          cases hplace.symm.trans hplace'
          obtain ⟨rfl, rfl⟩ := ih h
          exact ⟨rfl, rfl⟩
      | argumentThenStay _ ha hcomma hread =>
          obtain ⟨rfl, -⟩ := iha ha
          exact absurd hpass (not_passed hplace hcomma hread)
  | argumentThenStay hother _ hcomma hread _ iha ih =>
      cases h' with
      | argumentsClosed => exact absurd rfl hother
      | argumentThenPass _ ha hplace hpass =>
          obtain ⟨rfl, -⟩ := iha ha
          exact absurd hpass (not_passed hplace hcomma hread)
      | argumentThenStay _ ha _ _ h =>
          obtain ⟨rfl, rfl⟩ := iha ha
          obtain ⟨rfl, rfl⟩ := ih h
          exact ⟨rfl, rfl⟩
  -- there is room for a nesting or there is none
  | nested hroom _ hplace ih =>
      cases h' with
      | nested _ h hplace' =>
          obtain ⟨rfl, rfl⟩ := ih h
          cases hplace.symm.trans hplace'
          exact ⟨rfl, rfl⟩
      | nothingNested hdeep | tooDeep hdeep => exact absurd hroom (Nat.not_lt_of_le hdeep)
  | nothingNested hdeep =>
      cases h' with
      | nested hroom => exact absurd hroom (Nat.not_lt_of_le hdeep)
      | nothingNested => exact ⟨rfl, rfl⟩
  | tooDeep hdeep _ ih =>
      cases h' with
      | nested hroom => exact absurd hroom (Nat.not_lt_of_le hdeep)
      | tooDeep _ h =>
          obtain ⟨rfl, rfl⟩ := ih h
          exact ⟨rfl, rfl⟩
  -- the end of the enclosing group is reached or not
  | skipAtEnd =>
      cases h' with
      | skipAtEnd => exact ⟨rfl, rfl⟩
  | skipClosed =>
      cases h' with
      | skipClosed => exact ⟨rfl, rfl⟩
      | skipOver hopen => exact absurd ⟨rfl, rfl⟩ hopen
  | skipOver hopen _ ih =>
      cases h' with
      | skipClosed => exact absurd ⟨rfl, rfl⟩ hopen
      | skipOver _ h =>
          obtain ⟨rfl, rfl⟩ := ih h
          exact ⟨rfl, rfl⟩

/-- **A call closes the nestings that it opened.** -/
theorem Runs.depth_eq (h : Runs g limit task s r visited) : r.place.depth = s.depth := by
  induction h with
  | whole _ _ ih => exact ih
  | noTier _ ih => exact ih
  | tier _ _ ihl ihr => exact ihr.trans ihl
  | joined _ _ _ _ _ ihright ih => exact ih.trans ihright
  | noOperand _ _ _ _ ih => exact ih
  | joinedRight _ _ _ ih => exact ih
  | sign _ _ ih => exact ih
  | noSign _ _ ih => exact ih
  | group _ hplace ih => rwa [hplace] at ih
  | groupAtEnd _ _ ih => exact ih
  | groupLeftOpen _ _ _ ih => exact ih
  | call _ _ _ _ ih => exact ih
  | argumentThenPass _ _ hplace _ _ iha ih =>
      rw [hplace] at iha
      exact ih.trans iha
  | argumentThenStay _ _ _ _ _ iha ih => exact ih.trans iha
  | nested _ _ hplace ih =>
      rw [hplace] at ih
      exact congrArg (· - 1) ih
  | tooDeep _ _ ih => exact ih
  | skipOver _ _ ih => exact ih
  | _ => rfl

end Descent

/-! ## Every parse is the end of a derivation -/

/-- The place of a cursor. -/
def Cursor.place (c : Cursor) : Descent.Place :=
  ⟨c.rest, c.depth⟩

/-- What a step of the parser gives, as the result of a call. -/
def Step.result {c : Cursor} (s : Step (Option Expr) c) : Descent.Result :=
  ⟨s.value, s.problems, s.cursor.place⟩

/-- The outcome of a parse, as the result of a call. -/
def Parse.result (p : Parse) : Descent.Result :=
  ⟨p.expr, p.problems, p.cursor.place⟩

theorem Parse.fields_of_result {p : Parse} {r : Descent.Result} (h : p.result = r) :
    p.expr = r.value ∧ p.problems = r.problems ∧ p.cursor.rest = r.place.rest ∧
      p.cursor.depth = r.place.depth := by
  subst h
  exact ⟨rfl, rfl, rfl, rfl⟩

namespace Descent

/-- Called where the step begins, the parser gives what the step gives. -/
def Gives (g : Grammar) (limit : Nat) (task : Task) {c : Cursor} (s : Step (Option Expr) c) :
    Prop :=
  ∃ visited, Runs g limit task c.place s.result visited

/-- Wherever `depth` nestings are open, a call gives what the parser gives. -/
def GivesAt (g : Grammar) (limit depth : Nat) (task : Task) (parser : ExprParser) : Prop :=
  ∀ c : Cursor, c.depth = depth → Gives g limit task (parser c)

theorem Gives.depth_eq {c : Cursor} {s : Step (Option Expr) c} (h : Gives g limit task s) :
    s.cursor.depth = c.depth := by
  obtain ⟨visited, h⟩ := h
  exact h.depth_eq

variable {depth : Nat} {operand : ExprParser} {nested : List Tier → ExprParser} {tier : Tier}
  {tighter : List Tier}

/-! ### Loops -/

/-- What a step gives after another one. -/
theorem result_andThen {α : Type} {c : Cursor} (s : Step α c)
    (next : α → (c' : Cursor) → Step (Option Expr) c') :
    (s.andThen next).result = (next s.value s.cursor).result.after s.problems := rfl

theorem givesAt_foldLeft (ha : tier.rightAssociative = false)
    (hoperand : GivesAt g limit depth (.tiers tighter) operand) (left : Option Expr) :
    GivesAt g limit depth (.operators tier tighter left)
      (Grammar.foldLeft tier.operators operand left) := by
  intro c hc
  -- each round reads an operator, so the lexemes that are left get fewer
  induction hlength : c.rest.length using Nat.strongRecOn generalizing left c with
  | ind k ih =>
      obtain ⟨rest, d, deepest⟩ := c
      rcases Grammar.off_or_cons tier.operators rest with hoff | ⟨operator, rest, rfl, ho⟩
      · rw [Grammar.foldLeft_off hoff]
        exact ⟨_, .noOperator hoff⟩
      · rw [Grammar.foldLeft_cons ho]
        have hgives := hoperand ⟨rest, d, deepest⟩ hc
        generalize operand ⟨rest, d, deepest⟩ = right at hgives
        have hdepth : right.cursor.depth = depth := hgives.depth_eq.trans hc
        have hshort : right.cursor.rest.length < k := by
          have hle := right.suffix.length_le
          simp only [List.length_cons] at hlength hle
          omega
        obtain ⟨there, hright⟩ := hgives
        unfold Gives
        simp only [Step.result, Step.andThen, Step.afterOne, Step.mapNoting]
        cases hjoin : (Grammar.join operator left right.value).1 with
        | none =>
            simp only [Grammar.goOn, Step.stay, List.append_nil]
            exact ⟨_, .noOperand ha ho hright hjoin⟩
        | some e =>
            obtain ⟨onward, hmore⟩ := ih _ hshort (some e) _ hdepth rfl
            exact ⟨_, .joined ha ho hright hjoin hmore⟩

theorem givesAt_foldRight (ha : tier.rightAssociative = true)
    (hn : GivesAt g limit depth (.nested (tier :: tighter)) operand) (left : Option Expr) :
    GivesAt g limit depth (.operators tier tighter left)
      (Grammar.foldRight tier.operators operand left) := by
  intro c hc
  obtain ⟨rest, d, deepest⟩ := c
  rcases Grammar.off_or_cons tier.operators rest with hoff | ⟨operator, rest, rfl, ho⟩
  · rw [Grammar.foldRight_off hoff]
    exact ⟨_, .noOperator hoff⟩
  · rw [Grammar.foldRight_cons ho]
    obtain ⟨there, hright⟩ := hn ⟨rest, d, deepest⟩ hc
    exact ⟨_, .joinedRight ha ho hright⟩

/-- The rest of a call, after the arguments that have been read. -/
def furtherArguments (operand : ExprParser) (callee : Lexeme) (before : List Expr) : ExprParser :=
  fun c => (Grammar.arguments operand c).mapNoting fun es =>
    (some (.call callee (before ++ es)), [])

theorem furtherArguments_cons {callee lexeme : Lexeme} {rest : List Lexeme} {d deepest : Nat}
    (h : lexeme ≠ ")") (before : List Expr) :
    furtherArguments operand callee before ⟨lexeme :: rest, d, deepest⟩ =
      (operand ⟨lexeme :: rest, d, deepest⟩).andThen fun argument c =>
        (Grammar.passComma ⟨lexeme :: rest, d, deepest⟩ c).andThen fun _ c =>
          furtherArguments operand callee (before ++ argument.toList) c := by
  rw [furtherArguments, Grammar.arguments_cons h]
  ext1
  · simp [Step.andThen, Step.mapNoting, furtherArguments, List.append_assoc]
  · rfl
  · simp [Step.andThen, Step.mapNoting, furtherArguments]

theorem passComma_pass {before : Cursor} {next : Lexeme} {rest : List Lexeme} {d deepest : Nat}
    (h : next = "," ∨ before.rest.length = rest.length + 1) :
    Grammar.passComma before ⟨next :: rest, d, deepest⟩ =
      (Step.stay () ⟨rest, d, deepest⟩).afterOne := by
  simp [Grammar.passComma, h]

/-- One round over the arguments; what is left to be read after it is less. -/
theorem gives_round {callee lexeme : Lexeme} {before : List Expr} {rest : List Lexeme}
    {d deepest : Nat} {next : ExprParser} (hcloser : lexeme ≠ ")")
    {argument : Step (Option Expr) ⟨lexeme :: rest, d, deepest⟩}
    (hargument : Gives g limit (.nested g.tiers) argument)
    (hnext : ∀ c : Cursor, c.rest.length < rest.length + 1 → c.depth = d →
      Gives g limit (.arguments callee (before ++ argument.value.toList)) (next c)) :
    Gives g limit (.arguments callee before) (argument.andThen fun _ c =>
      (Grammar.passComma ⟨lexeme :: rest, d, deepest⟩ c).andThen fun _ c => next c) := by
  have hdepth : argument.cursor.depth = d := hargument.depth_eq
  have hless := Grammar.passComma_lt argument.suffix (List.cons_ne_nil lexeme rest)
  obtain ⟨value, ⟨between, d', deepest'⟩, problems, hsuffix⟩ := argument
  obtain ⟨there, hargument⟩ := hargument
  rw [Gives, result_andThen]
  cases between with
  | nil =>
      obtain ⟨onward, hmore⟩ := hnext _ hless hdepth
      exact ⟨_, .argumentThenStay hcloser hargument (List.head?_nil ▸ nofun) nofun hmore⟩
  | cons next between =>
      dsimp only
      by_cases hpass : next = "," ∨ rest.length + 1 = between.length + 1
      · have hround : Grammar.passComma ⟨lexeme :: rest, d, deepest⟩
            ⟨next :: between, d', deepest'⟩ = (Step.stay () _).afterOne := passComma_pass hpass
        rw [hround] at hless ⊢
        obtain ⟨onward, hmore⟩ := hnext ⟨between, d', deepest'⟩ hless hdepth
        exact ⟨_, .argumentThenPass hcloser hargument rfl
          (hpass.imp_right fun h => (Nat.succ.inj h).symm) hmore⟩
      · obtain ⟨hcomma, hread⟩ := not_or.mp hpass
        have hround : Grammar.passComma ⟨lexeme :: rest, d, deepest⟩
            ⟨next :: between, d', deepest'⟩ = .stay () _ := Grammar.passComma_other hcomma hread
        rw [hround] at hless ⊢
        obtain ⟨onward, hmore⟩ := hnext ⟨next :: between, d', deepest'⟩ hless hdepth
        exact ⟨_, .argumentThenStay hcloser hargument (fun h => hcomma (Option.some.inj h))
          (Ne.symm hread) hmore⟩

theorem givesAt_furtherArguments (hn : GivesAt g limit depth (.nested g.tiers) operand)
    (callee : Lexeme) (before : List Expr) :
    GivesAt g limit depth (.arguments callee before) (furtherArguments operand callee before) := by
  intro c hc
  -- each round reads at least one lexeme, whatever the argument was
  induction hlength : c.rest.length using Nat.strongRecOn generalizing before c with
  | ind k ih =>
      obtain ⟨rest, d, deepest⟩ := c
      cases rest with
      | nil =>
          simp only [furtherArguments, Grammar.arguments_nil, Gives, Step.mapNoting, Step.result,
            List.append_nil]
          exact ⟨_, .argumentsAtEnd⟩
      | cons lexeme rest =>
          by_cases hcloser : lexeme = ")"
          · subst hcloser
            simp only [furtherArguments, Grammar.arguments_closer, Gives, Step.mapNoting,
              Step.result, Step.afterOne, Step.stay, List.append_nil]
            exact ⟨_, .argumentsClosed⟩
          · rw [furtherArguments_cons hcloser]
            refine gives_round hcloser (hn _ hc) fun c' hless hdepth => ?_
            exact ih _ (hlength ▸ hless) _ c' (hdepth.trans hc) rfl

/-! ### Operands, tiers and nestings -/

/-- A group, ended by its closing parenthesis, by the end or by any other lexeme. -/
theorem gives_group {rest : List Lexeme} {d deepest : Nat}
    {inside : Step (Option Expr) ⟨rest, d, deepest⟩}
    (hinside : Gives g limit (.nested g.tiers) inside) :
    Gives g limit .primary
      ((inside.andThen Grammar.closeGroup).afterOne : Step _ ⟨"(" :: rest, d, deepest⟩) := by
  obtain ⟨value, ⟨between, d', deepest'⟩, problems, hsuffix⟩ := inside
  obtain ⟨there, hinside⟩ := hinside
  unfold Gives
  cases between with
  | nil => exact ⟨_, .groupAtEnd hinside rfl⟩
  | cons next between =>
      by_cases hcloser : next = ")"
      · subst hcloser
        simp only [Step.result, Step.afterOne, Step.andThen, Grammar.closeGroup_closer,
          Step.stay, List.append_nil]
        exact ⟨_, .group hinside rfl⟩
      · simp only [Step.result, Step.afterOne, Step.andThen,
          Grammar.closeGroup_other value hcloser, Step.stay, List.append_nil]
        exact ⟨_, .groupLeftOpen hinside rfl hcloser⟩

theorem givesAt_primary (hn : ∀ tiers, GivesAt g limit depth (.nested tiers) (nested tiers)) :
    GivesAt g limit depth .primary (g.primary nested) := by
  intro c hc
  obtain ⟨rest, d, deepest⟩ := c
  cases rest with
  | nil => exact ⟨_, .nothing⟩
  | cons lexeme rest =>
      by_cases hparen : lexeme = "("
      · subst hparen
        rw [Grammar.primary_group]
        exact gives_group (hn g.tiers ⟨rest, d, deepest⟩ hc)
      cases hconst : lexeme.isConstant with
      | true =>
          rw [Grammar.primary_constant hparen hconst]
          exact ⟨_, .constant hparen hconst⟩
      | false =>
          cases hident : lexeme.isIdentifier with
          | true =>
              by_cases hcall : rest.head? = some "("
              · obtain ⟨inside, rfl⟩ := List.head?_eq_some_iff.mp hcall
                rw [Grammar.primary_call hparen hconst hident]
                obtain ⟨there, hinside⟩ := givesAt_furtherArguments (hn g.tiers) lexeme []
                  ⟨inside, d, deepest⟩ hc
                exact ⟨_, .call hparen hconst hident hinside⟩
              · rw [Grammar.primary_name hparen hconst hident hcall]
                exact ⟨_, .name hparen hconst hident hcall⟩
          | false =>
              rw [Grammar.primary_other hparen hconst hident]
              exact ⟨_, .noPrimary hparen hconst hident⟩

theorem givesAt_unary (hn : ∀ tiers, GivesAt g limit depth (.nested tiers) (nested tiers)) :
    GivesAt g limit depth .signs (g.unary nested) := by
  intro c hc
  obtain ⟨rest, d, deepest⟩ := c
  rcases Grammar.off_or_cons g.signs rest with hoff | ⟨operator, rest, rfl, ho⟩
  · rw [Grammar.unary_off hoff]
    obtain ⟨visited, h⟩ := givesAt_primary hn ⟨rest, d, deepest⟩ hc
    exact ⟨_, .noSign hoff h⟩
  · rw [Grammar.unary_sign ho]
    obtain ⟨there, h⟩ := hn [] ⟨rest, d, deepest⟩ hc
    exact ⟨_, .sign ho h⟩

/-- The tiers, from the tightest one up. -/
theorem givesAt_climb (hn : ∀ tiers, GivesAt g limit depth (.nested tiers) (nested tiers))
    (tiers : List Tier) : GivesAt g limit depth (.tiers tiers) (g.climb nested tiers) := by
  induction tiers with
  | nil =>
      intro c hc
      obtain ⟨visited, h⟩ := givesAt_unary hn c hc
      exact ⟨_, .noTier h⟩
  | cons tier tighter ih =>
      intro c hc
      have hleft := ih c hc
      have hdepth : (g.climb nested tighter c).cursor.depth = depth := hleft.depth_eq.trans hc
      obtain ⟨there, hleft⟩ := hleft
      cases ha : tier.rightAssociative with
      | false =>
          rw [Grammar.climb_left ha]
          obtain ⟨onward, hmore⟩ := givesAt_foldLeft ha ih _ _ hdepth
          exact ⟨_, .tier hleft hmore⟩
      | true =>
          rw [Grammar.climb_right ha]
          obtain ⟨onward, hmore⟩ := givesAt_foldRight ha (hn (tier :: tighter)) _ _ hdepth
          exact ⟨_, .tier hleft hmore⟩

/-- Passing over lexemes leads to where `dropNested` does. -/
theorem runs_skip (g : Grammar) (limit opened : Nat) (lexemes : List Lexeme) (depth : Nat) :
    ∃ visited, Runs g limit (.skip opened) ⟨lexemes, depth⟩
      ⟨none, [], ⟨Grammar.dropNested opened lexemes, depth⟩⟩ visited := by
  induction lexemes generalizing opened with
  | nil => exact ⟨_, .skipAtEnd⟩
  | cons lexeme rest ih =>
      by_cases hclosed : lexeme = ")" ∧ opened = 0
      · obtain ⟨rfl, rfl⟩ := hclosed
        exact ⟨_, .skipClosed⟩
      · have hdrop : Grammar.dropNested opened (lexeme :: rest) =
            Grammar.dropNested (openedAfter lexeme opened) rest := by
          by_cases hcloser : lexeme = ")"
          · cases opened with
            | zero => exact absurd ⟨hcloser, rfl⟩ hclosed
            | succ opened => simp [Grammar.dropNested, openedAfter, hcloser]
          · by_cases hopener : lexeme = "(" <;>
              simp [Grammar.dropNested, openedAfter, hcloser, hopener]
        obtain ⟨visited, h⟩ := ih (openedAfter lexeme opened)
        rw [hdrop]
        exact ⟨_, .skipOver hclosed h⟩

/-- **The counter of open nestings stands for the nestings that may still be entered.** -/
theorem givesAt_nestedAt {room : Nat} (hroom : depth + room = limit) (tiers : List Tier) :
    GivesAt g limit depth (.nested tiers) (g.nestedAt limit room tiers) := by
  induction room generalizing depth tiers with
  | zero =>
      intro c hc
      obtain ⟨rest, d, deepest⟩ := c
      have hdeep : limit ≤ d := by
        simp only at hc
        omega
      cases rest with
      | nil => exact ⟨_, .nothingNested hdeep⟩
      | cons lexeme rest =>
          obtain ⟨visited, h⟩ := runs_skip g limit 0 (lexeme :: rest) d
          exact ⟨_, .tooDeep hdeep h⟩
  | succ room ih =>
      intro c hc
      have hroom : c.depth < limit := by omega
      have hclimb : GivesAt g limit (depth + 1) (.tiers tiers)
          (g.climb (g.nestedAt limit room) tiers) := givesAt_climb (ih (by omega)) tiers
      obtain ⟨there, h⟩ := hclimb c.enter (congrArg (· + 1) hc)
      exact ⟨_, .nested hroom h rfl⟩

/-- **Every parse is the end of a derivation.** -/
theorem runs_parse (g : Grammar) (limit : Nat) (lexemes : List Lexeme) :
    ∃ visited, Runs g limit .whole ⟨lexemes, 0⟩ (g.parse limit lexemes).result visited := by
  by_cases hne : lexemes = []
  · subst hne
    exact ⟨_, .noLexeme⟩
  · rw [Grammar.parse_of_ne_nil hne]
    have hclimb : GivesAt g limit 0 (.tiers g.tiers) (g.climb (g.nestedAt limit limit) g.tiers) :=
      givesAt_climb (givesAt_nestedAt (Nat.zero_add limit)) g.tiers
    obtain ⟨visited, h⟩ := hclimb (.start lexemes) rfl
    exact ⟨_, .whole hne h⟩

/-- What a derivation gives for all lexemes is their parse. -/
theorem Runs.eq_parse {lexemes : List Lexeme} (h : Runs g limit .whole ⟨lexemes, 0⟩ r visited) :
    r = (g.parse limit lexemes).result := by
  obtain ⟨visited', h'⟩ := runs_parse g limit lexemes
  exact (h.unique h').1

end Descent

end SnippetTree
