import SnippetTree.Dialect
import SnippetTree.Proofs.Derivation
import SnippetTree.Proofs.Shows

/-!
# What is parsed in silence is derived

If the parser gives a tree without calls and notes nothing, then the lexemes, all of them, are an
expression of the grammar and the tree is theirs. No table is excluded. Calls are, since their loop
passes over an argument that it cannot read.

The one repair that is not noted where it is made is a group that some other lexeme than a closing
parenthesis ends: the group counts as closed and the lexeme is left where it stands. It cannot be
lost, though. A part of a group ends at a lexeme only if that is an operator of none of the tiers;
then no enclosing part can read it either, so it is still there at the end of the parse, where it
is noted as trailing. `Stuck` is the state between the two events.
-/

namespace SnippetTree

/-- No call occurs in the expression. -/
def Expr.CallFree : Expr → Prop
  | identifier _ | keyword _ | constant _ | placeholder => True
  | unary _ e | leftOnly _ e | rightOnly _ e => e.CallFree
  | binary _ l r => l.CallFree ∧ r.CallFree
  | call _ _ => False

namespace Grammar

variable {g : Grammar} {limit n : Nat} {tier : Tier} {tiers : List Tier} {operator : Lexeme}
  {rest rest' rest'' : List Lexeme} {e l r : Expr}

/-- The next lexeme neither continues an expression of the table nor closes a group. -/
def Stuck (g : Grammar) (rest : List Lexeme) : Prop :=
  ∃ next others, rest = next :: others ∧ next ≠ ")" ∧ ∀ tier ∈ g.tiers, next ∉ tier.operators

/-- Between the two points an expression over `tiers` has been read as `e`, or the parse is stuck
at the latter. -/
def ReadAs (g : Grammar) (n : Nat) (tiers : List Tier) (rest rest' : List Lexeme) (e : Expr) : Prop :=
  (∃ lexemes, rest = lexemes ++ rest' ∧ g.Derives n tiers lexemes e) ∨ g.Stuck rest'

/-- An expression has been read, and the next lexeme does not continue it. -/
structure Settled (g : Grammar) (n : Nat) (tiers : List Tier) (rest rest' : List Lexeme) (e : Expr) :
    Prop where
  read : g.ReadAs n tiers rest rest' e
  off : ∀ tier ∈ tiers, Off rest' tier.operators

/-- If the step notes nothing and gives a tree without calls, the tree has been read at `tiers`. -/
def SoundStep (g : Grammar) (n : Nat) (tiers : List Tier) {c : Cursor} (s : Step (Option Expr) c) :
    Prop :=
  s.problems = [] → ∀ e, s.value = some e → e.CallFree → g.Settled n tiers c.rest s.cursor.rest e

/-- A parser of nested parts is sound with one nesting fewer; with none to go it gives no tree in
silence. -/
def SoundNested (g : Grammar) (n : Nat) (nested : List Tier → ExprParser) : Prop :=
  ∀ tiers ⊆ g.tiers, ∀ c, (nested tiers c).problems = [] → ∀ e, (nested tiers c).value = some e →
    e.CallFree → ∃ m, n = m + 1 ∧ g.Settled m tiers c.rest (nested tiers c).cursor.rest e

/-- An operator of the table is never where a parse is stuck. -/
theorem not_stuck_of_operator (ht : tier ∈ g.tiers) (ho : operator ∈ tier.operators) :
    ¬ g.Stuck (operator :: rest) := by
  rintro ⟨next, others, heq, -, hnone⟩
  obtain ⟨rfl, -⟩ := List.cons.inj heq
  exact hnone tier ht ho

theorem ReadAs.tighter (h : g.ReadAs n tiers rest rest' e) :
    g.ReadAs n (tier :: tiers) rest rest' e := by
  rcases h with ⟨lexemes, heq, hd⟩ | hstuck
  · exact .inl ⟨lexemes, heq, .tighter hd⟩
  · exact .inr hstuck

/-! ## Prefix operators and primaries -/

theorem applySign_silent {operand : Option Expr} (h : (applySign operator operand).2 = []) :
    ∃ e, operand = some e ∧ (applySign operator operand).1 = some (.unary operator e) := by
  cases operand with
  | none => simp [applySign] at h
  | some e => exact ⟨e, rfl, rfl⟩

theorem join_silent {left right : Option Expr} (h : (join operator left right).2 = []) :
    ∃ l r, left = some l ∧ right = some r ∧
      (join operator left right).1 = some (.binary operator l r) := by
  cases left with
  | none => cases right <;> simp [join] at h
  | some l =>
      cases right with
      | none => simp [join] at h
      | some r => exact ⟨l, r, rfl, rfl, rfl⟩

/-- A group ends at its closing parenthesis, or the parse is stuck. -/
theorem soundStep_group {nested : List Tier → ExprParser} (hn : g.SoundNested n nested)
    (depth deepest : Nat) : g.SoundStep n [] (g.primary nested ⟨"(" :: rest, depth, deepest⟩) := by
  rw [primary_group]
  have hinside := hn g.tiers (List.Subset.refl _) ⟨rest, depth, deepest⟩
  generalize nested g.tiers ⟨rest, depth, deepest⟩ = inside at hinside
  obtain ⟨value, ⟨between, depth', deepest'⟩, problems, hsuffix⟩ := inside
  intro hsilent e hvalue hfree
  simp only [Step.afterOne, Step.andThen, List.append_eq_nil_iff] at hsilent hvalue hinside ⊢
  obtain ⟨hquiet, hclose⟩ := hsilent
  cases between with
  | nil => simp [closeGroup_nil] at hclose
  | cons next between =>
      by_cases hcloser : next = ")"
      · subst hcloser
        rw [closeGroup_closer] at hvalue ⊢
        obtain ⟨m, rfl, hsettled⟩ := hinside hquiet e hvalue hfree
        refine ⟨?_, by simp⟩
        -- what closes a group is not where a parse is stuck
        rcases hsettled.read with ⟨lexemes, heq, hd⟩ | ⟨next, others, heq, hne, -⟩
        · refine .inl ⟨"(" :: (lexemes ++ [")"]), ?_, .group hd⟩
          rw [heq, List.cons_append, List.append_assoc]
          rfl
        · exact absurd (List.cons.inj heq).1.symm hne
      · -- the parse is stuck from here on: all tiers of the table have been tried inside
        rw [closeGroup_other value hcloser] at hvalue ⊢
        obtain ⟨m, rfl, hsettled⟩ := hinside hquiet e hvalue hfree
        refine ⟨.inr ⟨next, between, rfl, hcloser, ?_⟩, by simp⟩
        exact fun tier ht => hsettled.off tier ht next (by simp)

/-- A name by itself; a name before an opening parenthesis would give a call. -/
theorem soundStep_name {nested : List Tier → ExprParser} {lexeme : Lexeme}
    (hparen : lexeme ≠ "(") (hname : g.NameToken lexeme) (depth deepest : Nat) :
    g.SoundStep n [] (g.primary nested ⟨lexeme :: rest, depth, deepest⟩) := by
  by_cases hcall : rest.head? = some "("
  · obtain ⟨inside, rfl⟩ := List.head?_eq_some_iff.mp hcall
    rw [primary_call hparen hname.no_constant hname.identifier]
    intro _ e hvalue hfree
    simp only [Step.afterOne, call, Step.mapNoting, Option.some.injEq] at hvalue
    subst hvalue
    exact hfree.elim
  · rw [primary_name hparen hname.no_constant hname.identifier hcall]
    intro _ e hvalue _
    simp only [Step.afterOne, Step.stay, Option.some.injEq] at hvalue
    subst hvalue
    exact ⟨.inl ⟨[lexeme], rfl, .name hname⟩, by simp⟩

/-- Without a prefix operator there is a group, a value or a name, and nothing else in silence. -/
theorem soundStep_primary {nested : List Tier → ExprParser} (hn : g.SoundNested n nested)
    {c : Cursor} (hoff : Off c.rest g.signs) : g.SoundStep n [] (g.primary nested c) := by
  obtain ⟨rest, depth, deepest⟩ := c
  cases rest with
  | nil =>
      rw [primary_nil]
      intro _ e hvalue _
      simp [Step.stay] at hvalue
  | cons lexeme rest =>
      by_cases hparen : lexeme = "("
      · subst hparen
        exact soundStep_group hn depth deepest
      have hsign : lexeme ∉ g.signs := hoff lexeme (by simp)
      cases hconst : lexeme.isConstant with
      | true =>
          rw [primary_constant hparen hconst]
          intro _ e hvalue _
          simp only [Step.afterOne, Step.stay, Option.some.injEq] at hvalue
          subst hvalue
          exact ⟨.inl ⟨[lexeme], rfl, .constant ⟨hconst, hsign⟩⟩, by simp⟩
      | false =>
          cases hident : lexeme.isIdentifier with
          | true => exact soundStep_name hparen ⟨hident, hconst, hsign⟩ depth deepest
          | false =>
              rw [primary_other hparen hconst hident]
              intro _ e hvalue _
              simp [Step.stay] at hvalue

theorem soundStep_unary {nested : List Tier → ExprParser} (hn : g.SoundNested n nested)
    (c : Cursor) : g.SoundStep n [] (g.unary nested c) := by
  obtain ⟨rest, depth, deepest⟩ := c
  rcases off_or_cons g.signs rest with hoff | ⟨operator, rest, rfl, ho⟩
  · rw [unary_off hoff]
    exact soundStep_primary hn hoff
  · rw [unary_sign ho]
    intro hsilent e hvalue hfree
    simp only [Step.afterOne, Step.mapNoting, List.append_eq_nil_iff] at hsilent hvalue
    obtain ⟨e', hoperand, happlied⟩ := applySign_silent hsilent.2
    rw [happlied] at hvalue
    obtain rfl := Option.some.inj hvalue
    obtain ⟨m, rfl, hsettled⟩ := hn [] (List.nil_subset _) _ hsilent.1 e' hoperand hfree
    refine ⟨?_, by simp⟩
    rcases hsettled.read with ⟨lexemes, heq, hd⟩ | hstuck
    · exact .inl ⟨operator :: lexemes, congrArg (operator :: ·) heq, .sign ho hd⟩
    · exact .inr hstuck

/-! ## Tiers -/

/-- Without a left operand the loop gives nothing, or notes something. -/
theorem foldLeft_none {operators : List Lexeme} {operand : ExprParser} {c : Cursor}
    (hsilent : (foldLeft operators operand none c).problems = []) :
    (foldLeft operators operand none c).value = none := by
  obtain ⟨rest, depth, deepest⟩ := c
  rcases off_or_cons operators rest with hoff | ⟨operator, rest, rfl, ho⟩
  · rw [foldLeft_off hoff]
    rfl
  · rw [foldLeft_cons ho] at hsilent
    simp only [Step.andThen, Step.afterOne, Step.mapNoting, List.append_eq_nil_iff] at hsilent
    obtain ⟨l, r, hleft, -, -⟩ := join_silent hsilent.1.2
    exact absurd hleft (by simp)

theorem foldRight_none {operators : List Lexeme} {operand : ExprParser} {c : Cursor}
    (hsilent : (foldRight operators operand none c).problems = []) :
    (foldRight operators operand none c).value = none := by
  obtain ⟨rest, depth, deepest⟩ := c
  rcases off_or_cons operators rest with hoff | ⟨operator, rest, rfl, ho⟩
  · rw [foldRight_off hoff]
    rfl
  · rw [foldRight_cons ho] at hsilent
    simp only [Step.afterOne, Step.mapNoting, List.append_eq_nil_iff] at hsilent
    obtain ⟨l, r, hleft, -, -⟩ := join_silent hsilent.2
    exact absurd hleft (by simp)

/-- An operator of the table between two operands that have been read: if the grammar has a rule
for it, the whole has been read by that rule. -/
theorem ReadAs.binary {m k : Nat} {tighter looser : List Tier} (ht : tier ∈ g.tiers)
    (ho : operator ∈ tier.operators)
    (hrule : ∀ before after, g.Derives n tiers before l → g.Derives m tighter after r →
      g.Derives k looser (before ++ operator :: after) e)
    (hleft : g.ReadAs n tiers rest (operator :: rest') l)
    (hright : g.ReadAs m tighter rest' rest'' r) : g.ReadAs k looser rest rest'' e := by
  rcases hleft with ⟨before, hbefore, hdl⟩ | hstuck
  · rcases hright with ⟨after, hafter, hdr⟩ | hstuck
    · refine .inl ⟨before ++ operator :: after, ?_, hrule before after hdl hdr⟩
      rw [hbefore, hafter, List.append_assoc, List.cons_append]
    · exact .inr hstuck
  -- the left operand has ended at an operator, so nothing is stuck there
  · exact absurd hstuck (not_stuck_of_operator ht ho)

/--
The loop of a tier, entered at `c` with the tree `l` of what was read since `start`. That `l` was
read there is only known if it holds no call, hence the shape of `hleft`.
-/
theorem foldLeft_settled {operand : ExprParser} (ht : tier ∈ g.tiers)
    (hl : tier.rightAssociative = false) (hoperand : ∀ c, g.SoundStep n tiers (operand c))
    (start : List Lexeme) (c : Cursor) (l : Expr)
    (hleft : l.CallFree → g.ReadAs n (tier :: tiers) start c.rest l ∧
      ∀ t ∈ tiers, Off c.rest t.operators)
    (hsilent : (foldLeft tier.operators operand (some l) c).problems = [])
    (hvalue : (foldLeft tier.operators operand (some l) c).value = some e) (hfree : e.CallFree) :
    g.Settled n (tier :: tiers) start
      (foldLeft tier.operators operand (some l) c).cursor.rest e := by
  -- each round reads an operator, so the lexemes that are left get fewer
  induction hlength : c.rest.length using Nat.strongRecOn generalizing c l with
  | ind k ih =>
    obtain ⟨rest, depth, deepest⟩ := c
    rcases off_or_cons tier.operators rest with hoff | ⟨operator, rest, rfl, ho⟩
    · rw [foldLeft_off hoff] at hvalue ⊢
      obtain rfl : l = e := Option.some.inj hvalue
      obtain ⟨hread, hoffs⟩ := hleft hfree
      exact ⟨hread, List.forall_mem_cons.mpr ⟨hoff, hoffs⟩⟩
    · have hright := hoperand ⟨rest, depth, deepest⟩
      rw [foldLeft_cons ho] at hsilent hvalue ⊢
      simp only [Step.andThen, Step.afterOne, Step.mapNoting, List.append_eq_nil_iff] at hsilent hvalue ⊢
      obtain ⟨⟨hquiet, hjoin⟩, hmore⟩ := hsilent
      obtain ⟨l', r, hl', hr, hjoined⟩ := join_silent hjoin
      obtain rfl := Option.some.inj hl'
      rw [hjoined] at hmore hvalue ⊢
      refine ih _ ?_ _ _ ?_ hmore hvalue rfl
      · have hshort : (operand ⟨rest, depth, deepest⟩).cursor.rest.length ≤ rest.length :=
          (operand ⟨rest, depth, deepest⟩).suffix.length_le
        simp only [List.length_cons] at hlength
        omega
      · intro hbinary
        have hsettled := hright hquiet r hr hbinary.2
        have hread := (hleft hbinary.1).1.binary ht ho (fun _ _ => .left hl ho) hsettled.read
        exact ⟨hread, hsettled.off⟩

/-- A tier that groups to the right reads at most one operator; what stands after its right operand
is no operator of the tier either, since the operand is of the same tier. -/
theorem foldRight_settled {nested : List Tier → ExprParser} (hn : g.SoundNested n nested)
    (hsub : tier :: tiers ⊆ g.tiers) (hr : tier.rightAssociative = true)
    (start : List Lexeme) (c : Cursor) (l : Expr)
    (hleft : l.CallFree → g.Settled n tiers start c.rest l)
    (hsilent : (foldRight tier.operators (nested (tier :: tiers)) (some l) c).problems = [])
    (hvalue : (foldRight tier.operators (nested (tier :: tiers)) (some l) c).value = some e)
    (hfree : e.CallFree) :
    g.Settled n (tier :: tiers) start
      (foldRight tier.operators (nested (tier :: tiers)) (some l) c).cursor.rest e := by
  obtain ⟨rest, depth, deepest⟩ := c
  rcases off_or_cons tier.operators rest with hoff | ⟨operator, rest, rfl, ho⟩
  · rw [foldRight_off hoff] at hvalue ⊢
    obtain rfl : l = e := Option.some.inj hvalue
    have hsettled := hleft hfree
    exact ⟨hsettled.read.tighter, List.forall_mem_cons.mpr ⟨hoff, hsettled.off⟩⟩
  · have hright := hn (tier :: tiers) hsub ⟨rest, depth, deepest⟩
    rw [foldRight_cons ho] at hsilent hvalue ⊢
    simp only [Step.afterOne, Step.mapNoting, List.append_eq_nil_iff] at hsilent hvalue ⊢
    obtain ⟨hquiet, hjoin⟩ := hsilent
    obtain ⟨l', r, hl', hr', hjoined⟩ := join_silent hjoin
    obtain rfl := Option.some.inj hl'
    rw [hjoined] at hvalue
    obtain rfl := Option.some.inj hvalue
    obtain ⟨m, rfl, hsettled⟩ := hright hquiet r hr' hfree.2
    have hread := (hleft hfree.1).read.binary (hsub (by simp)) ho (fun _ _ => .right hr ho)
      hsettled.read
    exact ⟨hread, hsettled.off⟩

/-- An expression of the tighter tiers and then the operators of a tier. -/
theorem SoundStep.andThen {c : Cursor} {s : Step (Option Expr) c}
    {next : Option Expr → ExprParser} (hs : g.SoundStep n tiers s)
    (hnone : ∀ c', (next none c').problems = [] → (next none c').value = none)
    (hsome : ∀ c' l, (l.CallFree → g.Settled n tiers c.rest c'.rest l) →
      (next (some l) c').problems = [] → ∀ e, (next (some l) c').value = some e → e.CallFree →
      g.Settled n (tier :: tiers) c.rest (next (some l) c').cursor.rest e) :
    g.SoundStep n (tier :: tiers) (s.andThen next) := by
  obtain ⟨value, c', problems, hsuffix⟩ := s
  intro hsilent e hvalue hfree
  simp only [Step.andThen, List.append_eq_nil_iff] at hsilent hvalue ⊢
  obtain ⟨hquiet, hmore⟩ := hsilent
  cases value with
  | none =>
      rw [hnone c' hmore] at hvalue
      exact absurd hvalue (by simp)
  | some l => exact hsome c' l (hs hquiet l rfl) hmore e hvalue hfree

/-- The tiers, from the tightest one up. -/
theorem soundStep_climb {nested : List Tier → ExprParser} (hn : g.SoundNested n nested)
    (tiers : List Tier) (hsub : tiers ⊆ g.tiers) (c : Cursor) :
    g.SoundStep n tiers (g.climb nested tiers c) := by
  induction tiers generalizing c with
  | nil => exact soundStep_unary hn c
  | cons tier tiers ih =>
      have htighter : ∀ c, g.SoundStep n tiers (g.climb nested tiers c) :=
        ih fun t ht => hsub (List.mem_cons_of_mem _ ht)
      cases ha : tier.rightAssociative with
      | false =>
          rw [climb_left ha]
          refine (htighter c).andThen (fun _ => foldLeft_none) ?_
          intro c' l hleft hsilent e hvalue hfree
          exact foldLeft_settled (hsub (by simp)) ha htighter c.rest c' l
            (fun hl => ⟨(hleft hl).read.tighter, (hleft hl).off⟩) hsilent hvalue hfree
      | true =>
          rw [climb_right ha]
          refine (htighter c).andThen (fun _ => foldRight_none) ?_
          intro c' l hleft hsilent e hvalue hfree
          exact foldRight_settled hn hsub ha c.rest c' l hleft hsilent hvalue hfree

/-! ## Nestings and whole parses -/

/-- Nested parts are read by the same parser; only a part that is passed over ends the descent. -/
theorem soundNested_nestedAt (limit room : Nat) : g.SoundNested room (g.nestedAt limit room) := by
  induction room with
  | zero =>
      intro tiers _ c hsilent e hvalue _
      obtain ⟨rest, depth, deepest⟩ := c
      cases rest with
      | nil => simp [nestedAt, skip, Step.stay] at hvalue
      | cons next rest => simp [nestedAt, skip] at hsilent
  | succ room ih =>
      intro tiers hsub c hsilent e hvalue hfree
      exact ⟨room, rfl, soundStep_climb ih tiers hsub c.enter hsilent e hvalue hfree⟩

/--
**Soundness of a silent parse.** Whatever the table and the lexemes, well formed or not: if a parse
gives a tree without calls and notes nothing, then all lexemes have been read and the grammar
derives them, with this tree and with at most `limit` nestings on a path. Whatever number is free,
the nodes that are made show that tree and take one number each.
-/
theorem derives_of_parse {lexemes : List Lexeme} (hexpr : (g.parse limit lexemes).expr = some e)
    (hsilent : (g.parse limit lexemes).problems = []) (hfree : e.CallFree) :
    (g.parse limit lexemes).cursor.rest = [] ∧ g.Derives limit g.tiers lexemes e ∧
      ∀ first, ∃ t, Expr.numbered (g.parse limit lexemes).expr first =
        (some t, first + e.size) ∧ e.Shows t := by
  by_cases hne : lexemes = []
  · subst hne
    simp [parse_nil] at hsilent
  · rw [parse_of_ne_nil hne] at hexpr hsilent ⊢
    simp only [List.append_eq_nil_iff] at hexpr hsilent ⊢
    obtain ⟨hquiet, htrailing⟩ := hsilent
    have hrest : (g.climb (g.nestedAt limit limit) g.tiers (.start lexemes)).cursor.rest = [] := by
      cases hleft : (g.climb (g.nestedAt limit limit) g.tiers (.start lexemes)).cursor.rest with
      | nil => rfl
      | cons next others => simp [hleft] at htrailing
    have hsettled := soundStep_climb (soundNested_nestedAt limit limit) g.tiers
      (List.Subset.refl _) (.start lexemes) hquiet e hexpr hfree
    refine ⟨hrest, ?_, Expr.numbered_shows hexpr⟩
    -- where nothing is left, the parse is not stuck
    rcases hsettled.read with ⟨read, heq, hd⟩ | ⟨next, others, hstuck, -⟩
    · rw [hrest, List.append_nil] at heq
      exact (show lexemes = read from heq) ▸ hd
    · rw [hrest] at hstuck
      exact absurd hstuck (List.cons_ne_nil _ _).symm

/-- `not ( a or 1 ) and b` in the dialect with word operators. -/
theorem derives_of_parse_words :
    (Dialect.pythonSpec.grammar.parse 62 ["not", "(", "a", "or", "1", ")", "and", "b"]).expr =
      some (.binary "and" (.unary "not" (.binary "or" (.identifier "a") (.constant "1")))
        (.identifier "b")) ∧
    (Dialect.pythonSpec.grammar.parse 62
      ["not", "(", "a", "or", "1", ")", "and", "b"]).problems = [] ∧
    (Dialect.pythonSpec.grammar.parse 62
      ["not", "(", "a", "or", "1", ")", "and", "b"]).cursor.rest = [] ∧
    Dialect.pythonSpec.grammar.Derives 62 Dialect.pythonSpec.grammar.tiers
      ["not", "(", "a", "or", "1", ")", "and", "b"]
      (.binary "and" (.unary "not" (.binary "or" (.identifier "a") (.constant "1")))
        (.identifier "b")) ∧
    ∀ first, ∃ t, Expr.numbered (Dialect.pythonSpec.grammar.parse 62
        ["not", "(", "a", "or", "1", ")", "and", "b"]).expr first = (some t, first + 6) ∧
      (Expr.binary "and" (.unary "not" (.binary "or" (.identifier "a") (.constant "1")))
        (.identifier "b")).Shows t := by
  have hexpr : (Dialect.pythonSpec.grammar.parse 62
      ["not", "(", "a", "or", "1", ")", "and", "b"]).expr =
      some (.binary "and" (.unary "not" (.binary "or" (.identifier "a") (.constant "1")))
        (.identifier "b")) := by decide +kernel
  have hsilent : (Dialect.pythonSpec.grammar.parse 62
      ["not", "(", "a", "or", "1", ")", "and", "b"]).problems = [] := by decide +kernel
  exact ⟨hexpr, hsilent, derives_of_parse hexpr hsilent ⟨⟨trivial, trivial⟩, trivial⟩⟩

end Grammar

end SnippetTree
