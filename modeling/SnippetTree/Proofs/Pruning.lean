import SnippetTree.Proofs.Defects
import SnippetTree.Proofs.NestingDepth

/-!
# What is left of an expression that nests too deeply

A part that nests too deeply is cut out of its expression, and an empty place is put where it stood.
The lexemes up to the end of the enclosing group are lost with it: an operand after the cut, or
further arguments of the call. So the shape of what remains depends on where the group ends, and
still nothing but the cuts is noted, since each part around a cut either goes on after its own
parenthesis or ends where the cut ends, before the parenthesis of the group around it.

`Pruned` says this of one expression. A loop over the operators of a tier is treated as in
`ParseComplete.lean`: whatever it would give if it were entered after an expression, with what is
left of it in hand, it gives from the beginning of the expression on (`FoldsAt`).
-/

namespace SnippetTree

namespace Grammar

variable {g : Grammar} {limit n m depth : Nat} {tier : Tier} {tiers : List Tier}
  {operator lexeme callee : Lexeme} {lexemes before after rest rest' inside : List Lexeme}
  {e l r : Expr}

/-! ## Pruned expressions -/

/-- What is noted about the parts that were cut out of an expression. -/
def cuts (limit : Nat) (e : Expr) : List Problem :=
  List.replicate e.gaps (.nestedTooDeep limit)

/--
What is known of the expression `e` that is read from lexemes that nest to `nesting` in all, with
`rest` after them, if `rest'` is left to be read. If nothing was cut out, that is `rest`. Otherwise
it may be what is left of `rest` from the parenthesis on that closes the enclosing group.
-/
structure Pruned (limit nesting : Nat) (e : Expr) (rest rest' : List Lexeme) : Prop where
  /-- No operator lost an operand. -/
  full : e.oneSided = []
  /-- A part was cut out if and only if the lexemes nest too deeply. -/
  cut : 0 < e.gaps ↔ limit < nesting
  place : rest' = rest ∨ (0 < e.gaps ∧ rest' = dropNested 0 rest)

open SnippetTree.Descent (Task Runs Result)

/-- Called where `depth` nestings are open, before lexemes that nest to `nesting` below that, the
parser gives a pruned expression and notes nothing but its cuts. -/
def Prunes (g : Grammar) (limit : Nat) (task : Task) (depth nesting : Nat)
    (lexemes rest : List Lexeme) : Prop :=
  ∃ e rest' visited, Pruned limit (depth + nesting) e rest rest' ∧
    Runs g limit task ⟨lexemes ++ rest, depth⟩ ⟨some e, cuts limit e, ⟨rest', depth⟩⟩ visited

/-- An expression over `tiers` is pruned wherever it may stand. -/
def PrunedAt (g : Grammar) (limit nesting : Nat) (tiers : List Tier) (lexemes : List Lexeme) :
    Prop :=
  ∀ depth ≤ limit, ∀ rest, Stops tiers rest →
    g.Prunes limit (.tiers tiers) depth nesting lexemes rest

/-- Reading the lexemes at a tier that groups to the left comes to the same as entering the loop of
the tier with a pruned expression. -/
def FoldsAt (g : Grammar) (limit nesting : Nat) (tier : Tier) (tiers : List Tier)
    (lexemes : List Lexeme) : Prop :=
  ∀ depth ≤ limit, ∀ rest, Stops tiers rest → ∃ e rest',
    Pruned limit (depth + nesting) e rest rest' ∧
    ∀ r onward, Runs g limit (.operators tier tiers (some e)) ⟨rest', depth⟩ r onward →
      ∃ visited, Runs g limit (.tiers (tier :: tiers)) ⟨lexemes ++ rest, depth⟩
        (r.after (cuts limit e)) visited

theorem cuts_binary (limit : Nat) (operator : Lexeme) (l r : Expr) :
    cuts limit (.binary operator l r) = cuts limit l ++ cuts limit r := by
  rw [cuts, cuts, cuts, List.replicate_append_replicate]
  rfl

theorem Pruned.binary (hl : Pruned limit n l rest rest') (hr : Pruned limit m r before after)
    (operator : Lexeme) : Pruned limit (max n m) (.binary operator l r) before after := by
  refine ⟨?_, ?_, ?_⟩
  · rw [Expr.oneSided, hl.full, hr.full, List.append_nil]
  · have hcutl := hl.cut
    have hcutr := hr.cut
    rw [Expr.gaps]
    omega
  · rw [Expr.gaps]
    exact hr.place.imp_right (And.imp_left fun hcut => Nat.add_pos_right _ hcut)

/-- What does not end before the operator after it ends where the enclosing group does, so the rest
of the operation is passed over. -/
theorem Pruned.cut_short (h : Pruned limit n l (operator :: (after ++ rest)) rest')
    (hbalanced : Balanced (operator :: after)) (hne : rest' ≠ operator :: (after ++ rest))
    (m : Nat) : Pruned limit (max n m) l rest rest' := by
  obtain ⟨hcut, hplace⟩ := h.place.resolve_left hne
  have hdeep := h.cut.mp hcut
  refine ⟨h.full, iff_of_true hcut (by omega), .inr ⟨hcut, ?_⟩⟩
  rw [hplace, ← List.cons_append, hbalanced.dropNested]

/-- Where a pruned expression ends, there is no operator of its tiers. -/
theorem Pruned.off (h : Pruned limit n e rest rest') (hc : Clear (tier :: tiers))
    (hstops : Stops (tier :: tiers) rest) : Off rest' tier.operators := by
  rcases h.place with rfl | ⟨-, rfl⟩
  · exact fun next hnext => (hstops next hnext).2 tier (List.mem_cons_self ..)
  · intro next hnext
    rw [head?_dropNested 0 rest next hnext]
    exact hc.no_mark tier (List.mem_cons_self ..) ")" closer_mem

/-- A part inside a nesting is pruned wherever it may stand. -/
def NestedPrunedAt (g : Grammar) (limit nesting : Nat) (tiers : List Tier)
    (lexemes : List Lexeme) : Prop :=
  ∀ depth ≤ limit, ∀ rest, Stops tiers rest →
    g.Prunes limit (.nested tiers) depth nesting lexemes rest

/-- A part inside a nesting is followed one nesting further in, or cut out if there is none left. -/
theorem PrunedAt.nested (h : g.PrunedAt limit n tiers lexemes) (hbalanced : Balanced lexemes)
    (hne : lexemes ≠ []) : g.NestedPrunedAt limit (n + 1) tiers lexemes := by
  intro depth hdepth rest hstops
  rcases Nat.lt_or_ge depth limit with hroom | hdeep
  · obtain ⟨e, rest', _, hpruned, hruns⟩ := h (depth + 1) hroom rest hstops
    rw [show depth + 1 + n = depth + (n + 1) by omega] at hpruned
    exact ⟨e, rest', _, hpruned, .nested hroom hruns rfl⟩
  · obtain ⟨first, others, rfl⟩ := List.exists_cons_of_ne_nil hne
    obtain ⟨_, hskip⟩ := Descent.runs_skip g limit 0 (first :: others ++ rest) depth
    refine ⟨.placeholder, _, _, ⟨rfl, ?_, ?_⟩, .tooDeep hdeep hskip⟩
    · exact iff_of_true Nat.one_pos (by omega)
    · exact .inr ⟨Nat.one_pos, hbalanced.dropNested 0 rest⟩

/-! ## Operators -/

theorem FoldsAt.prunedAt (hc : Clear (tier :: tiers)) (h : g.FoldsAt limit n tier tiers lexemes) :
    g.PrunedAt limit n (tier :: tiers) lexemes := by
  intro depth hdepth rest hstops
  obtain ⟨e, rest', hpruned, hloop⟩ := h depth hdepth rest hstops.tail
  -- the loop that is entered after the whole expression ends at once
  obtain ⟨visited, hruns⟩ := hloop _ _ (.noOperator (hpruned.off hc hstops))
  refine ⟨e, rest', visited, hpruned, ?_⟩
  simpa only [Result.after, List.append_nil] using hruns

theorem PrunedAt.foldsAt (h : g.PrunedAt limit n tiers lexemes) (tier : Tier) :
    g.FoldsAt limit n tier tiers lexemes := by
  intro depth hdepth rest hstops
  obtain ⟨e, rest', _, hpruned, hruns⟩ := h depth hdepth rest hstops
  exact ⟨e, rest', hpruned, fun _ _ hmore => ⟨_, .tier hruns hmore⟩⟩

theorem FoldsAt.left (hc : Clear (tier :: tiers)) (ha : tier.rightAssociative = false)
    (ho : operator ∈ tier.operators) (hbalanced : Balanced (operator :: after))
    (hbefore : g.FoldsAt limit n tier tiers before) (hafter : g.PrunedAt limit m tiers after) :
    g.FoldsAt limit (max n m) tier tiers (before ++ operator :: after) := by
  intro depth hdepth rest hstops
  rw [List.append_assoc, List.cons_append, ← Nat.add_max_add_left]
  obtain ⟨l, between, hl, hloop⟩ :=
    hbefore depth hdepth _ (hc.stops_operator ho (after ++ rest))
  by_cases hread : between = operator :: (after ++ rest)
  · -- nothing before the operator was cut short: one round of the loop
    subst hread
    obtain ⟨r, rest', _, hr, hright⟩ := hafter depth hdepth rest hstops
    refine ⟨.binary operator l r, rest', hl.binary hr operator, ?_⟩
    intro result onward hmore
    obtain ⟨visited, hruns⟩ := hloop _ _ (.joined ha ho hright rfl hmore)
    refine ⟨visited, ?_⟩
    simpa only [Result.after, Result.noting, join, cuts_binary, List.append_nil,
      List.append_assoc] using hruns
  · -- the operator and its right operand were passed over
    exact ⟨l, between, hl.cut_short hbalanced hread (depth + m), hloop⟩

theorem PrunedAt.right (hc : Clear (tier :: tiers)) (ha : tier.rightAssociative = true)
    (ho : operator ∈ tier.operators) (hbalanced : Balanced (operator :: after))
    (hbefore : g.PrunedAt limit n tiers before)
    (hafter : g.NestedPrunedAt limit m (tier :: tiers) after) :
    g.PrunedAt limit (max n m) (tier :: tiers) (before ++ operator :: after) := by
  intro depth hdepth rest hstops
  rw [Prunes, List.append_assoc, List.cons_append, ← Nat.add_max_add_left]
  obtain ⟨l, between, _, hl, hleft⟩ :=
    hbefore depth hdepth _ (hc.stops_operator ho (after ++ rest))
  by_cases hread : between = operator :: (after ++ rest)
  · subst hread
    obtain ⟨r, rest', _, hr, hright⟩ := hafter depth hdepth rest hstops
    have hruns := Runs.tier hleft (.joinedRight ha ho hright)
    simp only [Result.after, Result.noting, join, List.append_nil] at hruns
    rw [← cuts_binary limit operator l r] at hruns
    exact ⟨_, rest', _, hl.binary hr operator, hruns⟩
  · have hpruned := hl.cut_short hbalanced hread (depth + m)
    have hruns := Runs.tier hleft (.noOperator (hpruned.off hc hstops))
    simp only [Result.after, List.append_nil] at hruns
    exact ⟨l, between, _, hpruned, hruns⟩

/-! ## Prefix operators and primaries -/

theorem prunedAt_sign (ho : operator ∈ g.signs) (h : g.NestedPrunedAt limit n [] lexemes) :
    g.PrunedAt limit n [] (operator :: lexemes) := by
  intro depth hdepth rest hstops
  obtain ⟨e, rest', _, hpruned, hruns⟩ := h depth hdepth rest hstops
  have hsign := Runs.noTier (.sign ho hruns)
  simp only [Result.noting, applySign, List.append_nil] at hsign
  exact ⟨.unary operator e, rest', _, ⟨hpruned.full, hpruned.cut, hpruned.place⟩, hsign⟩

/-- Before the parenthesis that closes the enclosing group, a cut leaves that parenthesis. -/
theorem Pruned.closer (h : Pruned limit n e (")" :: rest) rest') : rest' = ")" :: rest := by
  rcases h.place with hplace | ⟨-, hplace⟩
  · exact hplace
  · exact hplace.trans (dropNested_zero_closer rest)

theorem prunedAt_group (hg : g.Readable) (h : g.NestedPrunedAt limit n g.tiers lexemes) :
    g.PrunedAt limit n [] ("(" :: (lexemes ++ [")"])) := by
  intro depth hdepth rest _
  rw [Prunes, List.cons_append, List.append_assoc, List.singleton_append]
  obtain ⟨e, rest', _, hpruned, hruns⟩ :=
    h depth hdepth _ (hg.clear.stops_mark closer_mem (by decide) rest)
  obtain rfl := hpruned.closer
  exact ⟨e, rest, _, ⟨hpruned.full, hpruned.cut, .inl rfl⟩,
    .noTier (.noSign (off_cons (hg.no_mark_sign "(" opener_mem) _) (.group hruns rfl))⟩

/-- What does not nest is not pruned. -/
theorem prunedAt_leaf (hfull : e.oneSided = []) (hgaps : e.gaps = 0)
    (hsign : ∀ rest, Off (lexemes ++ rest) g.signs)
    (hruns : ∀ depth rest, Stops [] rest → ∃ visited,
      Runs g limit .primary ⟨lexemes ++ rest, depth⟩ ⟨some e, [], ⟨rest, depth⟩⟩ visited) :
    g.PrunedAt limit 0 [] lexemes := by
  intro depth hdepth rest hstops
  obtain ⟨visited, hprimary⟩ := hruns depth rest hstops
  have hcuts : [] = cuts limit e := by rw [cuts, hgaps, List.replicate_zero]
  rw [hcuts] at hprimary
  have hcut : 0 < e.gaps ↔ limit < depth + 0 := iff_of_false (by omega) (by omega)
  exact ⟨e, rest, visited, ⟨hfull, hcut, .inl rfl⟩, .noTier (.noSign (hsign rest) hprimary)⟩

theorem prunedAt_constant (h : g.ConstantToken lexeme) : g.PrunedAt limit 0 [] [lexeme] :=
  prunedAt_leaf rfl rfl (fun rest => off_cons h.no_sign rest) fun _ _ _ =>
    ⟨_, .constant (isConstant_ne_mark h.constant opener_mem) h.constant⟩

theorem NameToken.ne_empty (h : g.NameToken lexeme) : lexeme ≠ "" := by
  rintro rfl
  exact absurd h.identifier (by decide)

theorem prunedAt_name (h : g.NameToken lexeme) : g.PrunedAt limit 0 [] [lexeme] := by
  refine prunedAt_leaf (Expr.oneSided_nameLeaf g lexeme) (Expr.gaps_nameLeaf h.ne_empty)
    (fun rest => off_cons h.no_sign rest) fun depth rest hstops => ?_
  -- a parenthesis right after the name would make a call of it
  have hrest : rest.head? ≠ some "(" := fun hparen => (hstops "(" hparen).1 rfl
  exact ⟨_, .name (isIdentifier_ne_mark h.identifier opener_mem) h.no_constant h.identifier hrest⟩

theorem prunedAt_emptyCall (h : g.NameToken callee) : g.PrunedAt limit 0 [] [callee, "(", ")"] :=
  prunedAt_leaf (e := .call callee []) rfl rfl (fun _ => off_cons h.no_sign _) fun _ _ _ =>
    ⟨_, .call (isIdentifier_ne_mark h.identifier opener_mem) h.no_constant h.identifier
      .argumentsClosed⟩

/-! ## Calls -/

/-- The loop over the arguments that are still to be read gives pruned ones, which nest to `nesting`
in all, notes nothing but their cuts, and ends behind the parenthesis that closes the call. -/
def PrunesArguments (g : Grammar) (limit nesting depth : Nat) (callee : Lexeme)
    (before : List Expr) (lexemes rest : List Lexeme) : Prop :=
  ∃ es visited, Expr.oneSidedAll es = [] ∧ (0 < Expr.gapsAll es ↔ limit < nesting) ∧
    Runs g limit (.arguments callee before) ⟨lexemes, depth⟩
      ⟨some (.call callee (before ++ es)),
        List.replicate (Expr.gapsAll es) (.nestedTooDeep limit), ⟨rest, depth⟩⟩ visited

/-- Arguments are pruned in whatever call they stand. -/
def ArgumentsPrunedAt (g : Grammar) (limit nesting : Nat) (inside : List Lexeme) : Prop :=
  ∀ depth ≤ limit, ∀ rest callee before,
    g.PrunesArguments limit (depth + nesting) depth callee before (inside ++ ")" :: rest) rest

theorem prunedAt_call (h : g.NameToken callee) (hs : g.ArgumentsPrunedAt limit n inside) :
    g.PrunedAt limit n [] (callee :: "(" :: (inside ++ [")"])) := by
  intro depth hdepth rest _
  rw [Prunes, List.cons_append, List.cons_append, List.append_assoc, List.singleton_append]
  obtain ⟨es, _, hfull, hcut, hruns⟩ := hs depth hdepth rest callee []
  exact ⟨.call callee es, rest, _, ⟨hfull, hcut, .inl rfl⟩,
    .noTier (.noSign (off_cons h.no_sign _) (.call (isIdentifier_ne_mark h.identifier opener_mem)
      h.no_constant h.identifier hruns))⟩

/-- After an argument that ends at the closing parenthesis there is no other one. -/
theorem prunesArguments_last {first : Lexeme} {others left : List Lexeme} {before : List Expr}
    {there : List Descent.Place} (hfirst : first ≠ ")")
    (hless : rest.length < (others ++ left).length) (hfull : e.oneSided = [])
    (hcut : 0 < e.gaps ↔ limit < n)
    (h : Runs g limit (.nested g.tiers) ⟨first :: others ++ left, depth⟩
      ⟨some e, cuts limit e, ⟨")" :: rest, depth⟩⟩ there) :
    g.PrunesArguments limit n depth callee before (first :: others ++ left) rest := by
  have hcomma : (")" :: rest).head? ≠ some "," := by simp
  have hread : (")" :: rest).length ≠ (others ++ left).length + 1 := by
    rw [List.length_cons]
    omega
  have hround : Runs g limit (.arguments callee before) _ _ _ :=
    .argumentThenStay hfirst h hcomma hread .argumentsClosed
  simp only [Result.after, List.append_nil] at hround
  refine ⟨[e], _, ?_, ?_, hround⟩
  · simpa [Expr.oneSidedAll] using hfull
  · simpa [Expr.gapsAll] using hcut

theorem argumentsPrunedAt_last {first : Lexeme} {others : List Lexeme} (hg : g.Readable)
    (hfirst : first ≠ ")") (h : g.NestedPrunedAt limit n g.tiers (first :: others)) :
    g.ArgumentsPrunedAt limit n (first :: others) := by
  intro depth hdepth rest callee before
  obtain ⟨e, rest', _, hpruned, hruns⟩ :=
    h depth hdepth _ (hg.clear.stops_mark closer_mem (by decide) rest)
  obtain rfl := hpruned.closer
  have hless : rest.length < (others ++ ")" :: rest).length := by
    rw [List.length_append, List.length_cons]
    omega
  exact prunesArguments_last hfirst hless hpruned.full hpruned.cut hruns

theorem argumentsPrunedAt_more {first : Lexeme} {others : List Lexeme} (hg : g.Readable)
    (hfirst : first ≠ ")") (hbalanced : Balanced inside)
    (h : g.NestedPrunedAt limit n g.tiers (first :: others))
    (hs : g.ArgumentsPrunedAt limit m inside) :
    g.ArgumentsPrunedAt limit (max n m) (first :: others ++ "," :: inside) := by
  intro depth hdepth rest callee before
  rw [List.append_assoc, List.cons_append, ← Nat.add_max_add_left]
  obtain ⟨e, rest', _, hpruned, hruns⟩ :=
    h depth hdepth _ (hg.clear.stops_mark comma_mem (by decide) (inside ++ ")" :: rest))
  rcases hpruned.place with rfl | ⟨hcut, hplace⟩
  · -- the argument ends at the comma, and the loop goes on
    obtain ⟨es, _, hfull, hcuts, hmore⟩ := hs depth hdepth rest callee (before ++ [e])
    have hround := Runs.argumentThenPass hfirst hruns rfl (.inl rfl) hmore
    simp only [Result.after, cuts, List.replicate_append_replicate, List.append_assoc,
      List.singleton_append] at hround
    refine ⟨e :: es, _, ?_, ?_, hround⟩
    · rw [Expr.oneSidedAll, hpruned.full, hfull, List.append_nil]
    · have hfirstCut := hpruned.cut
      rw [Expr.gapsAll]
      omega
  · -- the arguments after this one were passed over with what was cut out of it
    have hcloser : rest' = ")" :: rest := by
      have hcomma : Balanced ("," :: inside) := .append (.one ⟨by decide, by decide⟩) hbalanced
      rw [hplace, ← List.cons_append, hcomma.dropNested, dropNested_zero_closer]
    subst hcloser
    have hless : rest.length < (others ++ "," :: (inside ++ ")" :: rest)).length := by
      simp only [List.length_append, List.length_cons]
      omega
    have hdeep := hpruned.cut.mp hcut
    exact prunesArguments_last hfirst hless hpruned.full (iff_of_true hcut (by omega)) hruns

/-! ## Derivations -/

/-- What holds of every derivation: its lexemes are pruned where they stand, and at a tier that
groups to the left the loop may be entered after them. -/
structure Follows (g : Grammar) (limit n : Nat) (tiers : List Tier) (lexemes : List Lexeme) :
    Prop where
  pruned : g.PrunedAt limit n tiers lexemes
  folds : ∀ tier tighter, tiers = tier :: tighter → tier.rightAssociative = false →
    g.FoldsAt limit n tier tighter lexemes

theorem FoldsAt.follows (hc : Clear (tier :: tiers)) (h : g.FoldsAt limit n tier tiers lexemes) :
    g.Follows limit n (tier :: tiers) lexemes := by
  refine ⟨h.prunedAt hc, ?_⟩
  intro tier' tighter heq _
  obtain ⟨rfl, rfl⟩ := List.cons.inj heq
  exact h

theorem PrunedAt.follows_right (ha : tier.rightAssociative = true)
    (h : g.PrunedAt limit n (tier :: tiers) lexemes) :
    g.Follows limit n (tier :: tiers) lexemes := by
  refine ⟨h, ?_⟩
  intro tier' tighter heq hl
  obtain ⟨rfl, rfl⟩ := List.cons.inj heq
  rw [ha] at hl
  exact Bool.noConfusion hl

theorem PrunedAt.follows_nil (h : g.PrunedAt limit n [] lexemes) : g.Follows limit n [] lexemes :=
  ⟨h, fun _ _ heq => absurd heq (List.cons_ne_nil _ _).symm⟩

theorem Follows.nested (hg : g.Readable) (hc : Clear tiers) (h : g.NestsTo n tiers lexemes e)
    (hfollows : g.Follows limit n tiers lexemes) :
    g.NestedPrunedAt limit (n + 1) tiers lexemes := by
  obtain ⟨first, others, heq, -⟩ := h.head hg
  exact hfollows.pruned.nested (h.balanced hg hc) (heq ▸ List.cons_ne_nil first others)

mutual

/-- **Every derivation is followed as far as the limit allows, part by part.** -/
theorem NestsTo.follows (hg : g.Readable) (limit : Nat) : ∀ {n : Nat} {tiers : List Tier}
    {lexemes : List Lexeme} {e : Expr}, g.NestsTo n tiers lexemes e → Clear tiers →
    g.Follows limit n tiers lexemes
  | _, _, _, _, .tighter h, hc => ((h.follows hg limit hc.tail).pruned.foldsAt _).follows hc
  | _, _, _, _, .left ha ho hl hr, hc => by
      have hafter := hc.balanced_cons ho (hr.balanced hg hc.tail)
      exact (((hl.follows hg limit hc).folds _ _ rfl ha).left hc ha ho hafter
        (hr.follows hg limit hc.tail).pruned).follows hc
  | _, _, _, _, .right ha ho hl hr, hc => by
      have hafter := hc.balanced_cons ho (hr.balanced hg hc)
      exact ((hl.follows hg limit hc.tail).pruned.right hc ha ho hafter
        ((hr.follows hg limit hc).nested hg hc hr)).follows_right ha
  | _, _, _, _, .sign ho h, hc =>
      (prunedAt_sign ho ((h.follows hg limit hc).nested hg hc h)).follows_nil
  | _, _, _, _, .group h, _ =>
      (prunedAt_group hg ((h.follows hg limit hg.clear).nested hg hg.clear h)).follows_nil
  | _, _, _, _, .constant h, _ => (prunedAt_constant h).follows_nil
  | _, _, _, _, .name h, _ => (prunedAt_name h).follows_nil
  | _, _, _, _, .emptyCall h, _ => (prunedAt_emptyCall h).follows_nil
  | _, _, _, _, .call h hs, _ => (prunedAt_call h (hs.follows hg limit)).follows_nil

theorem ArgumentsNestTo.follows (hg : g.Readable) (limit : Nat) : ∀ {n : Nat}
    {inside : List Lexeme} {es : List Expr}, g.ArgumentsNestTo n inside es →
    g.ArgumentsPrunedAt limit (n + 1) inside
  | _, _, _, .last h => by
      have hnested := (h.follows hg limit hg.clear).nested hg hg.clear h
      obtain ⟨first, others, rfl, hfirst⟩ := h.head hg
      exact argumentsPrunedAt_last hg hfirst hnested
  | _, _, _, .more h hs => by
      have hnested := (h.follows hg limit hg.clear).nested hg hg.clear h
      have hmore := hs.follows hg limit
      obtain ⟨first, others, rfl, hfirst⟩ := h.head hg
      rw [← Nat.add_max_add_right]
      exact argumentsPrunedAt_more hg hfirst (hs.balanced hg) hnested hmore

end

/--
**Too deep, but well formed.** In a table whose operators are told apart, lexemes that the grammar
derives are all read, whatever the limit is. Nothing is noted but parts that nest too deeply, as
many as there are empty places in the tree, and there is one if and only if a path of the derivation
holds more nestings than the limit. Operators keep all of their operands.
-/
theorem parse_of_nestsTo (hg : g.Readable) (h : g.NestsTo n g.tiers lexemes e) (limit : Nat) :
    (g.parse limit lexemes).cursor.rest = [] ∧
    (∀ problem ∈ (g.parse limit lexemes).problems, problem.code = "P108") ∧
    (∃ e', (g.parse limit lexemes).expr = some e' ∧
      ∀ first, (e'.toTree.run first).1.IsFull ∧
        (e'.toTree.run first).1.gaps = (g.parse limit lexemes).problems.length) ∧
    ((∃ problem ∈ (g.parse limit lexemes).problems, problem.code = "P108") ↔ limit < n) := by
  obtain ⟨first, others, heq, -⟩ := h.head hg
  have hne : lexemes ≠ [] := heq ▸ List.cons_ne_nil first others
  obtain ⟨e', rest', visited, hpruned, hruns⟩ :=
    (h.follows hg limit hg.clear).pruned 0 (Nat.zero_le limit) [] (stops_nil g.tiers)
  obtain rfl : rest' = [] := hpruned.place.elim id fun hplace => hplace.2
  rw [List.append_nil] at hruns
  have hwhole := (Runs.whole (s := ⟨lexemes, 0⟩) hne hruns).eq_parse
  obtain ⟨hexpr, hproblems, hrest, -⟩ := Parse.fields_of_result hwhole.symm
  have hcuts : (g.parse limit lexemes).problems = cuts limit e' :=
    hproblems.trans (List.append_nil _)
  have hcode : ∀ problem ∈ cuts limit e', problem.code = "P108" := by
    intro problem hmem
    rw [List.eq_of_mem_replicate hmem]
    rfl
  have hdeep : 0 < e'.gaps ↔ limit < n := by simpa only [Nat.zero_add] using hpruned.cut
  rw [hcuts]
  refine ⟨hrest, hcode, ⟨e', hexpr, ?_⟩, ?_⟩
  · intro first
    obtain ⟨hgaps, honeSided⟩ := e'.always_defects first
    refine ⟨(e'.always_parsed first).isFull (honeSided.trans hpruned.full), ?_⟩
    rw [hgaps, cuts, List.length_replicate]
  · rw [← hdeep]
    constructor
    · rintro ⟨problem, hmem, -⟩
      exact Nat.pos_of_ne_zero (List.mem_replicate.mp hmem).1
    · intro hpos
      have hmem : Problem.nestedTooDeep limit ∈ cuts limit e' :=
        List.mem_replicate.mpr ⟨Nat.ne_of_gt hpos, rfl⟩
      exact ⟨_, hmem, hcode _ hmem⟩

/-- In `f ( - ( a ) , b ) * c` three nestings are open around `a`. With a limit of one, the group
and the argument after it are passed over, and the call and the product remain. -/
theorem parse_of_nestsTo_product :
    arithmetic.Readable ∧
    arithmetic.NestsTo 3 arithmetic.tiers
      ["f", "(", "-", "(", "a", ")", ",", "b", ")", "*", "c"]
      (.binary "*" (.call "f" [.unary "-" (.identifier "a"), .identifier "b"])
        (.identifier "c")) ∧
    (arithmetic.parse 1
      ["f", "(", "-", "(", "a", ")", ",", "b", ")", "*", "c"]).cursor.rest = [] ∧
    (∀ problem ∈ (arithmetic.parse 1
      ["f", "(", "-", "(", "a", ")", ",", "b", ")", "*", "c"]).problems, problem.code = "P108") ∧
    (∃ e', (arithmetic.parse 1
        ["f", "(", "-", "(", "a", ")", ",", "b", ")", "*", "c"]).expr = some e' ∧
      ∀ first, (e'.toTree.run first).1.IsFull ∧
        (e'.toTree.run first).1.gaps = (arithmetic.parse 1
          ["f", "(", "-", "(", "a", ")", ",", "b", ")", "*", "c"]).problems.length) ∧
    ((∃ problem ∈ (arithmetic.parse 1
        ["f", "(", "-", "(", "a", ")", ",", "b", ")", "*", "c"]).problems,
      problem.code = "P108") ↔ 1 < 3) := by
  have hname : ∀ name ∈ ["a", "b", "c", "f"], arithmetic.NameToken name := by
    intro name hmem
    simp only [List.mem_cons, List.not_mem_nil, or_false] at hmem
    rcases hmem with rfl | rfl | rfl | rfl <;> exact ⟨by decide, by decide, by decide⟩
  have hleaf : ∀ name ∈ ["a", "b", "c", "f"],
      arithmetic.NestsTo 0 [] [name] (arithmetic.nameLeaf name) :=
    fun name hmem => .name (hname name hmem)
  have hwhole : ∀ {n : Nat} {lexemes : List Lexeme} {e : Expr},
      arithmetic.NestsTo n [] lexemes e → arithmetic.NestsTo n arithmetic.tiers lexemes e :=
    fun h => .tighter (.tighter (.tighter h))
  have hgroup : arithmetic.NestsTo 2 [] ["-", "(", "a", ")"] (.unary "-" (.identifier "a")) :=
    .sign (by decide) (.group (hwhole (hleaf "a" (by decide))))
  have hcall : arithmetic.NestsTo 3 [] ["f", "(", "-", "(", "a", ")", ",", "b", ")"]
      (.call "f" [.unary "-" (.identifier "a"), .identifier "b"]) :=
    .call (hname "f" (by decide)) (.more (hwhole hgroup) (.last (hwhole (hleaf "b" (by decide)))))
  have h : arithmetic.NestsTo 3 arithmetic.tiers
      ["f", "(", "-", "(", "a", ")", ",", "b", ")", "*", "c"]
      (.binary "*" (.call "f" [.unary "-" (.identifier "a"), .identifier "b"])
        (.identifier "c")) :=
    .tighter (.left rfl (by decide) (.tighter (.tighter hcall))
      (.tighter (hleaf "c" (by decide))))
  exact ⟨arithmetic_readable, h, parse_of_nestsTo arithmetic_readable h 1⟩

end Grammar

end SnippetTree
