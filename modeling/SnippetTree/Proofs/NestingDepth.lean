import SnippetTree.Proofs.Parentheses

/-!
# How deeply a derivation nests

`Derives n` bounds the nestings on a path of a derivation by `n`. Here the largest number of them is
given exactly, by the same rules (`derives_iff`).

Where a parser does not follow a nesting it passes over lexemes, up to the parenthesis that closes
the enclosing group. Lexemes that are derived are balanced, so all that is left of them is passed
over, together with whatever follows them within the group (`Balanced.dropNested`).
-/

namespace SnippetTree

namespace Grammar

variable {g : Grammar} {n k : Nat} {tier : Tier} {tiers : List Tier} {operator lexeme : Lexeme}
  {lexemes after : List Lexeme} {e : Expr}

/-! ## How deeply a derivation nests -/

mutual

/--
`g.NestsTo n tiers lexemes e`: the lexemes are an expression over `tiers` whose tree is `e`, and `n`
is the largest number of groups, arguments, operands of prefix operators and right operands of
operators that group to the right on a path of the derivation.
-/
inductive NestsTo (g : Grammar) : Nat → List Tier → List Lexeme → Expr → Prop where
  | tighter {n : Nat} {tier : Tier} {tiers : List Tier} {lexemes : List Lexeme} {e : Expr} :
      NestsTo g n tiers lexemes e → NestsTo g n (tier :: tiers) lexemes e
  | left {n m : Nat} {tier : Tier} {tiers : List Tier} {operator : Lexeme}
      {before after : List Lexeme} {l r : Expr} :
      tier.rightAssociative = false → operator ∈ tier.operators →
      NestsTo g n (tier :: tiers) before l → NestsTo g m tiers after r →
      NestsTo g (max n m) (tier :: tiers) (before ++ operator :: after) (.binary operator l r)
  | right {n m : Nat} {tier : Tier} {tiers : List Tier} {operator : Lexeme}
      {before after : List Lexeme} {l r : Expr} :
      tier.rightAssociative = true → operator ∈ tier.operators →
      NestsTo g n tiers before l → NestsTo g m (tier :: tiers) after r →
      NestsTo g (max n (m + 1)) (tier :: tiers) (before ++ operator :: after)
        (.binary operator l r)
  | sign {n : Nat} {operator : Lexeme} {lexemes : List Lexeme} {e : Expr} :
      operator ∈ g.signs → NestsTo g n [] lexemes e →
      NestsTo g (n + 1) [] (operator :: lexemes) (.unary operator e)
  | group {n : Nat} {lexemes : List Lexeme} {e : Expr} :
      NestsTo g n g.tiers lexemes e → NestsTo g (n + 1) [] ("(" :: (lexemes ++ [")"])) e
  | constant {lexeme : Lexeme} :
      g.ConstantToken lexeme → NestsTo g 0 [] [lexeme] (.constant lexeme)
  | name {lexeme : Lexeme} :
      g.NameToken lexeme → NestsTo g 0 [] [lexeme] (g.nameLeaf lexeme)
  | emptyCall {callee : Lexeme} :
      g.NameToken callee → NestsTo g 0 [] [callee, "(", ")"] (.call callee [])
  | call {n : Nat} {callee : Lexeme} {inside : List Lexeme} {es : List Expr} :
      g.NameToken callee → ArgumentsNestTo g n inside es →
      NestsTo g (n + 1) [] (callee :: "(" :: (inside ++ [")"])) (.call callee es)

/-- The lexemes are expressions with commas between them, and `n` is the largest number to which
one of these nests. -/
inductive ArgumentsNestTo (g : Grammar) : Nat → List Lexeme → List Expr → Prop where
  | last {n : Nat} {lexemes : List Lexeme} {e : Expr} :
      NestsTo g n g.tiers lexemes e → ArgumentsNestTo g n lexemes [e]
  | more {n m : Nat} {lexemes inside : List Lexeme} {e : Expr} {es : List Expr} :
      NestsTo g n g.tiers lexemes e → ArgumentsNestTo g m inside es →
      ArgumentsNestTo g (max n m) (lexemes ++ "," :: inside) (e :: es)

end

mutual

/-- What nests to `n` is derived with every bound from `n` on. -/
theorem NestsTo.derives : ∀ {n k : Nat} {tiers : List Tier} {lexemes : List Lexeme} {e : Expr},
    g.NestsTo n tiers lexemes e → n ≤ k → g.Derives k tiers lexemes e
  | _, _, _, _, _, .tighter h, hk => .tighter (h.derives hk)
  | _, _, _, _, _, .left ha ho hl hr, hk =>
      .left ha ho (hl.derives (by omega)) (hr.derives (by omega))
  | _, 0, _, _, _, .right _ _ _ _, hk => absurd hk (by omega)
  | _, _ + 1, _, _, _, .right ha ho hl hr, hk =>
      .right ha ho (hl.derives (by omega)) (hr.derives (by omega))
  | _, _ + 1, _, _, _, .sign ho h, hk => .sign ho (h.derives (Nat.le_of_succ_le_succ hk))
  | _, _ + 1, _, _, _, .group h, hk => .group (h.derives (Nat.le_of_succ_le_succ hk))
  | _, _, _, _, _, .constant h, _ => .constant h
  | _, _, _, _, _, .name h, _ => .name h
  | _, _, _, _, _, .emptyCall h, _ => .emptyCall h
  | _, _ + 1, _, _, _, .call h hs, hk => by
      obtain ⟨list, hne, rfl, rfl, hlist⟩ := hs.derives (Nat.le_of_succ_le_succ hk)
      exact .call h hne hlist

theorem ArgumentsNestTo.derives : ∀ {n k : Nat} {inside : List Lexeme} {es : List Expr},
    g.ArgumentsNestTo n inside es → n ≤ k → ∃ list : List (List Lexeme × Expr), list ≠ [] ∧
      [","].intercalate (list.map (·.1)) = inside ∧ list.map (·.2) = es ∧
      ∀ argument ∈ list, g.Derives k g.tiers argument.1 argument.2
  | _, _, lexemes, _, @ArgumentsNestTo.last _ _ _ e h, hk =>
      ⟨[(lexemes, e)], List.cons_ne_nil _ _, List.intercalate_singleton, rfl,
        List.forall_mem_singleton.mpr (h.derives hk)⟩
  | _, _, _, _, @ArgumentsNestTo.more _ _ _ lexemes _ e _ h hs, hk => by
      obtain ⟨list, hne, rfl, rfl, hlist⟩ := hs.derives (Nat.le_trans (Nat.le_max_right _ _) hk)
      refine ⟨(lexemes, e) :: list, List.cons_ne_nil _ _, ?_, rfl,
        List.forall_mem_cons.mpr ⟨h.derives (Nat.le_trans (Nat.le_max_left _ _) hk), hlist⟩⟩
      obtain ⟨next, others, rfl⟩ := List.exists_cons_of_ne_nil hne
      rw [List.map_cons, List.map_cons, List.intercalate_cons_cons]
      simp

end

/-- Arguments nest to something within the bound of each of them. -/
theorem exists_argumentsNestTo {list : List (List Lexeme × Expr)} (hne : list ≠ [])
    (h : ∀ argument ∈ list, ∃ n ≤ k, g.NestsTo n g.tiers argument.1 argument.2) :
    ∃ n ≤ k, g.ArgumentsNestTo n ([","].intercalate (list.map (·.1))) (list.map (·.2)) := by
  induction list with
  | nil => exact absurd rfl hne
  | cons argument list ih =>
      obtain ⟨⟨n, hn, hfirst⟩, hothers⟩ := List.forall_mem_cons.mp h
      cases list with
      | nil =>
          refine ⟨n, hn, ?_⟩
          simpa using ArgumentsNestTo.last hfirst
      | cons next list =>
          obtain ⟨m, hm, hmore⟩ := ih (List.cons_ne_nil _ _) hothers
          refine ⟨max n m, Nat.max_le.mpr ⟨hn, hm⟩, ?_⟩
          simpa [List.intercalate_cons_cons] using ArgumentsNestTo.more hfirst hmore

/-- What is derived with a bound nests to something within the bound. -/
theorem Derives.exists_nestsTo (h : g.Derives k tiers lexemes e) :
    ∃ n ≤ k, g.NestsTo n tiers lexemes e := by
  induction h with
  | tighter _ ih =>
      obtain ⟨n, hn, h⟩ := ih
      exact ⟨n, hn, .tighter h⟩
  | left ha ho _ _ ihl ihr =>
      obtain ⟨n, hn, hl⟩ := ihl
      obtain ⟨m, hm, hr⟩ := ihr
      exact ⟨max n m, Nat.max_le.mpr ⟨hn, hm⟩, .left ha ho hl hr⟩
  | right ha ho _ _ ihl ihr =>
      obtain ⟨n, hn, hl⟩ := ihl
      obtain ⟨m, hm, hr⟩ := ihr
      exact ⟨max n (m + 1), Nat.max_le.mpr ⟨hn, Nat.succ_le_succ hm⟩, .right ha ho hl hr⟩
  | sign ho _ ih =>
      obtain ⟨n, hn, h⟩ := ih
      exact ⟨n + 1, Nat.succ_le_succ hn, .sign ho h⟩
  | group _ ih =>
      obtain ⟨n, hn, h⟩ := ih
      exact ⟨n + 1, Nat.succ_le_succ hn, .group h⟩
  | constant h => exact ⟨0, Nat.zero_le _, .constant h⟩
  | name h => exact ⟨0, Nat.zero_le _, .name h⟩
  | emptyCall h => exact ⟨0, Nat.zero_le _, .emptyCall h⟩
  | call h hne _ ih =>
      obtain ⟨n, hn, hs⟩ := exists_argumentsNestTo hne ih
      exact ⟨n + 1, Nat.succ_le_succ hn, .call h hs⟩

/-- **A derivation within a bound is one that nests to something within the bound.** -/
theorem derives_iff : g.Derives k tiers lexemes e ↔ ∃ n ≤ k, g.NestsTo n tiers lexemes e := by
  refine ⟨Derives.exists_nestsTo, ?_⟩
  rintro ⟨n, hn, h⟩
  exact h.derives hn

/-! ## Where the part that is passed over ends -/

theorem dropNested_other (h : lexeme ≠ "(" ∧ lexeme ≠ ")") (n : Nat) (rest : List Lexeme) :
    dropNested n (lexeme :: rest) = dropNested n rest := by
  simp [dropNested, h.1, h.2]

theorem dropNested_opener (n : Nat) (rest : List Lexeme) :
    dropNested n ("(" :: rest) = dropNested (n + 1) rest := by
  simp [dropNested]

theorem dropNested_closer (n : Nat) (rest : List Lexeme) :
    dropNested (n + 1) (")" :: rest) = dropNested n rest := by
  simp [dropNested]

/-- The parenthesis that closes the enclosing group is where passing over ends. -/
theorem dropNested_zero_closer (rest : List Lexeme) :
    dropNested 0 (")" :: rest) = ")" :: rest := by
  simp [dropNested]

/-- Balanced lexemes are passed over as a whole. -/
theorem Balanced.dropNested (h : Balanced lexemes) (n : Nat) (rest : List Lexeme) :
    dropNested n (lexemes ++ rest) = Grammar.dropNested n rest := by
  induction h generalizing n rest with
  | nil => rfl
  | one hw => exact dropNested_other hw n rest
  | append _ _ ihx ihy => rw [List.append_assoc, ihx, ihy]
  | group _ ih =>
      rw [List.cons_append, List.append_assoc, dropNested_opener, ih]
      exact dropNested_closer n rest

/-- Passing over ends at a closing parenthesis or at the end. -/
theorem head?_dropNested (n : Nat) (lexemes : List Lexeme) :
    ∀ next ∈ (dropNested n lexemes).head?, next = ")" := by
  induction lexemes generalizing n with
  | nil => exact fun _ hnext => by simp [dropNested] at hnext
  | cons lexeme rest ih =>
      unfold dropNested
      split
      · rename_i hcloser
        split
        · intro next hnext
          exact hcloser ▸ (Option.some.inj hnext).symm
        · exact ih _
      · split
        · exact ih _
        · exact ih _

/-- In a table that can be read back, derived lexemes are balanced. -/
theorem Derives.balanced (hg : g.Readable) (hc : Clear tiers) (h : g.Derives n tiers lexemes e) :
    Balanced lexemes := by
  have hoperators : ∀ {tiers : List Tier}, Clear tiers →
      ∀ tier ∈ tiers, ∀ w ∈ tier.operators, w ≠ "(" ∧ w ≠ ")" :=
    fun hc tier ht w hw => ne_parenthesis fun hmark => hc.no_mark tier ht w hmark hw
  refine h.nested ⟨by decide, by decide⟩ ?_ (hoperators hg.clear) (hoperators hc) ?_
  · exact fun w hw => ne_parenthesis fun hmark => hg.no_mark_sign w hmark hw
  · rintro w _ (hconst | hident)
    · exact ne_parenthesis fun hmark => isConstant_ne_mark hconst hmark rfl
    · exact ne_parenthesis fun hmark => isIdentifier_ne_mark hident hmark rfl

theorem NestsTo.balanced (hg : g.Readable) (hc : Clear tiers) (h : g.NestsTo n tiers lexemes e) :
    Balanced lexemes :=
  (h.derives (Nat.le_refl n)).balanced hg hc

theorem NestsTo.head (hg : g.Readable) (h : g.NestsTo n tiers lexemes e) :
    ∃ first rest, lexemes = first :: rest ∧ first ≠ ")" :=
  (h.derives (Nat.le_refl n)).head hg

theorem ArgumentsNestTo.balanced (hg : g.Readable) : ∀ {n : Nat} {inside : List Lexeme}
    {es : List Expr}, g.ArgumentsNestTo n inside es → Balanced inside
  | _, _, _, .last h => h.balanced hg hg.clear
  | _, _, _, .more h hs =>
      (h.balanced hg hg.clear).append
        (.append (.one ⟨by decide, by decide⟩) (hs.balanced hg))

/-- The operator and what follows it are passed over together. -/
theorem Clear.balanced_cons (hc : Clear (tier :: tiers)) (ho : operator ∈ tier.operators)
    (h : Balanced after) : Balanced (operator :: after) :=
  .append (.one (ne_parenthesis fun hmark => hc.no_mark tier (List.mem_cons_self ..) _ hmark ho)) h

end Grammar

end SnippetTree
