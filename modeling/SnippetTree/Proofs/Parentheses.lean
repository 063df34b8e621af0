import SnippetTree.Proofs.Marks
import SnippetTree.Proofs.Spelling

/-!
# Parentheses of a parse in silence

Silence says that no parenthesis is closed that was not opened. It does not say that all of them
are closed: a group that stands among the arguments of a call may be left open, and as many closing
parentheses are missing in the end as groups have been left open (`balanced_iff_of_silent`). The
tables of all dialects are of the kind for which this is proved (`Dialect.readable_grammar`).
-/

namespace SnippetTree

namespace Grammar

variable {g : Grammar} {stuck : Bool} {mark : Mark} {marks : List Mark} {value : Option Expr}
  {lexeme : Lexeme} {lexemes rest : List Lexeme} {limit n : Nat}

/-! ## Balanced parentheses -/

/-- Every opening parenthesis has its own closing one after it, and no other is closed. -/
def Balanced (lexemes : List Lexeme) : Prop :=
  Nested (fun lexeme => lexeme ≠ "(" ∧ lexeme ≠ ")") lexemes

/-- How many groups are open after the lexemes, if `n` are before them. If there is one closing
parenthesis too many, there is no answer. -/
def openGroups : Nat → List Lexeme → Option Nat
  | n, [] => some n
  | n, lexeme :: rest =>
      if lexeme = "(" then openGroups (n + 1) rest
      else if lexeme = ")" then
        match n with
        | 0 => none
        | n + 1 => openGroups n rest
      else openGroups n rest

@[simp] theorem openGroups_opener : openGroups n ("(" :: rest) = openGroups (n + 1) rest := rfl

@[simp] theorem openGroups_closer : openGroups (n + 1) (")" :: rest) = openGroups n rest := rfl

theorem openGroups_other (h : lexeme ≠ "(" ∧ lexeme ≠ ")") :
    openGroups n (lexeme :: rest) = openGroups n rest := by
  simp [openGroups, h.1, h.2]

/-- Balanced lexemes leave open what was open before them. -/
theorem Balanced.openGroups (h : Balanced lexemes) (n : Nat) (rest : List Lexeme) :
    openGroups n (lexemes ++ rest) = openGroups n rest := by
  induction h generalizing n rest with
  | nil => rfl
  | one hw => exact openGroups_other hw
  | append _ _ ihx ihy => rw [List.append_assoc, ihx, ihy]
  | group _ ih =>
      rw [List.cons_append, List.append_assoc, openGroups_opener, ih]
      rfl

/-- If no group is open in the end, the lexemes are balanced, up to the end or to the parenthesis
that closes the innermost of the groups that are open before them. -/
theorem exists_balanced_of_openGroups (h : openGroups n lexemes = some 0) :
    ∃ first, Balanced first ∧ ((n = 0 ∧ lexemes = first) ∨
      ∃ m others, n = m + 1 ∧ lexemes = first ++ ")" :: others ∧ openGroups m others = some 0) := by
  -- what follows a group that is opened and closed is shorter, but it is no tail
  induction hlength : lexemes.length using Nat.strongRecOn generalizing n lexemes with
  | ind k ih =>
    subst hlength
    cases lexemes with
    | nil => exact ⟨[], .nil, .inl ⟨Option.some.inj h, rfl⟩⟩
    | cons lexeme rest =>
      by_cases hopener : lexeme = "("
      · subst hopener
        obtain ⟨inside, hinside, ⟨hzero, -⟩ | ⟨m, others, hm, rfl, hothers⟩⟩ :=
          ih rest.length (Nat.lt_succ_self _) (n := n + 1) h rfl
        · exact absurd hzero (Nat.succ_ne_zero n)
        obtain rfl := Nat.succ.inj hm
        have hless : others.length < ("(" :: (inside ++ ")" :: others)).length := by
          simp only [List.length_cons, List.length_append]
          omega
        obtain ⟨first, hfirst, hend⟩ := ih _ hless hothers rfl
        refine ⟨"(" :: (inside ++ [")"]) ++ first, .append (.group hinside) hfirst, ?_⟩
        simpa using hend
      · by_cases hcloser : lexeme = ")"
        · subst hcloser
          cases n with
          | zero => exact absurd h nofun
          | succ n => exact ⟨[], .nil, .inr ⟨n, rest, rfl, rfl, h⟩⟩
        · rw [openGroups_other ⟨hopener, hcloser⟩] at h
          obtain ⟨first, hfirst, hend⟩ := ih rest.length (Nat.lt_succ_self _) h rfl
          refine ⟨lexeme :: first, .append (.one ⟨hopener, hcloser⟩) hfirst, ?_⟩
          simpa using hend

/-- **Parentheses are balanced if a count of the open ones never fails and ends with none.** -/
theorem balanced_iff_openGroups : Balanced lexemes ↔ openGroups 0 lexemes = some 0 := by
  constructor
  · intro h
    simpa [Grammar.openGroups] using h.openGroups 0 []
  · intro h
    obtain ⟨first, hfirst, ⟨-, rfl⟩ | ⟨m, others, hm, -⟩⟩ := exists_balanced_of_openGroups h
    · exact hfirst
    · exact absurd hm (Nat.succ_ne_zero m).symm

instance (lexemes : List Lexeme) : Decidable (Balanced lexemes) :=
  decidable_of_iff _ balanced_iff_openGroups.symm

/-! ## Parentheses of a parse in silence -/

/-- After the marked lexemes the groups are open that were open before, and those that are marked as
left open. -/
def LeavesOpen (marks : List Mark) : Prop :=
  ∀ n rest, openGroups n (marks.map Mark.lexeme ++ rest) =
    openGroups (n + marks.count .leftOpen) rest

theorem leavesOpen_nil : LeavesOpen [] := fun _ _ => rfl

theorem LeavesOpen.append {before after : List Mark} (hb : LeavesOpen before)
    (ha : LeavesOpen after) : LeavesOpen (before ++ after) := by
  intro n rest
  rw [List.map_append, List.append_assoc, hb, ha, List.count_append, Nat.add_assoc]

/-- A lexeme that is no parenthesis. -/
theorem leavesOpen_other (h : mark.lexeme ≠ "(" ∧ mark.lexeme ≠ ")") : LeavesOpen [mark] := by
  intro n rest
  have hmark : mark ≠ .leftOpen := by
    rintro rfl
    exact h.1 rfl
  rw [List.count_singleton, if_neg (by simpa using hmark)]
  exact openGroups_other h

theorem ne_parenthesis (h : lexeme ∉ punctuation) : lexeme ≠ "(" ∧ lexeme ≠ ")" := by
  constructor
  · rintro rfl
    exact h opener_mem
  · rintro rfl
    exact h closer_mem

theorem leavesOpen_word (h : g.Fits (.word lexeme)) : LeavesOpen [.word lexeme] :=
  leavesOpen_other (ne_parenthesis h.no_mark)

theorem leavesOpen_passed (h : g.Idle lexeme) : LeavesOpen [.passed lexeme] :=
  leavesOpen_other (ne_parenthesis h.no_mark)

theorem leavesOpen_comma : LeavesOpen [.comma] :=
  leavesOpen_other (by decide)

theorem LeavesOpen.group (h : LeavesOpen marks) : LeavesOpen (.opener :: (marks ++ [.closer])) := by
  intro n rest
  have hclosed : n + 1 + marks.count .leftOpen = n + marks.count .leftOpen + 1 := by omega
  simp [Mark.lexeme, h (n + 1), hclosed]

theorem LeavesOpen.leftOpen (h : LeavesOpen marks) : LeavesOpen (.leftOpen :: marks) := by
  intro n rest
  have hopen : n + 1 + marks.count .leftOpen = n + (marks.count .leftOpen + 1) := by omega
  simp [Mark.lexeme, h (n + 1), hopen]

theorem leavesOpen_flatMap {items : List Item} (h : ∀ item ∈ items, LeavesOpen item.marks) :
    LeavesOpen (items.flatMap Item.marks) := by
  induction items with
  | nil => exact leavesOpen_nil
  | cons item items ih =>
      obtain ⟨hitem, hitems⟩ := List.forall_mem_cons.mp h
      exact hitem.append (ih hitems)

/-- **Marked lexemes close nothing that was not opened, and leave open what is marked so.** -/
theorem Marked.leavesOpen (hg : g.Readable) (h : g.Marked stuck marks value) :
    LeavesOpen marks := by
  induction h with
  | nothing => exact leavesOpen_nil
  | constant hc => exact leavesOpen_word hc.fits
  | name hn => exact leavesOpen_word hn.fits
  | sign ho _ ih => exact (leavesOpen_word (hg.fits_sign ho)).append ih
  | binary ht ho _ _ ihl ihr =>
      exact ihl.append ((leavesOpen_word (hg.fits_operator ht ho)).append ihr)
  | group _ ih => exact ih.group
  | leftOpen _ ih => exact ih.leftOpen
  | call hn _ hpassed ih =>
      have hitems := forall_item_marks ih leavesOpen_comma
        fun lexeme hmem => leavesOpen_passed (hpassed lexeme hmem)
      exact (leavesOpen_word hn.fits).append (leavesOpen_flatMap hitems).group

/-- **Parentheses of a parse in silence.** No closing one is left over. As many opening ones are
left over as there are groups that were left open, so the parentheses are balanced if and only if
there is no such group; and there is none outside of calls. -/
theorem balanced_iff_of_silent (hg : g.Readable)
    (hsilent : (g.parse limit lexemes).problems = []) :
    ∃ marks, marks.map Mark.lexeme = lexemes ∧ g.Marked false marks (g.parse limit lexemes).expr ∧
      openGroups 0 lexemes = some (marks.count .leftOpen) ∧
      (Balanced lexemes ↔ .leftOpen ∉ marks) ∧
      ((∀ e ∈ (g.parse limit lexemes).expr, e.CallFree) → Balanced lexemes) := by
  obtain ⟨marks, hcovers, hmarked⟩ := marked_of_silent hsilent
  have hcount : openGroups 0 lexemes = some (marks.count .leftOpen) := by
    have h := hmarked.leavesOpen hg 0 []
    rwa [List.append_nil, hcovers, Nat.zero_add] at h
  have hiff : Balanced lexemes ↔ .leftOpen ∉ marks := by
    rw [balanced_iff_openGroups, hcount, Option.some_inj, List.count_eq_zero]
  refine ⟨marks, hcovers, hmarked, hcount, hiff, ?_⟩
  intro hfree
  exact hiff.mpr fun hmem => hmarked.plain_of_callFree rfl hfree _ hmem

/-- `f ( ( a ) , b )` closes what it opens. -/
theorem balanced_call : Dialect.cSpec.grammar.Readable ∧
    (Dialect.cSpec.grammar.parse 62 ["f", "(", "(", "a", ")", ",", "b", ")"]).problems = [] ∧
    ∃ marks, marks.map Mark.lexeme = ["f", "(", "(", "a", ")", ",", "b", ")"] ∧
      Dialect.cSpec.grammar.Marked false marks
        (Dialect.cSpec.grammar.parse 62 ["f", "(", "(", "a", ")", ",", "b", ")"]).expr ∧
      openGroups 0 ["f", "(", "(", "a", ")", ",", "b", ")"] = some (marks.count .leftOpen) ∧
      (Balanced ["f", "(", "(", "a", ")", ",", "b", ")"] ↔ .leftOpen ∉ marks) ∧
      ((∀ e ∈ (Dialect.cSpec.grammar.parse 62 ["f", "(", "(", "a", ")", ",", "b", ")"]).expr,
        e.CallFree) → Balanced ["f", "(", "(", "a", ")", ",", "b", ")"]) := by
  have hg : Dialect.cSpec.grammar.Readable := Dialect.readable_grammar .c
  have hsilent : (Dialect.cSpec.grammar.parse 62
      ["f", "(", "(", "a", ")", ",", "b", ")"]).problems = [] := by decide +kernel
  exact ⟨hg, hsilent, balanced_iff_of_silent hg hsilent⟩

/-- In `f ( ( a , b )` the comma ends a group that is never closed, and nothing is noted. -/
theorem not_balanced_call :
    (Dialect.cSpec.grammar.parse 62 ["f", "(", "(", "a", ",", "b", ")"]).problems = [] ∧
    (Dialect.cSpec.grammar.parse 62 ["f", "(", "(", "a", ",", "b", ")"]).expr =
      some (.call "f" [.identifier "a", .identifier "b"]) ∧
    ¬ Balanced ["f", "(", "(", "a", ",", "b", ")"] := by
  exact ⟨by decide +kernel, by decide +kernel, by decide⟩

end Grammar

end SnippetTree
