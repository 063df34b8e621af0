import SnippetTree.Text.Blank
import SnippetTree.Text.Parenthesized
import SnippetTree.Proofs.AssignmentOperators

/-!
# Where a text is cut

Texts are cut at every character of a sort, at the first character of a sort, at the parenthesis
that closes a group, and at the first operator that assigns. For each of these cuts this file says
what it does to a text that was put together from two parts. Two properties of a part carry all of
it:

* a *closed* part opens and closes its own parentheses, so that the end of a group is never found
  inside it (`Closed`);
* an *inert* part holds no operator that assigns, unless what follows it makes one (`Inert`). That
  it may hold comparisons is the whole point.
-/

namespace SnippetTree.Text

/-! ## At every character -/

/-- A text that is put together at a cutting character is cut there. -/
theorem splitWhere_append_cons {p : Char → Bool} {c : Char} (hc : p c = true) (x y : Text) :
    splitWhere p (x ++ c :: y) = splitWhere p x ++ splitWhere p y := by
  have hcut : splitWhere p (c :: y) = [] :: splitWhere p y := by rw [splitWhere, if_pos hc]
  induction x with
  | nil => exact hcut
  | cons d x ih =>
      rw [List.cons_append, splitWhere, splitWhere, ih]
      by_cases hd : p d = true
      · rw [if_pos hd, if_pos hd, List.cons_append]
      · rw [if_neg hd, if_neg hd]
        cases hx : splitWhere p x with
        | nil => exact absurd hx (splitWhere_ne_nil p x)
        | cons part parts => rfl

/-- A text without cutting characters is one part. -/
theorem splitWhere_of_forall {p : Char → Bool} {x : Text} (h : ∀ c ∈ x, p c = false) :
    splitWhere p x = [x] := by
  induction x with
  | nil => rfl
  | cons c x ih =>
      have hc : ¬ p c = true := Bool.eq_false_iff.mp (h c (List.mem_cons_self ..))
      rw [splitWhere, if_neg hc, ih fun d hd => h d (List.mem_cons_of_mem _ hd)]

theorem splitAt_append_cons (mark : Char) (x y : Text) :
    splitAt mark (x ++ mark :: y) = splitAt mark x ++ splitAt mark y :=
  splitWhere_append_cons (p := (· == mark)) (beq_self_eq_true mark) x y

theorem beq_eq_false_of_not_mem {mark : Char} {x : Text} (h : mark ∉ x) :
    ∀ c ∈ x, (c == mark) = false := by
  intro c hc
  rw [beq_eq_false_iff_ne]
  rintro rfl
  exact h hc

/-- A text without the mark is one part. -/
theorem splitAt_of_not_mem {mark : Char} {x : Text} (h : mark ∉ x) : splitAt mark x = [x] :=
  splitWhere_of_forall (beq_eq_false_of_not_mem h)

/-- Parts that are put together with a cutting character between them are cut out again. -/
theorem splitWhere_join {p : Char → Bool} {mark : Char} (hmark : p mark = true)
    {parts : List Text} (hne : parts ≠ []) (h : ∀ part ∈ parts, ∀ c ∈ part, p c = false) :
    splitWhere p (join [mark] parts) = parts := by
  rw [join]
  induction parts with
  | nil => exact absurd rfl hne
  | cons part parts ih =>
      have hfirst := splitWhere_of_forall (h part (List.mem_cons_self ..))
      cases parts with
      | nil => rw [List.intercalate_singleton, hfirst]
      | cons next parts =>
          have hrest := ih (List.cons_ne_nil next parts) fun other ho =>
            h other (List.mem_cons_of_mem _ ho)
          rw [List.intercalate_cons_cons, List.append_assoc, List.singleton_append,
            splitWhere_append_cons hmark, hfirst, hrest, List.singleton_append]

/-- Parts that are put together with the mark between them are cut out again. -/
theorem splitAt_join {mark : Char} {parts : List Text} (hne : parts ≠ [])
    (h : ∀ part ∈ parts, mark ∉ part) : splitAt mark (join [mark] parts) = parts :=
  splitWhere_join (p := (· == mark)) (beq_self_eq_true mark) hne
    fun part hpart => beq_eq_false_of_not_mem (h part hpart)

/-- A character of a text cuts it or stands in one of its parts. -/
theorem cuts_or_mem_part {p : Char → Bool} {c : Char} {x : Text} (h : c ∈ x) :
    p c = true ∨ ∃ part ∈ splitWhere p x, c ∈ part := by
  induction x with
  | nil => cases h
  | cons d x ih =>
      rw [splitWhere]
      by_cases hd : p d = true
      · rw [if_pos hd]
        rcases List.mem_cons.mp h with rfl | h
        · exact .inl hd
        · rcases ih h with hc | ⟨part, hpart, hc⟩
          · exact .inl hc
          · exact .inr ⟨part, List.mem_cons_of_mem _ hpart, hc⟩
      · rw [if_neg hd]
        cases hx : splitWhere p x with
        | nil => exact absurd hx (splitWhere_ne_nil p x)
        | cons first others =>
            rw [hx] at ih
            rcases List.mem_cons.mp h with rfl | h
            · exact .inr ⟨_, List.mem_cons_self .., List.mem_cons_self ..⟩
            · rcases ih h with hc | ⟨part, hpart, hc⟩
              · exact .inl hc
              · rcases List.mem_cons.mp hpart with rfl | hpart
                · exact .inr ⟨_, List.mem_cons_self .., List.mem_cons_of_mem _ hc⟩
                · exact .inr ⟨part, List.mem_cons_of_mem _ hpart, hc⟩

/-- Words with single spaces between them are the words of their text. -/
theorem words_join {parts : List Text}
    (h : ∀ part ∈ parts, part ≠ [] ∧ ∀ c ∈ part, isBlank c = false) :
    words (join [' '] parts) = parts := by
  by_cases hne : parts = []
  · rw [hne]
    rfl
  · have hkept : ∀ part ∈ parts, (!part.isEmpty) = true := by
      intro part hpart
      rw [Bool.not_eq_true', List.isEmpty_eq_false_iff]
      exact (h part hpart).1
    rw [words, splitWhere_join rfl hne fun part hpart => (h part hpart).2,
      List.filter_eq_self.mpr hkept]

/-- White space in front of a text adds no word. -/
theorem words_append {before : Text} (h : ∀ c ∈ before, isBlank c = true) (x : Text) :
    words (before ++ x) = words x := by
  induction before with
  | nil => rfl
  | cons c before ih =>
      rw [List.forall_mem_cons] at h
      rw [List.cons_append, words, splitWhere, if_pos h.1]
      exact ih h.2

/-- Two words with a space between them are two words. -/
theorem words_pair {x y : Text} (hx : x ≠ []) (hy : y ≠ []) (hblankx : ∀ c ∈ x, isBlank c = false)
    (hblanky : ∀ c ∈ y, isBlank c = false) : words (x ++ ' ' :: y) = [x, y] := by
  have hparts : ∀ part ∈ [x, y], part ≠ [] ∧ ∀ c ∈ part, isBlank c = false :=
    List.forall_mem_cons.mpr ⟨⟨hx, hblankx⟩, List.forall_mem_singleton.mpr ⟨hy, hblanky⟩⟩
  have htext : join [' '] [x, y] = x ++ ' ' :: y := by
    rw [join, List.intercalate_cons_cons, List.intercalate_singleton, List.append_assoc]
    rfl
  rw [← htext, words_join hparts]

/-! ## At the first character -/

theorem eq_append_of_cutAt? {mark : Char} {text x y : Text} (h : cutAt? mark text = some (x, y)) :
    text = x ++ mark :: y := by
  unfold cutAt? at h
  split at h
  · cases h
  · rename_i c after hdrop
    obtain ⟨rfl, rfl⟩ := Prod.mk.inj (Option.some.inj h)
    have hc : c = mark := by
      have hstop := List.head?_dropWhile_not (· != mark) text
      rw [hdrop] at hstop
      simpa using hstop
    have hwhole := List.takeWhile_append_dropWhile (p := (· != mark)) (l := text)
    rw [hdrop, hc] at hwhole
    exact hwhole.symm

theorem cutAt?_append {mark : Char} {x : Text} (h : mark ∉ x) (y : Text) :
    cutAt? mark (x ++ mark :: y) = some (x, y) := by
  have hpass : ∀ c ∈ x, (c != mark) = true := by
    intro c hc
    rw [bne_iff_ne]
    intro heq
    exact h (heq ▸ hc)
  have hdrop : (x ++ mark :: y).dropWhile (· != mark) = mark :: y := by
    rw [List.dropWhile_append_of_pos hpass]
    simp
  have htake : (x ++ mark :: y).takeWhile (· != mark) = x := by
    rw [List.takeWhile_append_of_pos hpass]
    simp
  rw [cutAt?, hdrop, htake]

/-- A text is not cut exactly if the mark does not occur. -/
theorem cutAt?_eq_none_iff {mark : Char} {text : Text} : cutAt? mark text = none ↔ mark ∉ text := by
  constructor
  · intro h hmem
    obtain ⟨x, y, rfl, hx⟩ := List.eq_append_cons_of_mem hmem
    rw [cutAt?_append hx] at h
    cases h
  · intro h
    cases hcut : cutAt? mark text with
    | none => rfl
    | some parts =>
        rw [eq_append_of_cutAt? hcut] at h
        exact absurd (List.mem_append_right _ (List.mem_cons_self ..)) h

/-! ## At the end of a group -/

/-- The end of a group is not found in the text: it closes what it opens. -/
def Closed (x : Text) : Prop :=
  ∀ opened rest, untilClosed opened (x ++ rest) = x ++ untilClosed opened rest

theorem untilClosed_opener (opened : Nat) (rest : Text) :
    untilClosed opened ('(' :: rest) = '(' :: untilClosed (opened + 1) rest := by
  rw [untilClosed.eq_def]
  rfl

theorem untilClosed_closer (opened : Nat) (rest : Text) :
    untilClosed (opened + 1) (')' :: rest) = ')' :: untilClosed opened rest := rfl

theorem untilClosed_other {c : Char} (hopener : c ≠ '(') (hcloser : c ≠ ')') (opened : Nat)
    (rest : Text) : untilClosed opened (c :: rest) = c :: untilClosed opened rest := by
  rw [untilClosed.eq_def]
  dsimp only
  rw [if_neg hopener, if_neg hcloser]

theorem closed_nil : Closed [] :=
  fun _ _ => rfl

theorem Closed.append {x y : Text} (hx : Closed x) (hy : Closed y) : Closed (x ++ y) := by
  intro opened rest
  rw [List.append_assoc, hx, hy, List.append_assoc]

theorem closed_of_forall {x : Text} (h : ∀ c ∈ x, c ≠ '(' ∧ c ≠ ')') : Closed x := by
  induction x with
  | nil => exact closed_nil
  | cons c x ih =>
      obtain ⟨hopener, hcloser⟩ := h c (List.mem_cons_self ..)
      have hx := ih fun d hd => h d (List.mem_cons_of_mem _ hd)
      intro opened rest
      rw [List.cons_append, untilClosed_other hopener hcloser, hx, List.cons_append]

/-- A character that is no parenthesis is closed by itself. -/
theorem closed_singleton {c : Char} (h : c ≠ '(' ∧ c ≠ ')') : Closed [c] :=
  closed_of_forall (List.forall_mem_singleton.mpr h)

theorem Closed.group {x : Text} (hx : Closed x) : Closed ('(' :: (x ++ [')'])) := by
  intro opened rest
  rw [List.cons_append, List.append_assoc, untilClosed_opener, hx, List.singleton_append,
    untilClosed_closer, List.cons_append, List.append_assoc]
  rfl

/-- The content of the first group is found, whatever comes after it. -/
theorem parenthesized?_append {before x : Text} (hbefore : '(' ∉ before) (hx : Closed x)
    (rest : Text) : parenthesized? (before ++ '(' :: (x ++ ')' :: rest)) = some x := by
  have hend : untilClosed 0 (x ++ ')' :: rest) = x := by
    rw [hx, untilClosed.eq_def]
    exact List.append_nil x
  rw [parenthesized?, cutAt?_append hbefore]
  exact congrArg some hend

/-! ## At the first assignment -/

/-- No operator that assigns begins in the text, unless the text after it begins with an equals
sign. -/
def Inert (x : Text) : Prop :=
  ∀ before rest, rest.head? ≠ some '=' →
    splitAssignFrom before (x ++ rest) = splitAssignFrom (x.reverse ++ before) rest

theorem inert_nil : Inert [] :=
  fun _ _ _ => rfl

theorem Inert.append {x y : Text} (hx : Inert x) (hy : Inert y) (hhead : y.head? ≠ some '=') :
    Inert (x ++ y) := by
  intro before rest hrest
  have hnext : (y ++ rest).head? ≠ some '=' := by
    cases y with
    | nil => exact hrest
    | cons c y => exact hhead
  rw [List.append_assoc, hx before _ hnext, hy _ rest hrest, List.reverse_append,
    List.append_assoc]

theorem inert_of_not_mem {x : Text} (h : '=' ∉ x) : Inert x := by
  induction x with
  | nil => exact inert_nil
  | cons c x ih =>
      have hc : c ≠ '=' := fun heq => h (heq ▸ List.mem_cons_self ..)
      have hx : '=' ∉ x := fun hmem => h (List.mem_cons_of_mem _ hmem)
      intro before rest hrest
      have hnext : (x ++ rest).head? ≠ some '=' := by
        cases x with
        | nil => exact hrest
        | cons d x =>
            intro heq
            exact hx (Option.some.inj heq ▸ List.mem_cons_self ..)
      rw [List.cons_append, splitAssignFrom, assignOpAt?_of_ne hc hnext]
      dsimp only
      rw [ih hx _ rest hrest, List.reverse_cons, List.append_assoc]
      rfl

/-- A text without an equals sign is inert, with a space before it or without. -/
theorem inert_both_of_not_mem {x : Text} (h : '=' ∉ x) : Inert x ∧ Inert (' ' :: x) := by
  have hspace : '=' ∉ ' ' :: x := List.not_mem_cons_of_ne_of_not_mem (by decide) h
  exact ⟨inert_of_not_mem h, inert_of_not_mem hspace⟩

/-- Comparisons are inert, with a space before them or without. -/
theorem inert_comparison {mark : Char} (h : isComparisonMark mark = true) :
    Inert [mark, '='] ∧ Inert [' ', mark, '='] := by
  have hmark : mark = '=' ∨ mark = '!' ∨ mark = '<' ∨ mark = '>' := by
    simp only [isComparisonMark, Bool.or_eq_true, beq_iff_eq, or_assoc] at h
    exact h
  have hbare : Inert [mark, '='] := by
    intro before rest _
    rcases hmark with rfl | rfl | rfl | rfl <;>
      simp [splitAssignFrom, assignOpAt?, AssignOp.ofSign?, afterEquals?, isComparisonMark]
  refine ⟨hbare, ?_⟩
  intro before rest hrest
  -- no operator begins at the space, and after it the comparison goes on as it would by itself
  have hspace : assignOpAt? before.head? (' ' :: ([mark, '='] ++ rest)) = none := by
    simp [assignOpAt?, AssignOp.ofSign?, afterEquals?]
  have hgo := hbare (' ' :: before) rest hrest
  rw [List.cons_append, splitAssignFrom, hspace]
  exact hgo

theorem Inert.splitAssign? {x : Text} (h : Inert x) : splitAssign? x = none := by
  have hwhole := h [] [] (by decide)
  rw [List.append_nil] at hwhole
  exact hwhole

/-- **A target, an operator and a value with spaces between them are cut at the operator**, whatever
the value holds. -/
theorem splitAssign?_append {target : Text} (h : '=' ∉ target) (operator : AssignOp)
    (value : Text) :
    splitAssign? (target ++ ' ' :: (operator.text.toList ++ ' ' :: value)) =
      some ⟨trim (target ++ [' ']), operator, trim (' ' :: value)⟩ := by
  have hspace : ∀ before rest, splitAssignFrom before (' ' :: rest) =
      splitAssignFrom (' ' :: before) rest := by
    intro before rest
    cases before <;> simp [splitAssignFrom, assignOpAt?, AssignOp.ofSign?, afterEquals?]
  have hpass := inert_of_not_mem h []
    (' ' :: (operator.text.toList ++ ' ' :: value)) (by simp)
  have htarget : (' ' :: (target.reverse ++ [])).reverse = target ++ [' '] := by simp
  rw [splitAssign?, hpass, hspace, ← htarget]
  cases operator <;>
    simp [splitAssignFrom, assignOpAt?, AssignOp.ofSign?, afterEquals?, isComparisonMark,
      AssignOp.text]

end SnippetTree.Text
