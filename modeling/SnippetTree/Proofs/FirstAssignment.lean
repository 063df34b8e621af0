import SnippetTree.Proofs.Names

/-!
# The first assignment of a line

A line is split by a search from left to right: at each place it asks whether an operator begins
there, the one of two characters before the one of one. What is found is described here from the
other end, by the equals sign. An equals sign is bare if no comparison mark stands before it and no
other equals sign after it. The line is split at the first bare one, and an arithmetic sign before
it belongs to the operator unless the sign itself comes after a comparison mark.

Two steps lead there. The search finds the first place where an operator stands
(`firstOperator_splitAssign?`), by induction on what is left to be searched; and operators and bare
equals signs belong to each other, in the same order (`OperatorAt.bareAt`, `Operates.operatorAt`).
White space in front and what ends a line have no part in the search, so a line is split where its
stripped form is.
-/

namespace SnippetTree

namespace Text

/-! ## Bare equals signs and operators -/

/-- The text does not end with a comparison mark. -/
def NoMarkAtEnd (before : Text) : Prop :=
  ∀ c ∈ before.getLast?, isComparisonMark c = false

/-- The text is `before`, a bare equals sign, and `after`. -/
structure BareAt (text before after : Text) : Prop where
  eq : text = before ++ '=' :: after
  no_mark : NoMarkAtEnd before
  single : after.head? ≠ some '='

/-- The text is `before`, its first bare equals sign, and `after`. -/
structure FirstBareAt (text before after : Text) : Prop extends BareAt text before after where
  first : ∀ earlier later, BareAt text earlier later → before.length ≤ earlier.length

/-- The text `before` is `target` and an arithmetic sign that no comparison mark stands before. Such
a sign belongs to an equals sign after it. -/
structure SignedAt (before target : Text) (sign : Char) : Prop where
  eq : before = target ++ [sign]
  mem : sign ∈ AssignOp.signs
  no_mark : NoMarkAtEnd target

/-- The operator of an equals sign after `before`, and what stands in front of the operator. -/
inductive Operates (before : Text) : Text → AssignOp → Prop where
  | signed {target : Text} {sign : Char} {operator : AssignOp} :
      SignedAt before target sign → operator.text.toList = [sign, '='] →
      Operates before target operator
  | alone : (∀ target sign, ¬ SignedAt before target sign) → Operates before before .set

/-- The text is `target`, an operator that may begin there, and `value`. -/
structure OperatorAt (text target : Text) (operator : AssignOp) (value : Text) : Prop where
  eq : text = target ++ (operator.text.toList ++ value)
  no_mark : NoMarkAtEnd target
  single : value.head? ≠ some '='

variable {text before after target value : Text} {operator : AssignOp}

/-! ## The search -/

theorem OperatorAt.assignOpAt? (h : OperatorAt text target operator value) :
    assignOpAt? target.getLast? (text.drop target.length) = some (operator, value) := by
  rw [h.eq, List.drop_left]
  exact assignOpAt?_eq_some_iff.mpr ⟨h.no_mark, rfl, h.single⟩

/-- The operator that begins at a place is the only one there. -/
theorem OperatorAt.unique {other : Text} {operator' : AssignOp} {value' : Text}
    (h : OperatorAt text target operator value) (h' : OperatorAt text other operator' value')
    (hlength : target.length = other.length) :
    target = other ∧ operator = operator' ∧ value = value' := by
  have htarget : target = other := List.append_inj_left (h.eq.symm.trans h'.eq) hlength
  have hsame : some (operator, value) = some (operator', value') := by
    rw [← h.assignOpAt?, ← h'.assignOpAt?, htarget]
  obtain ⟨rfl, rfl⟩ := Prod.mk.inj (Option.some.inj hsame)
  exact ⟨htarget, rfl, rfl⟩

/-- What a split at the first operator of a text gives. -/
inductive FirstOperator (text : Text) : Option AssignSplit → Prop where
  | none : (∀ target operator value, ¬ OperatorAt text target operator value) →
      FirstOperator text none
  | some {target : Text} {operator : AssignOp} {value : Text} :
      OperatorAt text target operator value →
      (∀ target' operator' value', OperatorAt text target' operator' value' →
        target.length ≤ target'.length) →
      FirstOperator text (some ⟨trim target, operator, trim value⟩)

/-- The search finds the first operator of the text, if none of them begins in what it has
passed. -/
theorem firstOperator_splitAssignFrom {before text : Text}
    (hpassed : ∀ target operator value,
      OperatorAt (before.reverse ++ text) target operator value →
        before.length ≤ target.length) :
    FirstOperator (before.reverse ++ text) (splitAssignFrom before text) := by
  induction text generalizing before with
  | nil =>
      refine .none fun target operator value h => ?_
      have hle := hpassed _ _ _ h
      have hlength := congrArg List.length h.eq
      rw [AssignOp.toList_text] at hlength
      simp only [List.length_append, List.length_reverse, List.length_nil, List.length_cons]
        at hlength
      omega
  | cons c rest ih =>
      rw [splitAssignFrom]
      cases hop : assignOpAt? before.head? (c :: rest) with
      | some found =>
          obtain ⟨hmark, heq, hsingle⟩ := assignOpAt?_eq_some_iff.mp hop
          refine .some ⟨by rw [heq], ?_, hsingle⟩ ?_
          · rwa [NoMarkAtEnd, List.getLast?_reverse]
          · rw [List.length_reverse]
            exact hpassed
      | none =>
          have hcons : before.reverse ++ c :: rest = (c :: before).reverse ++ rest := by simp
          rw [hcons] at hpassed ⊢
          refine ih fun target operator value h => ?_
          have hle := hpassed _ _ _ h
          by_contra hlt
          -- an operator that begins with `c` is found
          have hhere : target = before.reverse := by
            have hlength : target.length = before.reverse.length := by
              rw [List.length_cons] at hlt
              rw [List.length_reverse]
              omega
            exact List.append_inj_left (h.eq.symm.trans hcons.symm) hlength
          have hfound := h.assignOpAt?
          rw [← hcons, hhere, List.drop_left, List.getLast?_reverse, hop] at hfound
          cases hfound

theorem firstOperator_splitAssign? (text : Text) : FirstOperator text (splitAssign? text) := by
  have hpassed : ∀ target operator value,
      OperatorAt (([] : Text).reverse ++ text) target operator value → 0 ≤ target.length :=
    fun _ _ _ _ => Nat.zero_le _
  exact firstOperator_splitAssignFrom hpassed

/-! ## From operators to bare equals signs and back -/

theorem OperatorAt.bareAt (h : OperatorAt text target operator value) :
    BareAt text (target ++ operator.sign) value := by
  refine ⟨by rw [h.eq, AssignOp.toList_text]; simp, ?_, h.single⟩
  intro c hc
  rcases operator.sign_cases with ⟨hsign, -⟩ | ⟨s, hs, hsign⟩
  · rw [hsign, List.append_nil] at hc
    exact h.no_mark c hc
  · rw [hsign, List.getLast?_concat] at hc
    rw [← Option.some.inj hc]
    exact (AssignOp.kind_of_mem_signs hs).1

namespace Operates

theorem eq (h : Operates before target operator) : before = target ++ operator.sign := by
  cases h with
  | signed hsigned htext => rw [hsigned.eq, AssignOp.sign, htext]; rfl
  | alone => exact (List.append_nil before).symm

theorem of_signedAt {sign : Char} (h : SignedAt before target sign) :
    ∃ operator, Operates before target operator := by
  obtain ⟨operator, hoperator⟩ := AssignOp.mem_signs_iff.mp h.mem
  refine ⟨operator, .signed h ?_⟩
  rw [AssignOp.toList_text, AssignOp.ofSign?_eq_some_iff.mp hoperator]
  rfl

/-- Every equals sign has an operator. -/
theorem total (before : Text) : ∃ target operator, Operates before target operator := by
  by_cases h : ∃ target sign, SignedAt before target sign
  · obtain ⟨target, sign, hsigned⟩ := h
    exact ⟨target, of_signedAt hsigned⟩
  · exact ⟨before, .set, .alone fun target sign hsigned => h ⟨target, sign, hsigned⟩⟩

/-- An equals sign has no more than one operator. -/
theorem unique {other : Text} {operator' : AssignOp} (h : Operates before target operator)
    (h' : Operates before other operator') : target = other ∧ operator = operator' := by
  cases h with
  | signed hsigned htext =>
      cases h' with
      | signed hsigned' htext' =>
          obtain ⟨rfl, hsign⟩ := List.append_inj' (hsigned.eq.symm.trans hsigned'.eq) rfl
          have htexts : operator.text.toList = operator'.text.toList := by
            rw [htext, htext', (List.cons.inj hsign).1]
          refine ⟨rfl, ?_⟩
          cases operator <;> cases operator' <;> first | rfl | exact absurd htexts (by decide)
      | alone hnone => exact absurd hsigned (hnone _ _)
  | alone hnone =>
      cases h' with
      | signed hsigned' _ => exact absurd hsigned' (hnone _ _)
      | alone => exact ⟨rfl, rfl⟩

theorem operatorAt (h : Operates before target operator) (hbare : BareAt text before value) :
    OperatorAt text target operator value := by
  cases h with
  | signed hsigned htext =>
      exact ⟨by rw [hbare.eq, hsigned.eq, htext]; simp, hsigned.no_mark, hbare.single⟩
  | alone => exact ⟨hbare.eq, hbare.no_mark, hbare.single⟩

end Operates

section First

variable (h : OperatorAt text target operator value)
  (hfirst : ∀ target' operator' value', OperatorAt text target' operator' value' →
    target.length ≤ target'.length)
include h hfirst

/-- The first operator is the one that its equals sign has. -/
theorem OperatorAt.operates : Operates (target ++ operator.sign) target operator := by
  rcases operator.sign_cases with ⟨hsign, rfl⟩ | ⟨s, hs, hsign⟩
  · rw [hsign, List.append_nil]
    refine .alone fun shorter sign hsigned => ?_
    -- otherwise the operator with that sign would begin before this one
    obtain ⟨operator', hoperator'⟩ := Operates.of_signedAt hsigned
    have hbare := h.bareAt
    rw [hsign, List.append_nil] at hbare
    have hle := hfirst _ _ _ (hoperator'.operatorAt hbare)
    rw [hsigned.eq, List.length_append, List.length_singleton] at hle
    omega
  · rw [hsign]
    exact .signed ⟨rfl, hs, h.no_mark⟩ (by rw [AssignOp.toList_text, hsign]; rfl)

/-- The equals sign of the first operator is the first bare one. -/
theorem OperatorAt.firstBareAt : FirstBareAt text (target ++ operator.sign) value := by
  refine ⟨h.bareAt, fun earlier later hbare => ?_⟩
  obtain ⟨target', operator', hoperates⟩ := Operates.total earlier
  have hat := hoperates.operatorAt hbare
  rw [hoperates.eq, List.length_append, List.length_append]
  rcases Nat.lt_or_eq_of_le (hfirst _ _ _ hat) with hlt | heq
  · have hsign := operator.length_sign_le
    omega
  · obtain ⟨rfl, rfl, -⟩ := h.unique hat heq
    exact Nat.le_refl _

end First

theorem FirstBareAt.unique {other later : Text} (h : FirstBareAt text before after)
    (h' : FirstBareAt text other later) : before = other ∧ after = later := by
  have hlength : before.length = other.length :=
    Nat.le_antisymm (h.first _ _ h'.toBareAt) (h'.first _ _ h.toBareAt)
  obtain ⟨hbefore, hafter⟩ := List.append_inj (h.eq.symm.trans h'.eq) hlength
  exact ⟨hbefore, (List.cons.inj hafter).2⟩

/-! ## What is around a statement -/

section Frame

variable {front back : Text}

theorem afterEquals?_append (hback : '=' ∉ back) (x : Text) :
    afterEquals? (x ++ back) = (afterEquals? x).map (· ++ back) := by
  have hhead : back.head? ≠ some '=' := fun h => hback (List.mem_of_mem_head? h)
  cases x with
  | nil => exact afterEquals?_of_ne hhead
  | cons c rest =>
      by_cases hc : c = '='
      · subst hc
        cases rest with
        | nil => simp [afterEquals?, hhead]
        | cons d rest => by_cases hd : d = '=' <;> simp [afterEquals?, hd]
      · have hne : ∀ x : Text, afterEquals? (c :: x) = none :=
          fun x => afterEquals?_of_ne fun heq => hc (Option.some.inj heq)
        rw [List.cons_append, hne, hne]
        rfl

theorem assignOpAt?_append (hback : '=' ∉ back) (previous : Option Char) (c : Char) (rest : Text) :
    assignOpAt? previous (c :: rest ++ back) =
      (assignOpAt? previous (c :: rest)).map (fun found => (found.1, found.2 ++ back)) := by
  have hrest := afterEquals?_append hback rest
  have hwhole := afterEquals?_append hback (c :: rest)
  rw [List.cons_append] at hwhole ⊢
  rw [assignOpAt?, assignOpAt?, hrest, hwhole]
  cases previous.any isComparisonMark with
  | true => rfl
  | false =>
      cases AssignOp.ofSign? c with
      | some found => cases afterEquals? rest <;> rfl
      | none => cases afterEquals? (c :: rest) <;> rfl

/-- All that matters of the character before a place is whether it is a comparison mark. -/
theorem assignOpAt?_congr {previous previous' : Option Char}
    (h : previous.any isComparisonMark = previous'.any isComparisonMark) (text : Text) :
    assignOpAt? previous text = assignOpAt? previous' text := by
  cases text with
  | nil => rfl
  | cons c rest => rw [assignOpAt?, assignOpAt?, h]

theorem not_isComparisonMark_of_isBlank {c : Char} (h : isBlank c = true) :
    isComparisonMark c = false := by
  by_contra hmark
  simp only [isComparisonMark, Bool.not_eq_false, Bool.or_eq_true, beq_iff_eq] at hmark
  rcases hmark with ((rfl | rfl) | rfl) | rfl <;> exact absurd h (by decide)

theorem assignOpAt?_of_isBlank {c : Char} (h : isBlank c = true) (previous : Option Char)
    (rest : Text) : assignOpAt? previous (c :: rest) = none := by
  have hsign : c ∉ AssignOp.signs := fun hmem =>
    Bool.noConfusion (h.symm.trans (AssignOp.kind_of_mem_signs hmem).2.1)
  refine assignOpAt?_of_not_mem ?_ hsign previous rest
  rintro rfl
  exact absurd h (by decide)

/-- Nothing begins in white space. -/
theorem splitAssignFrom_append_of_isBlank (hfront : ∀ c ∈ front, isBlank c = true)
    (before rest : Text) :
    splitAssignFrom before (front ++ rest) = splitAssignFrom (front.reverse ++ before) rest := by
  induction front generalizing before with
  | nil => rfl
  | cons c front ih =>
      obtain ⟨hc, hfront⟩ := List.forall_mem_cons.mp hfront
      rw [List.cons_append, splitAssignFrom, assignOpAt?_of_isBlank hc]
      dsimp only
      rw [ih hfront, List.reverse_cons, List.append_assoc]
      rfl

/-- White space that was passed before the search, and what follows without an equals sign, change
neither the target nor the operator. -/
theorem splitAssignFrom_frame (hfront : ∀ c ∈ front, isBlank c = true) (hback : '=' ∉ back)
    (before core : Text) :
    (splitAssignFrom (before ++ front.reverse) (core ++ back)).map
        (fun split => (split.target, split.operator)) =
      (splitAssignFrom before core).map (fun split => (split.target, split.operator)) := by
  induction core generalizing before with
  | nil =>
      have hnone := inert_of_not_mem hback (before ++ front.reverse) [] (by simp)
      rw [List.append_nil] at hnone
      rw [List.nil_append, hnone]
      rfl
  | cons c core ih =>
      have hprevious : (before ++ front.reverse).head?.any isComparisonMark =
          before.head?.any isComparisonMark := by
        cases before with
        | cons d before => rfl
        | nil =>
            rw [List.nil_append, List.head?_reverse]
            cases hlast : front.getLast? with
            | none => rfl
            | some d =>
                exact not_isComparisonMark_of_isBlank (hfront d (List.mem_of_getLast? hlast))
      have hop := assignOpAt?_append hback (before ++ front.reverse).head? c core
      rw [List.cons_append] at hop ⊢
      rw [splitAssignFrom, splitAssignFrom, hop, assignOpAt?_congr hprevious]
      cases assignOpAt? before.head? (c :: core) with
      | none => exact ih (c :: before)
      | some found =>
          have htrim : trim (before ++ front.reverse).reverse = trim before.reverse := by
            rw [List.reverse_append, List.reverse_reverse, trim, trimStart,
              List.dropWhile_append_of_pos hfront]
            rfl
          simp only [Option.map_some, htrim]

/-- White space stands in front of the stripped text, and no equals sign after it. -/
theorem exists_eq_append_strip (dialect : Dialect) (text : Text) :
    ∃ front back, text = front ++ (dialect.spec.strip text ++ back) ∧
      (∀ c ∈ front, isBlank c = true) ∧ '=' ∉ back := by
  have hterminator : dialect.spec.isTerminator '=' = false := by cases dialect <;> rfl
  obtain ⟨front, blanks, htext, hfront, hblanks⟩ := exists_eq_append_trim text
  obtain ⟨ends, hends, hall⟩ :=
    exists_eq_dropEndWhile_append dialect.spec.isTerminator (trim text)
  obtain ⟨front', blanks', hinner, hfront', hblanks'⟩ :=
    exists_eq_append_trim (dropEndWhile dialect.spec.isTerminator (trim text))
  refine ⟨front ++ front', blanks' ++ (ends ++ blanks), ?_,
    List.forall_mem_append.mpr ⟨hfront, hfront'⟩, ?_⟩
  · calc text = front ++ (trim text ++ blanks) := htext
      _ = front ++ ((front' ++ (dialect.spec.strip text ++ blanks') ++ ends) ++ blanks) := by
          rw [Dialect.Spec.strip, ← hinner, ← hends]
      _ = front ++ front' ++ (dialect.spec.strip text ++ (blanks' ++ (ends ++ blanks))) := by
          simp only [List.append_assoc]
  · intro hmem
    rcases List.mem_append.mp hmem with h | h
    · exact absurd (hblanks' _ h) (by decide)
    · rcases List.mem_append.mp h with h | h
      · exact absurd (hall _ h) (by rw [hterminator]; decide)
      · exact absurd (hblanks _ h) (by decide)

/-- A line is split where its stripped form is. -/
theorem splitAssign?_strip (dialect : Dialect) (text : Text) :
    (splitAssign? (dialect.spec.strip text)).map (fun split => (split.target, split.operator)) =
      (splitAssign? text).map (fun split => (split.target, split.operator)) := by
  obtain ⟨front, back, htext, hfront, hback⟩ := exists_eq_append_strip dialect text
  have hsearch : splitAssign? text =
      splitAssignFrom ([] ++ front.reverse) (dialect.spec.strip text ++ back) := by
    conv_lhs => rw [htext]
    rw [splitAssign?, splitAssignFrom_append_of_isBlank hfront, List.append_nil, List.nil_append]
  rw [hsearch, splitAssignFrom_frame hfront hback]
  rfl

end Frame

/-! ## The split -/

theorem splitAssign?_eq_none_iff :
    splitAssign? text = none ↔ ∀ before after, ¬ BareAt text before after := by
  have hfound := firstOperator_splitAssign? text
  generalize splitAssign? text = result at hfound
  cases hfound with
  | none hnone =>
      refine iff_of_true rfl fun before after hbare => ?_
      obtain ⟨target, operator, hoperates⟩ := Operates.total before
      exact hnone _ _ _ (hoperates.operatorAt hbare)
  | some hat _ => exact iff_of_false (by simp) fun hnone => hnone _ _ hat.bareAt

theorem splitAssign?_eq_some_iff (split : AssignSplit) :
    splitAssign? text = some split ↔ ∃ before target after,
      FirstBareAt text before after ∧ Operates before target split.operator ∧
        split.target = trim target ∧ split.value = trim after := by
  have hfound := firstOperator_splitAssign? text
  generalize splitAssign? text = result at hfound
  cases hfound with
  | none hnone =>
      refine iff_of_false (by simp) ?_
      rintro ⟨before, target, after, hfirst, hoperates, -⟩
      exact hnone _ _ _ (hoperates.operatorAt hfirst.toBareAt)
  | some hat hfirst =>
      have hbare := hat.firstBareAt hfirst
      have hoperates := hat.operates hfirst
      constructor
      · rintro h
        cases Option.some.inj h
        exact ⟨_, _, _, hbare, hoperates, rfl, rfl⟩
      · rintro ⟨before, target, after, hbare', hoperates', htarget, hvalue⟩
        obtain ⟨rfl, rfl⟩ := hbare.unique hbare'
        obtain ⟨rfl, rfl⟩ := hoperates.unique hoperates'
        rw [← htarget, ← hvalue]

/-- **A line is split at its first bare equals sign**, if it has one, and at the operator that the
sign belongs to; and it is split where its stripped form is. -/
theorem split_first_bare (text : Text) :
    (splitAssign? text = none ↔ ∀ before after, ¬ BareAt text before after) ∧
      (∀ split, splitAssign? text = some split ↔ ∃ before target after,
        FirstBareAt text before after ∧ Operates before target split.operator ∧
          split.target = trim target ∧ split.value = trim after) ∧
      ∀ dialect : Dialect,
        (splitAssign? (dialect.spec.strip text)).map
            (fun split => (split.target, split.operator)) =
          (splitAssign? text).map (fun split => (split.target, split.operator)) :=
  ⟨splitAssign?_eq_none_iff, splitAssign?_eq_some_iff,
    fun dialect => splitAssign?_strip dialect text⟩

/-- The sign belongs to no operator after a comparison mark, and the first equals sign is part of a
comparison. -/
example : splitAssign? "a != b <+= c".toList = some ⟨"a != b <+".toList, .set, "c".toList⟩ := by
  decide

end Text

end SnippetTree
