import SnippetTree.Lexeme
import SnippetTree.Statement.Assign

/-!
# Where an operator that assigns begins

An operator that assigns is an equals sign, by itself or after an arithmetic sign. The search for
one asks the same question at each place of a text: whether one begins there. Here is the answer in
terms of the characters (`Text.assignOpAt?_eq_some_iff`), and from it the places where the answer is
no because of the first character or the second.
-/

namespace SnippetTree

namespace AssignOp

/-- What stands before the equals sign of an operator: an arithmetic sign or nothing. -/
def sign (operator : AssignOp) : Text :=
  operator.text.toList.dropLast

/-- The signs that make an operator with an equals sign after them. -/
def signs : List Char := ['+', '-', '*', '/', '%']

theorem toList_text (operator : AssignOp) : operator.text.toList = operator.sign ++ ['='] := by
  cases operator <;> rfl

theorem ofSign?_eq_some_iff {c : Char} {operator : AssignOp} :
    ofSign? c = some operator ↔ operator.sign = [c] := by
  unfold ofSign?
  split
  all_goals cases operator <;> simp_all [sign, text, eq_comm]

theorem mem_signs_iff {c : Char} : c ∈ signs ↔ ∃ operator, ofSign? c = some operator := by
  constructor
  · intro h
    simp only [signs, List.mem_cons, List.not_mem_nil, or_false] at h
    rcases h with rfl | rfl | rfl | rfl | rfl <;> exact ⟨_, rfl⟩
  · rintro ⟨operator, h⟩
    rw [ofSign?_eq_some_iff] at h
    cases operator <;> cases h <;> decide

/-- An operator is an equals sign by itself or after an arithmetic sign. -/
theorem sign_cases (operator : AssignOp) :
    operator.sign = [] ∧ operator = .set ∨ ∃ c ∈ signs, operator.sign = [c] := by
  cases operator
  case set => exact .inl ⟨rfl, rfl⟩
  all_goals exact .inr ⟨_, by decide, rfl⟩

theorem length_sign_le (operator : AssignOp) : operator.sign.length ≤ 1 := by
  cases operator <;> decide

/-- An arithmetic sign is no comparison mark, no white space and no letter. -/
theorem kind_of_mem_signs {c : Char} (h : c ∈ signs) :
    Text.isComparisonMark c = false ∧ Text.isBlank c = false ∧ Text.isNameStart c = false := by
  simp only [signs, List.mem_cons, List.not_mem_nil, or_false] at h
  rcases h with rfl | rfl | rfl | rfl | rfl <;> exact ⟨rfl, rfl, rfl⟩

end AssignOp

namespace Text

variable {text value : Text} {operator : AssignOp}

theorem afterEquals?_of_ne {x : Text} (h : x.head? ≠ some '=') : afterEquals? x = none := by
  cases x with
  | nil => rfl
  | cons c x =>
      have hc : c ≠ '=' := by
        intro heq
        exact h (congrArg some heq)
      unfold afterEquals?
      split
      · rename_i heq
        injection heq with hc' _
        exact absurd hc' hc
      · rfl

theorem afterEquals?_eq_some_iff :
    afterEquals? text = some value ↔ text = '=' :: value ∧ value.head? ≠ some '=' := by
  cases text with
  | nil => simp [afterEquals?]
  | cons c rest =>
      by_cases hc : c = '='
      · subst hc
        rw [afterEquals?]
        by_cases hdoubled : rest.head? = some '='
        · rw [if_pos hdoubled]
          refine ⟨nofun, ?_⟩
          rintro ⟨heq, hsingle⟩
          exact absurd ((List.cons.inj heq).2 ▸ hdoubled) hsingle
        · rw [if_neg hdoubled]
          constructor
          · intro h
            cases h
            exact ⟨rfl, hdoubled⟩
          · rintro ⟨heq, -⟩
            rw [(List.cons.inj heq).2]
      · have hnone : afterEquals? (c :: rest) = none :=
          afterEquals?_of_ne fun heq => hc (Option.some.inj heq)
        rw [hnone]
        simp [hc]

/-- A text begins with an operator if it begins with a sign and an equals sign, or with an equals
sign that is no such sign. -/
theorem cons_eq_operator_iff {c : Char} {rest : Text} :
    c :: rest = operator.text.toList ++ value ↔
      (AssignOp.ofSign? c = some operator ∧ rest = '=' :: value) ∨
        (AssignOp.ofSign? c = none ∧ operator = .set ∧ c :: rest = '=' :: value) := by
  rw [AssignOp.toList_text, List.append_assoc, List.singleton_append]
  constructor
  · intro h
    rcases operator.sign_cases with ⟨hsign, hset⟩ | ⟨s, -, hsign⟩
    · rw [hsign, List.nil_append] at h
      have hc : c = '=' := (List.cons.inj h).1
      exact .inr ⟨by rw [hc]; rfl, hset, h⟩
    · rw [hsign] at h
      obtain ⟨rfl, hrest⟩ := List.cons.inj h
      exact .inl ⟨AssignOp.ofSign?_eq_some_iff.mpr hsign, hrest⟩
  · rintro (⟨hsign, rfl⟩ | ⟨-, rfl, h⟩)
    · rw [AssignOp.ofSign?_eq_some_iff.mp hsign]
      rfl
    · exact h

/-- **What the search asks at one place**: whether the text begins with an operator that no
comparison mark stands before and no equals sign after. -/
theorem assignOpAt?_eq_some_iff {previous : Option Char} :
    assignOpAt? previous text = some (operator, value) ↔
      (∀ c ∈ previous, isComparisonMark c = false) ∧
        text = operator.text.toList ++ value ∧ value.head? ≠ some '=' := by
  have hprevious : (∀ c ∈ previous, isComparisonMark c = false) ↔
      previous.any isComparisonMark = false := by cases previous <;> simp
  rw [hprevious]
  cases text with
  | nil => cases operator <;> simp [assignOpAt?, AssignOp.text]
  | cons c rest =>
      rw [assignOpAt?, cons_eq_operator_iff]
      cases previous.any isComparisonMark with
      | true => simp
      | false =>
          cases AssignOp.ofSign? c with
          | some found => simp [afterEquals?_eq_some_iff, and_comm, and_assoc]
          | none =>
              simp only [Bool.false_eq_true, if_false, Option.map_eq_some_iff, Prod.mk.injEq,
                afterEquals?_eq_some_iff, reduceCtorEq, false_and, false_or, true_and]
              constructor
              · rintro ⟨found, ⟨heq, hsingle⟩, rfl, rfl⟩
                exact ⟨⟨rfl, heq⟩, hsingle⟩
              · rintro ⟨⟨rfl, heq⟩, hsingle⟩
                exact ⟨value, ⟨heq, hsingle⟩, rfl, rfl⟩

/-- An operator begins with an equals sign or an arithmetic sign. -/
theorem assignOpAt?_of_not_mem {c : Char} (hc : c ≠ '=') (hsign : c ∉ AssignOp.signs)
    (previous : Option Char) (rest : Text) : assignOpAt? previous (c :: rest) = none := by
  rw [Option.eq_none_iff_forall_ne_some]
  rintro ⟨operator, value⟩ hfound
  obtain ⟨-, heq, -⟩ := assignOpAt?_eq_some_iff.mp hfound
  rcases cons_eq_operator_iff.mp heq with ⟨hmem, -⟩ | ⟨-, -, heq⟩
  · exact hsign (AssignOp.mem_signs_iff.mpr ⟨operator, hmem⟩)
  · exact hc (List.cons.inj heq).1

/-- An operator has an equals sign as its first or second character. -/
theorem assignOpAt?_of_ne {c : Char} (hc : c ≠ '=') {rest : Text} (hrest : rest.head? ≠ some '=')
    (previous : Option Char) : assignOpAt? previous (c :: rest) = none := by
  rw [Option.eq_none_iff_forall_ne_some]
  rintro ⟨operator, value⟩ hfound
  obtain ⟨-, heq, -⟩ := assignOpAt?_eq_some_iff.mp hfound
  rcases cons_eq_operator_iff.mp heq with ⟨-, heq⟩ | ⟨-, -, heq⟩
  · exact hrest (heq ▸ rfl)
  · exact hc (List.cons.inj heq).1

end Text

end SnippetTree
