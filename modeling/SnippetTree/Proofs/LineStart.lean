import SnippetTree.Proofs.AssignmentOperators
import SnippetTree.Statement.Rule

/-!
# What a declaration begins with

The rule for declarations looks for a type word at the beginning of the line as it stands, and the
extraction takes the first word of the line after trimming, after dropping what ends it, and after
cutting it at an assignment. This module shows that none of these can take the type word away: its
first letter is neither white space nor a mark that ends a line nor part of an assignment operator,
so every one of the texts on the way still begins with it (`BeginsWithName`). A text with a letter
at its front has a word in it, and that is all the extraction asks for.
-/

namespace SnippetTree

namespace Text

/-! ## Letters at the front -/

/-- A name may begin where the text begins. -/
def BeginsWithName (text : Text) : Prop :=
  ∃ c rest, text = c :: rest ∧ isNameStart c = true

theorem nat_bounds_of_isNameStart {c : Char} (h : isNameStart c = true) :
    0x41 ≤ c.toNat ∧ c.toNat ≤ 0x7A := by
  have hparts : ((c.isUpper || c.isLower) || c == '_') = true := h
  rw [Bool.or_eq_true, Bool.or_eq_true, beq_iff_eq] at hparts
  rcases hparts with (hupper | hlower) | hunderscore
  · have hrange : 'A'.val ≤ c.val ∧ c.val ≤ 'Z'.val := of_decide_eq_true hupper
    have hlow : 0x41 ≤ c.toNat := UInt32.le_iff_toNat_le.mp hrange.1
    have hhigh : c.toNat ≤ 0x5A := UInt32.le_iff_toNat_le.mp hrange.2
    omega
  · have hrange : (decide ('a'.val ≤ c.val) && decide (c.val ≤ 'z'.val)) = true := hlower
    rw [Bool.and_eq_true, decide_eq_true_eq, decide_eq_true_eq] at hrange
    have hlow : 0x61 ≤ c.toNat := UInt32.le_iff_toNat_le.mp hrange.1
    have hhigh : c.toNat ≤ 0x7A := UInt32.le_iff_toNat_le.mp hrange.2
    omega
  · subst hunderscore
    decide

/-- A character outside the range of the letters is no letter. -/
theorem ne_of_isNameStart {c d : Char} (h : isNameStart c = true)
    (hd : d.toNat < 0x41 ∨ 0x7A < d.toNat) : c ≠ d := by
  have hbounds := nat_bounds_of_isNameStart h
  intro heq
  rw [heq] at hbounds
  omega

theorem not_isBlank_of_isNameStart {c : Char} (h : isNameStart c = true) : isBlank c = false := by
  have hbounds := nat_bounds_of_isNameStart h
  simp only [isBlank, Bool.or_eq_false_iff, Bool.and_eq_false_iff, decide_eq_false_iff_not,
    beq_eq_false_iff_ne]
  omega

/-! ## Cutting at the end leaves the front alone -/

theorem dropEndWhile_cons {p : Char → Bool} {c : Char} (h : p c = false) (rest : Text) :
    dropEndWhile p (c :: rest) = c :: dropEndWhile p rest := by
  unfold dropEndWhile
  rw [List.reverse_cons, List.dropWhile_append]
  -- either all of `rest` goes, or a part of it stays with `c` in front
  by_cases hall : (rest.reverse.dropWhile p).isEmpty = true
  · rw [if_pos hall, List.isEmpty_iff.mp hall]
    simp [h]
  · rw [if_neg hall]
    simp

theorem trim_cons {c : Char} (h : isBlank c = false) (rest : Text) :
    trim (c :: rest) = c :: trimEnd rest := by
  have hstart : trimStart (c :: rest) = c :: rest := by simp [trimStart, h]
  rw [trim, hstart]
  exact dropEndWhile_cons h rest

theorem BeginsWithName.trim {text : Text} (h : BeginsWithName (trimStart text)) :
    BeginsWithName (Text.trim text) := by
  obtain ⟨c, rest, heq, hc⟩ := h
  have htrim : Text.trim text = c :: trimEnd rest := by
    rw [Text.trim, heq]
    exact dropEndWhile_cons (not_isBlank_of_isNameStart hc) rest
  exact ⟨c, trimEnd rest, htrim, hc⟩

theorem BeginsWithName.trimStart {text : Text} (h : BeginsWithName text) :
    BeginsWithName (Text.trimStart text) := by
  obtain ⟨c, rest, heq, hc⟩ := h
  refine ⟨c, rest, ?_, hc⟩
  simp [heq, Text.trimStart, not_isBlank_of_isNameStart hc]

theorem BeginsWithName.dropEndWhile {text : Text} {p : Char → Bool} (h : BeginsWithName text)
    (hp : ∀ c, isNameStart c = true → p c = false) :
    BeginsWithName (Text.dropEndWhile p text) := by
  obtain ⟨c, rest, heq, hc⟩ := h
  exact ⟨c, Text.dropEndWhile p rest, heq ▸ dropEndWhile_cons (hp c hc) rest, hc⟩

/-! ## Words -/

theorem splitWhere_cons_of_not {p : Char → Bool} {c : Char} (h : p c = false) (rest : Text) :
    ∃ part parts, splitWhere p (c :: rest) = (c :: part) :: parts := by
  rw [splitWhere]
  simp only [h, Bool.false_eq_true, if_false]
  split
  · exact ⟨[], [], rfl⟩
  · rename_i part parts _
    exact ⟨part, parts, rfl⟩

/-- A text with a letter at its front has a first and a last word. -/
theorem BeginsWithName.words_ne_nil {text : Text} (h : BeginsWithName text) : words text ≠ [] := by
  obtain ⟨c, rest, heq, hc⟩ := h
  obtain ⟨part, parts, hsplit⟩ := splitWhere_cons_of_not (not_isBlank_of_isNameStart hc) rest
  rw [heq, words, hsplit]
  simp

/-! ## The first assignment -/

/-- No assignment operator begins with a letter. -/
theorem assignOpAt?_of_isNameStart {c : Char} (h : isNameStart c = true) (previous : Option Char)
    (rest : Text) : assignOpAt? previous (c :: rest) = none := by
  have hsign : c ∉ AssignOp.signs := fun hmem =>
    Bool.noConfusion (h.symm.trans (AssignOp.kind_of_mem_signs hmem).2.2)
  exact assignOpAt?_of_not_mem (ne_of_isNameStart h (by decide)) hsign previous rest

/-- What has been passed over when an assignment is found ends the target's reversal. -/
theorem target_of_splitAssignFrom {before text : Text} {split : AssignSplit}
    (h : splitAssignFrom before text = some split) :
    ∃ passed, split.target = trim (before.reverse ++ passed) := by
  -- `before` grows by each character that is passed, so it is general in the induction
  induction text generalizing before with
  | nil => simp [splitAssignFrom] at h
  | cons c rest ih =>
      rw [splitAssignFrom] at h
      cases hop : assignOpAt? before.head? (c :: rest) with
      | some found =>
          obtain ⟨operator, value⟩ := found
          rw [hop] at h
          injection h with h
          exact ⟨[], by simp [← h]⟩
      | none =>
          rw [hop] at h
          obtain ⟨passed, htarget⟩ := ih h
          exact ⟨c :: passed, by simpa using htarget⟩

/-- The target of an assignment begins with the letter that the text begins with. -/
theorem BeginsWithName.splitAssign {text : Text} {split : AssignSplit} (h : BeginsWithName text)
    (hsplit : splitAssign? text = some split) : BeginsWithName split.target := by
  obtain ⟨c, rest, heq, hc⟩ := h
  rw [heq, splitAssign?, splitAssignFrom, assignOpAt?_of_isNameStart hc] at hsplit
  obtain ⟨passed, htarget⟩ := target_of_splitAssignFrom hsplit
  have hblank := not_isBlank_of_isNameStart hc
  refine ⟨c, trimEnd passed, ?_, hc⟩
  rw [htarget]
  exact trim_cons hblank passed

/-! ## The leading word -/

/-- A text that leads with one of some words, none of which is empty, has a letter at the front
of its trimmed form. -/
theorem beginsWithName_of_leadsWith {keywords : List Lexeme} {text : Text}
    (hempty : "" ∉ keywords) (h : leadsWith keywords text = true) : BeginsWithName (trim text) := by
  refine BeginsWithName.trim ?_
  rw [leadsWith, List.contains_iff_mem, leadingWord] at h
  cases htext : trimStart text with
  | nil =>
      rw [htext] at h
      exact absurd h hempty
  | cons c rest =>
      rw [htext] at h
      refine ⟨c, rest, rfl, ?_⟩
      -- a first character that is no letter gives the empty word
      cases hc : isNameStart c with
      | true => rfl
      | false =>
          simp only [hc, Bool.false_eq_true, if_false] at h
          exact absurd h hempty

end Text

/-! ## Declarations -/

/-- What the extraction relies on in the tables of a dialect. -/
structure Dialect.Spec.Regular (spec : Dialect.Spec) : Prop where
  /-- No type word is empty. -/
  typeWords : "" ∉ spec.typeKeywords
  /-- No block is opened by a letter. -/
  opener : ∀ c, Text.isNameStart c = true → spec.isTerminator c = false

theorem Dialect.regular_spec (dialect : Dialect) : dialect.spec.Regular where
  typeWords := by cases dialect <;> decide
  opener := by
    intro c hc
    have hsemicolon : c ≠ ';' := Text.ne_of_isNameStart hc (by decide)
    have hbrace : c ≠ '\x7b' := Text.ne_of_isNameStart hc (by decide)
    have hcolon : c ≠ ':' := Text.ne_of_isNameStart hc (by decide)
    have hopener : c ≠ dialect.spec.blockOpener := by
      cases dialect with
      | expression => exact hbrace
      | c => exact hbrace
      | python => exact hcolon
      | java => exact hbrace
    simp [Spec.isTerminator, hsemicolon, hopener]

/-- A line that leads with a type word still begins with a letter when what ends it is gone. -/
theorem Dialect.Spec.Regular.beginsWithName_strip {spec : Dialect.Spec} (hspec : spec.Regular)
    {text : Text} (h : Text.leadsWith spec.typeKeywords text = true) :
    (spec.strip text).BeginsWithName := by
  have htrim : (Text.trim text).BeginsWithName := Text.beginsWithName_of_leadsWith hspec.typeWords h
  have hdrop := htrim.dropEndWhile hspec.opener
  exact hdrop.trimStart.trim

/-- **A line that the rule for declarations accepts has a type and a name to take out.** -/
theorem Reader.declaration_ok {r : Reader} (hspec : r.spec.Regular) {text : Text}
    (h : Declaration.isDeclaration r.spec text = true) : ∃ d, r.declaration text = .ok d := by
  have hleads : Text.leadsWith r.spec.typeKeywords text = true := by
    simp only [Declaration.isDeclaration, Bool.and_eq_true] at h
    exact h.1.1
  have hstrip := hspec.beginsWithName_strip hleads
  -- the words are taken from the target of an assignment if there is one, else from all of the line
  have hwords : (((Text.splitAssign? (r.spec.strip text)).map (·.target)).getD
      (r.spec.strip text)).BeginsWithName := by
    cases hsplit : Text.splitAssign? (r.spec.strip text) with
    | none => exact hstrip
    | some split => exact hstrip.splitAssign hsplit
  have hne := hwords.words_ne_nil
  unfold declaration
  dsimp only
  split
  · exact ⟨_, rfl⟩
  · rename_i hnone
    exact absurd (List.getLast?_eq_some_getLast hne)
      (hnone _ _ (List.head?_eq_some_head hne))

end SnippetTree
