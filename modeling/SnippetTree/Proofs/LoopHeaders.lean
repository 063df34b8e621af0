import SnippetTree.Proofs.Clauses

/-!
# Headers of loops as they are written

The header of a loop has its clauses between semicolons, within parentheses, or around the word
`in`. In both forms the clauses are cut out of the line by characters alone. They are found as they
were written, because an expression closes its parentheses, holds no semicolon, and comes after `in`
and not before.
-/

namespace SnippetTree

open SnippetTree.Text

/-! ## Around `in` -/

namespace Text

/-- The iterable is found after `in`. -/
theorem afterIn?_iterable {w : Text} (hw : Solid w) (hline : '\n' ∉ w) :
    afterIn? (' ' :: 'i' :: 'n' :: ' ' :: w) = some w := by
  have hword : trimStart (' ' :: 'i' :: 'n' :: ' ' :: w) = 'i' :: 'n' :: ' ' :: w := rfl
  have hafter : after? ['i', 'n'] ('i' :: 'n' :: ' ' :: w) = some (' ' :: w) := rfl
  have htrim : trimStart (' ' :: w) = w := by
    cases w with
    | nil => exact absurd rfl hw.ne_nil
    | cons c w =>
        have hc : ¬ isBlank c = true := Bool.eq_false_iff.mp (hw.first c rfl)
        have hspace : isBlank ' ' = true := by decide
        rw [trimStart, List.dropWhile_cons_of_pos hspace, List.dropWhile_cons_of_neg hc]
  have hblank : ((' ' :: w).takeWhile isBlank).isEmpty = false := rfl
  have hne : w.isEmpty = false := by simpa using hw.ne_nil
  have hfeed : w.contains '\n' = false := by simpa using hline
  rw [afterIn?, hword, hafter]
  dsimp only
  rw [htrim, hblank, hne, hfeed]
  rfl

/-- A target and an iterable as they are written. -/
def iterationText (x w : Text) : Text :=
  x ++ ' ' :: 'i' :: 'n' :: ' ' :: w

theorem iterationText_cons (c : Char) (x w : Text) :
    iterationText (c :: x) w = c :: iterationText x w := rfl

/-- A name is passed over, and what is after it is split at `in`. -/
theorem splitInFrom_name {x w : Text} (hx : ∀ c ∈ x, isNameChar c = true) (hne : x ≠ [])
    (hw : Solid w) (hline : '\n' ∉ w) (before : Text) :
    splitInFrom before (iterationText x w) = some (before.reverse ++ x, w) := by
  -- each character of the name goes over to `before`, so that is general in the induction
  induction x generalizing before with
  | nil => exact absurd rfl hne
  | cons c x ih =>
      have hfeed : c ≠ '\n' := ne_of_isNameChar (hx c (List.mem_cons_self ..)) (by decide)
      rw [iterationText_cons, splitInFrom, if_neg hfeed]
      cases x with
      | nil =>
          rw [iterationText, List.nil_append, afterIn?_iterable hw hline]
          dsimp only
          rw [List.reverse_cons]
      | cons d x =>
          -- `in` would have to be separated from the name before it
          have hd : ¬ isBlank d = true := Bool.eq_false_iff.mp
            (not_isBlank_of_isNameChar (hx d (List.mem_cons_of_mem _ (List.mem_cons_self ..))))
          have hnone : afterIn? (iterationText (d :: x) w) = none := by
            rw [afterIn?, iterationText_cons, List.takeWhile_cons_of_neg hd]
            rfl
          rw [hnone]
          dsimp only
          rw [ih (fun e he => hx e (List.mem_cons_of_mem _ he)) (List.cons_ne_nil d x),
            List.reverse_cons, List.append_assoc]
          rfl

/-- The target and the iterable are found as they were written. -/
theorem forIn?_iterationText {x w : Text} (hx : isName x = true) (hw : Solid w)
    (hline : '\n' ∉ w) : forIn? ("for".toList ++ ' ' :: iterationText x w) = some (x, w) := by
  have hafter : after? ['f', 'o', 'r'] ("for".toList ++ ' ' :: iterationText x w) =
      some (' ' :: iterationText x w) := rfl
  have hgap : (' ' :: iterationText x w).takeWhile isBlank = [' '] := by
    cases x with
    | nil => cases hx
    | cons c x =>
        have hname := isNameChar_of_mem hx (List.mem_cons_self ..)
        have hc : ¬ isBlank c = true := Bool.eq_false_iff.mp (not_isBlank_of_isNameChar hname)
        have hspace : isBlank ' ' = true := by decide
        rw [List.takeWhile_cons_of_pos hspace, iterationText_cons, List.takeWhile_cons_of_neg hc]
  -- the gap is one space, and none of it is kept for the target
  have hsplit : splitInFrom [] ((' ' :: iterationText x w).drop 1) = some (x, w) :=
    splitInFrom_name (fun c hc => isNameChar_of_mem hx hc) (ne_nil_of_isName hx) hw hline []
  rw [forIn?, hafter]
  dsimp only
  rw [hgap, List.length_singleton, List.range_one, List.findSome?_cons, Nat.sub_zero, hsplit]

end Text

/-! ## Between semicolons -/

namespace Reader

variable {dialect : Dialect} {limit : Nat} {x typeName : Lexeme} {w w₁ w₂ w₃ : Text}
  {e e₁ e₂ e₃ : Expr}

/-- The header of a loop with semicolons as it is written. -/
def loopText (typeName x : Lexeme) (operator : AssignOp) (w₁ w₂ w₃ : Text) : Text :=
  initialisedText typeName x w₁ ++
    ';' :: (' ' :: w₂ ++ ';' :: (' ' :: assignmentText x operator w₃))

section

variable (htype : typeName ∈ dialect.spec.typeKeywords) (hx : dialect.VariableName x)
  (operator : AssignOp) (hw₁ : dialect.Spelled limit w₁ e₁) (hw₂ : dialect.Spelled limit w₂ e₂)
  (hw₃ : dialect.Spelled limit w₃ e₃)

include htype hx hw₁ in
theorem initialisedText_spec :
    Closed (initialisedText typeName x w₁) ∧ ';' ∉ initialisedText typeName x w₁ := by
  have hspace : Closed [' '] := closed_singleton (by decide)
  have hequals : Closed ['='] := closed_singleton (by decide)
  have hbare : Closed (bareText typeName x) := by
    refine closed_of_forall ?_
    intro c hc
    refine ⟨?_, ?_⟩
    · rintro rfl
      exact not_mem_bareText htype hx (by decide) (by decide) hc
    · rintro rfl
      exact not_mem_bareText htype hx (by decide) (by decide) hc
  refine ⟨hbare.append (hspace.append (hequals.append (hspace.append hw₁.closed))), ?_⟩
  intro hmem
  rw [initialisedText, List.mem_append, List.mem_cons, List.mem_cons, List.mem_cons] at hmem
  rcases hmem with hmem | heq | heq | heq | hmem
  · exact not_mem_bareText htype hx (by decide) (by decide) hmem
  · cases heq
  · cases heq
  · cases heq
  · exact (hw₁.chars ';' hmem).1 rfl

include hx hw₃ in
theorem assignmentText_spec :
    Closed (assignmentText x operator w₃) ∧ ';' ∉ assignmentText x operator w₃ := by
  have hoperator : '(' ∉ operator.text.toList ∧ ')' ∉ operator.text.toList ∧
      ';' ∉ operator.text.toList := by
    cases operator <;> decide
  have hname : Closed x.toList := by
    refine closed_of_forall ?_
    intro c hc
    have hchar := isNameChar_of_mem hx.name hc
    exact ⟨ne_of_isNameChar hchar (by decide), ne_of_isNameChar hchar (by decide)⟩
  have hspace : Closed [' '] := closed_singleton (by decide)
  have hsign : Closed operator.text.toList := by
    refine closed_of_forall ?_
    intro c hc
    refine ⟨?_, ?_⟩
    · rintro rfl
      exact hoperator.1 hc
    · rintro rfl
      exact hoperator.2.1 hc
  refine ⟨hname.append (hspace.append (hsign.append (hspace.append hw₃.closed))), ?_⟩
  intro hmem
  rw [assignmentText, List.mem_append, List.mem_cons, List.mem_append, List.mem_cons] at hmem
  rcases hmem with hmem | heq | hmem | heq | hmem
  · exact not_mem_of_isName hx.name (by decide) hmem
  · cases heq
  · exact hoperator.2.2 hmem
  · cases heq
  · exact (hw₃.chars ';' hmem).1 rfl

include htype hx hw₁ hw₂ hw₃ in
/-- The header of a loop closes what it opens. -/
theorem closed_loopText : Closed (loopText typeName x operator w₁ w₂ w₃) := by
  have hsemicolon : Closed [';'] := closed_singleton (by decide)
  have hspace : Closed [' '] := closed_singleton (by decide)
  have hinit := (initialisedText_spec htype hx hw₁).1
  have hupdate := (assignmentText_spec hx operator hw₃).1
  exact hinit.append (hsemicolon.append ((hspace.append hw₂.closed).append
    (hsemicolon.append (hspace.append hupdate))))

include htype hx hw₁ hw₂ hw₃ in
/-- The only semicolons in the header of a loop are those between its clauses. -/
theorem splitAt_loopText : splitAt ';' (loopText typeName x operator w₁ w₂ w₃) =
    [initialisedText typeName x w₁, ' ' :: w₂, ' ' :: assignmentText x operator w₃] := by
  have hspace : (';' : Char) ≠ ' ' := by decide
  have hinit := (initialisedText_spec htype hx hw₁).2
  have hcondition : ';' ∉ ' ' :: w₂ :=
    List.not_mem_cons_of_ne_of_not_mem hspace fun hmem => (hw₂.chars ';' hmem).1 rfl
  have hupdate : ';' ∉ ' ' :: assignmentText x operator w₃ :=
    List.not_mem_cons_of_ne_of_not_mem hspace (assignmentText_spec hx operator hw₃).2
  rw [loopText, splitAt_append_cons, splitAt_append_cons, splitAt_of_not_mem hinit,
    splitAt_of_not_mem hcondition, splitAt_of_not_mem hupdate]
  rfl

include htype hx hw₁ hw₂ hw₃ in
/-- **The clauses of a loop are found between its semicolons.** -/
theorem clauseTexts_loopText (hopener : dialect.spec.blockOpener = '\x7b') (tail : Text) :
    clauseTexts ⟨dialect.spec, limit⟩
        ("for".toList ++ ' ' :: '(' :: (loopText typeName x operator w₁ w₂ w₃ ++ ')' :: tail)) =
      [(.init, initialisedText typeName x w₁), (.condition, w₂),
        (.update, assignmentText x operator w₃)] := by
  -- first the parentheses around all clauses are found, then the semicolons between them
  have hbefore : '(' ∉ "for".toList ++ [' '] := by decide
  have hcontent : parenthesized? ("for".toList ++ ' ' :: '(' ::
      (loopText typeName x operator w₁ w₂ w₃ ++ ')' :: tail)) =
        some (loopText typeName x operator w₁ w₂ w₃) :=
    parenthesized?_append hbefore (closed_loopText htype hx operator hw₁ hw₂ hw₃) tail
  have hparts := splitAt_loopText htype hx operator hw₁ hw₂ hw₃
  have hsemicolon : (loopText typeName x operator w₁ w₂ w₃).contains ';' = true :=
    List.contains_iff_mem.mpr (List.mem_append_right _ (List.mem_cons_self ..))
  have hinitSolid : Solid (initialisedText typeName x w₁) := solid_initialisedText htype hx hw₁
  have hupdateSolid := solid_assignmentText hx operator hw₃
  rw [clauseTexts, hcontent, hopener, if_neg (by decide)]
  dsimp only [Option.getD_some]
  rw [if_pos hsemicolon, hparts]
  simp only [List.zip_cons_cons, List.zip_nil_right, List.map_cons, List.map_nil]
  rw [hinitSolid.trim_eq, hw₂.solid.trim_space, hupdateSolid.trim_space]
  simp [hinitSolid.ne_nil, hw₂.solid.ne_nil, hupdateSolid.ne_nil]

include htype hx hw₁ hw₂ hw₃ in
theorem forLoop_loopText (hopener : dialect.spec.blockOpener = '\x7b') (tail : Text) :
    forLoop ⟨dialect.spec, limit⟩
        ("for".toList ++ ' ' :: '(' :: (loopText typeName x operator w₁ w₂ w₃ ++ ')' :: tail)) =
      .ok ⟨.forLoop [
        ⟨.init, .declaration ⟨typeName, x, some ⟨.set, some (.expr e₁)⟩⟩⟩,
        ⟨.condition, .reading (.expr e₂)⟩,
        ⟨.update, .assignment ⟨x, ⟨operator, some (.expr e₃)⟩⟩⟩], []⟩ := by
  rw [forLoop, clauseTexts_loopText htype hx operator hw₁ hw₂ hw₃ hopener, List.mapM_cons,
    List.mapM_cons, List.mapM_cons, List.mapM_nil]
  dsimp only
  rw [clause_initialisedText .init htype hx hw₁, clause_spelled .condition hw₂,
    clause_assignmentText .update hx operator hw₃]
  rfl

end

/-! ## The target and the iterable -/

section

variable (hopener : dialect.spec.blockOpener = ':') (hx : dialect.VariableName x)
  (hw : dialect.Spelled limit w e) {tail : Text}
  (htail : ∀ c ∈ tail, dialect.spec.isTerminator c = true)

include hopener hx hw htail

/-- **The target and the iterable of a loop are found around `in`.** -/
theorem clauseTexts_iterationText :
    clauseTexts ⟨dialect.spec, limit⟩ ("for".toList ++ ' ' :: iterationText x.toList w ++ tail) =
      [(.target, x.toList), (.iterable, w)] := by
  have hfor : isName "for".toList = true := by decide
  have hiteration : Solid (iterationText x.toList w) :=
    (solid_of_isName hx.name).append hw.solid [' ', 'i', 'n', ' ']
  have hsolid : Solid ("for".toList ++ ' ' :: iterationText x.toList w) :=
    (solid_of_isName hfor).append hiteration [' ']
  have hstrip := dialect.strip_tail hsolid htail
  have hline : '\n' ∉ w := fun hmem => (hw.chars '\n' hmem).2 rfl
  rw [clauseTexts, hopener, if_pos (by decide), hstrip,
    forIn?_iterationText hx.name hw.solid hline]
  dsimp only
  rw [(solid_of_isName hx.name).trim_eq, hw.solid.trim_eq]

theorem forLoop_iterationText (hline : dialect.isLineOriented = true) :
    forLoop ⟨dialect.spec, limit⟩ ("for".toList ++ ' ' :: iterationText x.toList w ++ tail) =
      .ok ⟨.forLoop [⟨.target, .reading (.expr (.identifier x))⟩,
        ⟨.iterable, .reading (.expr e)⟩], []⟩ := by
  -- the target is read as any other expression is
  have htarget : dialect.Spelled limit x.toList (.identifier x) := (hx.spells limit).spelled hline
  rw [forLoop, clauseTexts_iterationText hopener hx hw htail, List.mapM_cons, List.mapM_cons,
    List.mapM_nil]
  dsimp only
  rw [clause_spelled .target htarget, clause_spelled .iterable hw]
  rfl

end

end Reader

end SnippetTree
