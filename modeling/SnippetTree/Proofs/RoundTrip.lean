import SnippetTree.Proofs.ControlHeaders
import SnippetTree.Proofs.LoopHeaders
import SnippetTree.Proofs.Shows

/-!
# Statements that are written down are read again

`Dialect.Writes` says how statements are written: with single spaces, on one line, in the way of the
dialect. Whatever is written so is classified as the statement it was written for, and without a
problem (`Dialect.classify_of_writes`). The proof has two halves. The first is that no rule before
the right one accepts the line: a control word is neither a type nor the name of a function, and the
equals sign of an assignment stands before any parenthesis in its value. The second is that the
right one finds its parts, although it looks for them with no knowledge of the expressions: at the
first assignment operator, at semicolons, at the parenthesis that closes the first one.
-/

namespace SnippetTree

open SnippetTree.Text

/-! ## Lines as they come -/

namespace Text

variable {line : Text}

theorem BeginsWithName.all_isStructural (h : BeginsWithName line) :
    line.all isStructural = false := by
  obtain ⟨c, rest, rfl, hc⟩ := h
  have hother : isStructural c = false := by
    rw [isStructural, beq_eq_false_iff_ne.mpr (ne_of_isNameStart hc (by decide)),
      beq_eq_false_iff_ne.mpr (ne_of_isNameStart hc (by decide)),
      beq_eq_false_iff_ne.mpr (ne_of_isNameStart hc (by decide))]
    rfl
  rw [List.all_cons, hother, Bool.false_and]

/-- A line that begins with a name and does not end with white space is in normal form. -/
theorem BeginsWithName.normalize (h : BeginsWithName line)
    (hlast : ∀ c ∈ line.getLast?, isBlank c = false) : normalize line = line := by
  obtain ⟨c, rest, rfl, hc⟩ := h
  have hnone : ∀ c ∈ ([] : Text), isBlank c = true := by simp
  have hfirst : ∀ d ∈ (c :: rest).head?, isBlank d = false := by
    intro d hd
    obtain rfl : c = d := Option.some.inj hd
    exact not_isBlank_of_isNameStart hc
  have htrim : Text.trim (c :: rest) = c :: rest := by
    have hwhole := trim_append hnone hnone (List.cons_ne_nil c rest) hfirst hlast
    rwa [List.nil_append, List.append_nil] at hwhole
  have hbrace : (some c == some '\x7d') = false := by
    rw [beq_eq_false_iff_ne]
    exact fun heq => ne_of_isNameStart hc (by decide) (Option.some.inj heq)
  rw [Text.normalize, htrim, List.head?_cons, hbrace, Bool.false_and]
  rfl

end Text

/-- What the chosen rule takes out of such a line is kept. -/
theorem Reader.classify_of_extract {r : Reader} {rules : List Rule} {rule : Rule} {line : Text}
    {s : Statement} (hbegins : BeginsWithName line)
    (hlast : ∀ c ∈ line.getLast?, isBlank c = false)
    (hchoose : Rule.choose rules r.spec line = .ok rule)
    (hextract : rule.extract r line = .ok ⟨some s, []⟩) :
    r.classify rules line = .ok (.kept rule s []) := by
  have hne : ¬ line.isEmpty = true := by
    obtain ⟨c, rest, rfl, -⟩ := hbegins
    exact Bool.noConfusion
  have hall : ¬ line.all isStructural = true := by
    rw [hbegins.all_isStructural]
    exact Bool.noConfusion
  rw [classify, hbegins.normalize hlast, if_neg hne, if_neg hall, hchoose]
  dsimp only [bind, Except.bind]
  rw [hextract]
  rfl

/-! ## Which rule is chosen -/

/-- The first word of the header of a condition is a control word. -/
theorem ConditionWord.exists_controlKeyword (word : ConditionWord) (rest : Text) :
    ∃ control ∈ controlKeywords, ∃ more,
      word.text.toList ++ ' ' :: rest = control.toList ++ ' ' :: more := by
  cases word with
  | ifWord => exact ⟨"if", by decide, rest, rfl⟩
  | whileWord => exact ⟨"while", by decide, rest, rfl⟩
  | elifWord => exact ⟨"elif", by decide, rest, rfl⟩
  | elseIfWord => exact ⟨"else", by decide, 'i' :: 'f' :: ' ' :: rest, rfl⟩

namespace Dialect

variable {dialect : Dialect}

/-- The control words are names in lower case, and no types. -/
theorem controlKeyword_spec (dialect : Dialect) {word : Lexeme} (h : word ∈ controlKeywords) :
    isName word.toList = true ∧ String.ofList (lower word.toList) = word ∧
      word ∉ dialect.spec.typeKeywords := by
  have hall : ∀ word ∈ controlKeywords, isName word.toList = true ∧
      String.ofList (lower word.toList) = word ∧ word ∉ dialect.spec.typeKeywords := by
    cases dialect <;> decide +kernel
  exact hall word h

variable {x : Lexeme}

/-- The equals sign of an assignment stands before any parenthesis in its value. -/
theorem VariableName.isHead_assignmentText (hx : dialect.VariableName x) (operator : AssignOp)
    (w : Text) :
    FunctionHead.isHead dialect.spec (Reader.assignmentText x operator w) = false := by
  have hoperator : '=' ∈ operator.text.toList ∧ '(' ∉ operator.text.toList := by
    cases operator <;> decide
  have hpass : ∀ c ∈ x.toList ++ ' ' :: operator.text.toList, (c != '(') = true := by
    intro c hc
    rw [bne_iff_ne]
    rintro rfl
    rcases List.mem_append.mp hc with hc | hc
    · exact not_mem_of_isName hx.name (by decide) hc
    · rcases List.mem_cons.mp hc with heq | hc
      · cases heq
      · exact hoperator.2 hc
  -- what stands before the first parenthesis holds the operator, wherever the parenthesis is
  have hequals :
      ((Reader.assignmentText x operator w).takeWhile (· != '(')).contains '=' = true := by
    have htext : Reader.assignmentText x operator w =
        (x.toList ++ ' ' :: operator.text.toList) ++ ' ' :: w := by
      rw [Reader.assignmentText, List.append_assoc]
      rfl
    rw [htext, List.takeWhile_append_of_pos hpass, List.contains_iff_mem]
    exact List.mem_append_left _ (List.mem_append_right _ (List.mem_cons_of_mem _ hoperator.1))
  rw [FunctionHead.isHead, hequals, Bool.not_true, Bool.and_false, Bool.false_and]

/-- **A line that assigns to a variable is taken for nothing else.** -/
theorem VariableName.rejects_assignment (hx : dialect.VariableName x) (operator : AssignOp)
    (w : Text) :
    ∀ other ∈ [Rule.variableDeclaration, .functionDeclaration] ++ Rule.headers,
      other.accepts dialect.spec (Reader.assignmentText x operator w) = false := by
  have hleads : leadsWith controlKeywords (Reader.assignmentText x operator w) = false := by
    rw [Reader.assignmentText, leadsWith_name hx.name (by simp; decide), Bool.eq_false_iff]
    exact fun hmem => hx.no_control (List.contains_iff_mem.mp hmem)
  rw [List.forall_mem_append, List.forall_mem_cons, List.forall_mem_singleton]
  exact ⟨⟨Reader.isDeclaration_assignmentText hx operator w, hx.isHead_assignmentText operator w⟩,
    Rule.rejects_headers hleads⟩

theorem choose_declaration {spec : Dialect.Spec} {text : Text}
    (h : Declaration.isDeclaration spec text = true) :
    Rule.choose Rule.standard spec text = .ok .variableDeclaration := by
  have hnone : ∀ other ∈ ([] : List Rule), other.accepts spec text = false := by simp
  exact Rule.choose_eq rfl hnone h

theorem opens_conditionWord (word : ConditionWord) (rest : Text) :
    Rule.Opens (word.text.toList ++ ' ' :: rest) .condition := by
  cases word with
  | ifWord => exact .word (by decide) rfl
  | whileWord => exact .word (by decide) rfl
  | elifWord => exact .word (by decide) rfl
  | elseIfWord =>
      have hopens : Rule.Opens ("else".toList ++ [' '] ++ "if".toList ++ ' ' :: rest) .condition :=
        .elseIf (List.cons_ne_nil _ _) (List.forall_mem_singleton.mpr rfl) rfl
      exact hopens

theorem VariableName.choose_assignment (hx : dialect.VariableName x) (operator : AssignOp)
    (w : Text) :
    Rule.choose Rule.standard dialect.spec (Reader.assignmentText x operator w) =
      .ok .assignment :=
  Rule.choose_eq rfl (hx.rejects_assignment operator w)
    (Reader.isAssignment_assignmentText hx operator w)

end Dialect

/-! ## Conditions and values that are returned -/

namespace Reader

variable {dialect : Dialect} {limit : Nat} {w : Text} {e : Expr}

/-- A condition in parentheses ends where they close. -/
theorem conditionText_group (hopener : dialect.spec.blockOpener = '\x7b')
    (hw : dialect.Spelled limit w e) (tail : Text) :
    conditionText ⟨dialect.spec, limit⟩ (' ' :: '(' :: (w ++ ')' :: tail)) = w := by
  have hbefore : '(' ∉ [' '] := by decide
  have hcontent : parenthesized? (' ' :: '(' :: (w ++ ')' :: tail)) = some w :=
    parenthesized?_append hbefore hw.closed tail
  have hhead : ((trimStart (' ' :: '(' :: (w ++ ')' :: tail))).head? == some '(') = true := rfl
  rw [conditionText, hopener, hhead, if_pos (by decide), hcontent]
  exact hw.solid.trim_eq

/-- Elsewhere it ends where the line does. -/
theorem conditionText_open (hopener : dialect.spec.blockOpener = ':')
    (hw : dialect.Spelled limit w e) {tail : Text}
    (htail : ∀ c ∈ tail, dialect.spec.isTerminator c = true) :
    conditionText ⟨dialect.spec, limit⟩ (' ' :: (w ++ tail)) = w := by
  have hstrip := dialect.strip_space hw.solid htail
  have hcolon : ((':' : Char) == '\x7b') = false := by decide
  rw [conditionText, hopener, hcolon, Bool.false_and, hstrip]
  rfl

theorem condition_of_text {word : ConditionWord} {rest : Text} (hw : dialect.Spelled limit w e)
    (hrest : conditionText ⟨dialect.spec, limit⟩ (' ' :: rest) = w) :
    condition ⟨dialect.spec, limit⟩ (word.text.toList ++ ' ' :: rest) =
      .ok ⟨.condition word (some (.expr e)), []⟩ := by
  rw [condition, conditionHeader?_word]
  dsimp only
  rw [hrest, readIfAny_spelled hw]
  rfl

theorem returning_spelled (hw : dialect.Spelled limit w e) {tail : Text}
    (htail : ∀ c ∈ tail, dialect.spec.isTerminator c = true) :
    returning ⟨dialect.spec, limit⟩ ("return".toList ++ ' ' :: (w ++ tail)) =
      ⟨.returning (some (.expr e)), []⟩ := by
  have hstrip := dialect.strip_space hw.solid htail
  have hdrop : ("return".toList ++ ' ' :: (w ++ tail)).drop "return".length = ' ' :: (w ++ tail) :=
    List.drop_left' String.length_toList
  rw [returning, hdrop, hstrip, readIfAny_spelled hw]
  rfl

end Reader

/-! ## Statements on lines -/

namespace Dialect

variable {dialect : Dialect} {limit : Nat}

/-- How statements are written on a line of the dialect, and the rule that is meant to find them. -/
inductive Writes (dialect : Dialect) (limit : Nat) : String → Rule → Statement → Prop where
  | returning {w : String} {e : Expr} : dialect.Spells limit w e →
      Writes dialect limit ("return " ++ w ++ ";") .returning (.returning (some (.expr e)))
  | assignment {x : Lexeme} {operator : AssignOp} {w : String} {e : Expr} :
      dialect.VariableName x → dialect.Spells limit w e →
      Writes dialect limit (x ++ " " ++ operator.text ++ " " ++ w ++ ";") .assignment
        (.assignment ⟨x, ⟨operator, some (.expr e)⟩⟩)
  | bare {typeName x : Lexeme} :
      typeName ∈ dialect.spec.typeKeywords → dialect.VariableName x →
      Writes dialect limit (typeName ++ " " ++ x ++ ";") .variableDeclaration
        (.declaration ⟨typeName, x, none⟩)
  | initialised {typeName x : Lexeme} {w : String} {e : Expr} :
      typeName ∈ dialect.spec.typeKeywords → dialect.VariableName x → dialect.Spells limit w e →
      Writes dialect limit (typeName ++ " " ++ x ++ " = " ++ w ++ ";") .variableDeclaration
        (.declaration ⟨typeName, x, some ⟨.set, some (.expr e)⟩⟩)
  | conditionInBraces {word : ConditionWord} {w : String} {e : Expr} :
      dialect = .c ∨ dialect = .java → dialect.Spells limit w e →
      Writes dialect limit (word.text ++ " (" ++ w ++ ") \x7b") .condition
        (.condition word (some (.expr e)))
  | loopInBraces {typeName x : Lexeme} {operator : AssignOp} {w₁ w₂ w₃ : String}
      {e₁ e₂ e₃ : Expr} :
      dialect = .c ∨ dialect = .java → typeName ∈ dialect.spec.typeKeywords →
      dialect.VariableName x → dialect.Spells limit w₁ e₁ → dialect.Spells limit w₂ e₂ →
      dialect.Spells limit w₃ e₃ →
      Writes dialect limit
        ("for (" ++ typeName ++ " " ++ x ++ " = " ++ w₁ ++ "; " ++ w₂ ++ "; " ++
          x ++ " " ++ operator.text ++ " " ++ w₃ ++ ") \x7b") .forHeader
        (.forLoop [
          ⟨.init, .declaration ⟨typeName, x, some ⟨.set, some (.expr e₁)⟩⟩⟩,
          ⟨.condition, .reading (.expr e₂)⟩,
          ⟨.update, .assignment ⟨x, ⟨operator, some (.expr e₃)⟩⟩⟩])
  | conditionWithColon {word : ConditionWord} {w : String} {e : Expr} :
      dialect = .python → dialect.Spells limit w e →
      Writes dialect limit (word.text ++ " " ++ w ++ ":") .condition
        (.condition word (some (.expr e)))
  | loopWithColon {x : Lexeme} {w : String} {e : Expr} :
      dialect = .python → dialect.VariableName x → dialect.Spells limit w e →
      Writes dialect limit ("for " ++ x ++ " in " ++ w ++ ":") .forHeader
        (.forLoop [⟨.target, .reading (.expr (.identifier x))⟩,
          ⟨.iterable, .reading (.expr e)⟩])

/-- A line that is put together from a name, a space, and anything that does not end with white
space is classified by the rule that is chosen for it. -/
theorem classify_of_text {line before ending : String} {name rest : Text} {rule : Rule}
    {s : Statement} (htext : line.toList = name ++ ' ' :: rest) (hname : isName name = true)
    (hline : line = before ++ ending)
    (hending : ∃ c, ending.toList.getLast? = some c ∧ isBlank c = false)
    (hchoose : Rule.choose Rule.standard dialect.spec line.toList = .ok rule)
    (hextract : rule.extract ⟨dialect.spec, limit⟩ line.toList = .ok ⟨some s, []⟩) :
    Reader.classify ⟨dialect.spec, limit⟩ Rule.standard line.toList = .ok (.kept rule s []) := by
  refine Reader.classify_of_extract ?_ ?_ hchoose hextract
  · rw [htext]
    exact beginsWithName_of_isName hname _
  · obtain ⟨last, hlast, hblank⟩ := hending
    intro c hc
    rw [hline, String.toList_append, List.getLast?_append, hlast] at hc
    obtain rfl : last = c := Option.some.inj hc
    exact hblank

/-- What ends a line in the dialect may be dropped from it. -/
theorem terminators (dialect : Dialect) :
    (∀ c ∈ [';'], dialect.spec.isTerminator c = true) ∧
      (dialect.spec.blockOpener = ':' → ∀ c ∈ [':'], dialect.spec.isTerminator c = true) := by
  refine ⟨?_, ?_⟩
  · rw [List.forall_mem_singleton]
    rfl
  · intro hopener
    rw [List.forall_mem_singleton, Spec.isTerminator, hopener]
    rfl

section Lines

variable {x typeName : Lexeme} {operator : AssignOp} {word : ConditionWord} {w w₁ w₂ w₃ : String}
  {e e₁ e₂ e₃ : Expr}

theorem classify_returning (hw : dialect.Spelled limit w.toList e) :
    Reader.classify ⟨dialect.spec, limit⟩ Rule.standard ("return " ++ w ++ ";").toList =
      .ok (.kept .returning (.returning (some (.expr e))) []) := by
  have htext : ("return " ++ w ++ ";").toList = "return".toList ++ ' ' :: (w.toList ++ [';']) := by
    rw [String.toList_append, String.toList_append, List.append_assoc]
    rfl
  refine classify_of_text htext (by decide) rfl ⟨';', rfl, rfl⟩ ?_ ?_
  · rw [htext]
    exact Rule.Opens.choose (.word (by decide) rfl) dialect
  · rw [htext, Rule.extract, Reader.returning_spelled hw dialect.terminators.1]
    rfl

theorem classify_assignment (hx : dialect.VariableName x) (hw : dialect.Spelled limit w.toList e) :
    Reader.classify ⟨dialect.spec, limit⟩ Rule.standard
        (x ++ " " ++ operator.text ++ " " ++ w ++ ";").toList =
      .ok (.kept .assignment (.assignment ⟨x, ⟨operator, some (.expr e)⟩⟩) []) := by
  have htext : (x ++ " " ++ operator.text ++ " " ++ w ++ ";").toList =
      Reader.assignmentText x operator (w.toList ++ [';']) := by
    simp only [String.toList_append, List.append_assoc, Reader.assignmentText]
    rfl
  refine classify_of_text htext hx.name rfl ⟨';', rfl, rfl⟩ ?_ ?_
  · rw [htext]
    exact hx.choose_assignment operator _
  · have htail : Reader.assignmentText x operator (w.toList ++ [';']) =
        Reader.assignmentText x operator w.toList ++ [';'] := by
      simp only [Reader.assignmentText, List.append_assoc, List.cons_append]
    rw [htext, htail, Rule.extract,
      Reader.assignment_assignmentText hx operator hw dialect.terminators.1]
    rfl

theorem classify_bare (htype : typeName ∈ dialect.spec.typeKeywords)
    (hx : dialect.VariableName x) :
    Reader.classify ⟨dialect.spec, limit⟩ Rule.standard (typeName ++ " " ++ x ++ ";").toList =
      .ok (.kept .variableDeclaration (.declaration ⟨typeName, x, none⟩) []) := by
  have hbare : (typeName ++ " " ++ x ++ ";").toList = Reader.bareText typeName x ++ [';'] := by
    simp only [String.toList_append, List.append_assoc, Reader.bareText]
    rfl
  have htext : (typeName ++ " " ++ x ++ ";").toList =
      typeName.toList ++ ' ' :: (x.toList ++ [';']) := by
    rw [hbare, Reader.bareText, List.append_assoc]
    rfl
  refine classify_of_text htext (typeKeyword_spec htype).1 rfl ⟨';', rfl, rfl⟩ ?_ ?_
  · rw [hbare]
    exact choose_declaration
      (Reader.isDeclaration_bareText htype hx (List.forall_mem_singleton.mpr rfl))
  · rw [hbare, Rule.extract, Reader.declaration_bareText htype hx dialect.terminators.1]
    rfl

theorem classify_initialised (htype : typeName ∈ dialect.spec.typeKeywords)
    (hx : dialect.VariableName x) (hw : dialect.Spelled limit w.toList e) :
    Reader.classify ⟨dialect.spec, limit⟩ Rule.standard
        (typeName ++ " " ++ x ++ " = " ++ w ++ ";").toList =
      .ok (.kept .variableDeclaration
        (.declaration ⟨typeName, x, some ⟨.set, some (.expr e)⟩⟩) []) := by
  have hinit : (typeName ++ " " ++ x ++ " = " ++ w ++ ";").toList =
      Reader.initialisedText typeName x (w.toList ++ [';']) := by
    simp only [String.toList_append, List.append_assoc, Reader.initialisedText, Reader.bareText]
    rfl
  have htext : (typeName ++ " " ++ x ++ " = " ++ w ++ ";").toList =
      typeName.toList ++ ' ' :: (x.toList ++ ' ' :: '=' :: ' ' :: (w.toList ++ [';'])) := by
    rw [hinit, Reader.initialisedText, Reader.bareText, List.append_assoc]
    rfl
  refine classify_of_text htext (typeKeyword_spec htype).1 rfl ⟨';', rfl, rfl⟩ ?_ ?_
  · rw [hinit]
    exact choose_declaration (Reader.isDeclaration_initialisedText htype hx _)
  · have htail : Reader.initialisedText typeName x (w.toList ++ [';']) =
        Reader.initialisedText typeName x w.toList ++ [';'] := by
      simp only [Reader.initialisedText, List.append_assoc, List.cons_append]
    rw [hinit, htail, Rule.extract,
      Reader.declaration_initialisedText htype hx hw dialect.terminators.1]
    rfl

/-- A condition is told by the word before it, however the dialect marks its end. -/
theorem classify_condition {line before ending : String} {rest : Text}
    (htext : line.toList = word.text.toList ++ ' ' :: rest) (hline : line = before ++ ending)
    (hending : ∃ c, ending.toList.getLast? = some c ∧ isBlank c = false)
    (hw : dialect.Spelled limit w.toList e)
    (hrest : Reader.conditionText ⟨dialect.spec, limit⟩ (' ' :: rest) = w.toList) :
    Reader.classify ⟨dialect.spec, limit⟩ Rule.standard line.toList =
      .ok (.kept .condition (.condition word (some (.expr e))) []) := by
  obtain ⟨control, hmem, more, hwords⟩ := word.exists_controlKeyword rest
  obtain ⟨hname, -, -⟩ := dialect.controlKeyword_spec hmem
  refine classify_of_text (htext.trans hwords) hname hline hending ?_ ?_
  · rw [htext]
    exact (opens_conditionWord word rest).choose dialect
  · rw [htext, Rule.extract, Reader.condition_of_text hw hrest]
    rfl

theorem classify_conditionInBraces (hopener : dialect.spec.blockOpener = '\x7b')
    (hw : dialect.Spelled limit w.toList e) :
    Reader.classify ⟨dialect.spec, limit⟩ Rule.standard
        (word.text ++ " (" ++ w ++ ") \x7b").toList =
      .ok (.kept .condition (.condition word (some (.expr e))) []) := by
  have htext : (word.text ++ " (" ++ w ++ ") \x7b").toList =
      word.text.toList ++ ' ' :: ('(' :: (w.toList ++ ')' :: [' ', '\x7b'])) := by
    simp only [String.toList_append, List.append_assoc]
    rfl
  exact classify_condition htext rfl ⟨'\x7b', rfl, rfl⟩ hw
    (Reader.conditionText_group hopener hw _)

theorem classify_conditionWithColon (hopener : dialect.spec.blockOpener = ':')
    (hw : dialect.Spelled limit w.toList e) :
    Reader.classify ⟨dialect.spec, limit⟩ Rule.standard (word.text ++ " " ++ w ++ ":").toList =
      .ok (.kept .condition (.condition word (some (.expr e))) []) := by
  have htext : (word.text ++ " " ++ w ++ ":").toList =
      word.text.toList ++ ' ' :: (w.toList ++ [':']) := by
    simp only [String.toList_append, List.append_assoc]
    rfl
  exact classify_condition htext rfl ⟨':', rfl, rfl⟩ hw
    (Reader.conditionText_open hopener hw (dialect.terminators.2 hopener))

theorem classify_loopInBraces (hopener : dialect.spec.blockOpener = '\x7b')
    (htype : typeName ∈ dialect.spec.typeKeywords) (hx : dialect.VariableName x)
    (hw₁ : dialect.Spelled limit w₁.toList e₁) (hw₂ : dialect.Spelled limit w₂.toList e₂)
    (hw₃ : dialect.Spelled limit w₃.toList e₃) :
    Reader.classify ⟨dialect.spec, limit⟩ Rule.standard
        ("for (" ++ typeName ++ " " ++ x ++ " = " ++ w₁ ++ "; " ++ w₂ ++ "; " ++
          x ++ " " ++ operator.text ++ " " ++ w₃ ++ ") \x7b").toList =
      .ok (.kept .forHeader (.forLoop [
        ⟨.init, .declaration ⟨typeName, x, some ⟨.set, some (.expr e₁)⟩⟩⟩,
        ⟨.condition, .reading (.expr e₂)⟩,
        ⟨.update, .assignment ⟨x, ⟨operator, some (.expr e₃)⟩⟩⟩]) []) := by
  have htext : ("for (" ++ typeName ++ " " ++ x ++ " = " ++ w₁ ++ "; " ++ w₂ ++ "; " ++
      x ++ " " ++ operator.text ++ " " ++ w₃ ++ ") \x7b").toList = "for".toList ++
        ' ' :: '(' :: (Reader.loopText typeName x operator w₁.toList w₂.toList w₃.toList ++
          ')' :: [' ', '\x7b']) := by
    simp only [String.toList_append, List.append_assoc, Reader.loopText, Reader.initialisedText,
      Reader.bareText, Reader.assignmentText, List.cons_append]
    rfl
  refine classify_of_text htext (by decide) rfl ⟨'\x7b', rfl, rfl⟩ ?_ ?_
  · rw [htext]
    exact Rule.Opens.choose (.word (by decide) rfl) dialect
  · rw [htext, Rule.extract,
      Reader.forLoop_loopText htype hx operator hw₁ hw₂ hw₃ hopener [' ', '\x7b']]
    rfl

theorem classify_loopWithColon (hopener : dialect.spec.blockOpener = ':')
    (hline : dialect.isLineOriented = true) (hx : dialect.VariableName x)
    (hw : dialect.Spelled limit w.toList e) :
    Reader.classify ⟨dialect.spec, limit⟩ Rule.standard
        ("for " ++ x ++ " in " ++ w ++ ":").toList =
      .ok (.kept .forHeader (.forLoop [⟨.target, .reading (.expr (.identifier x))⟩,
        ⟨.iterable, .reading (.expr e)⟩]) []) := by
  have htext : ("for " ++ x ++ " in " ++ w ++ ":").toList =
      "for".toList ++ ' ' :: iterationText x.toList w.toList ++ [':'] := by
    simp only [String.toList_append, List.append_assoc, iterationText, List.cons_append]
    rfl
  have hfor : "for".toList ++ ' ' :: iterationText x.toList w.toList ++ [':'] =
      "for".toList ++ ' ' :: (iterationText x.toList w.toList ++ [':']) := by
    rw [List.append_assoc, List.cons_append]
  refine classify_of_text (htext.trans hfor) (by decide) rfl ⟨':', rfl, rfl⟩ ?_ ?_
  · rw [htext, hfor]
    exact Rule.Opens.choose (.word (by decide) rfl) dialect
  · rw [htext, Rule.extract,
      Reader.forLoop_iterationText hopener hx hw (dialect.terminators.2 hopener) hline]
    rfl

end Lines

/-- **What is written on a line is read again.** Whatever its expressions hold, the statement is
found by the rule that is meant for it, and no problem is met on the way. Whatever number is free,
the node of the line shows the statement. -/
theorem classify_of_writes (hline : dialect.isLineOriented = true) {line : String} {rule : Rule}
    {s : Statement} (h : dialect.Writes limit line rule s) :
    Reader.classify ⟨dialect.spec, limit⟩ Rule.standard line.toList = .ok (.kept rule s []) ∧
      ∀ first, ∃ t next, Reader.nodeFrom ⟨dialect.spec, limit⟩ Rule.standard line.toList first =
        .ok ⟨(some t, next), []⟩ ∧ s.Shows t := by
  suffices hkept : Reader.classify ⟨dialect.spec, limit⟩ Rule.standard line.toList =
      .ok (.kept rule s []) from ⟨hkept, Reader.nodeFrom_of_kept hkept⟩
  have hbraces : dialect = .c ∨ dialect = .java → dialect.spec.blockOpener = '\x7b' := by
    rintro (rfl | rfl) <;> rfl
  have hcolon : dialect = .python → dialect.spec.blockOpener = ':' := by
    rintro rfl
    rfl
  cases h with
  | returning hw => exact classify_returning (hw.spelled hline)
  | assignment hx hw => exact classify_assignment hx (hw.spelled hline)
  | bare htype hx => exact classify_bare htype hx
  | initialised htype hx hw => exact classify_initialised htype hx (hw.spelled hline)
  | conditionInBraces hd hw => exact classify_conditionInBraces (hbraces hd) (hw.spelled hline)
  | loopInBraces hd htype hx hw₁ hw₂ hw₃ =>
      exact classify_loopInBraces (hbraces hd) htype hx (hw₁.spelled hline) (hw₂.spelled hline)
        (hw₃.spelled hline)
  | conditionWithColon hd hw => exact classify_conditionWithColon (hcolon hd) (hw.spelled hline)
  | loopWithColon hd hx hw => exact classify_loopWithColon (hcolon hd) hline hx (hw.spelled hline)

/-- A comparison with the value of a call, in the header of a C loop. -/
theorem classify_while : Dialect.c.isLineOriented = true ∧
    Dialect.c.Writes 1 "while (n != f ( 1 )) \x7b" .condition
      (.condition .whileWord
        (some (.expr (.binary "!=" (.identifier "n") (.call "f" [.constant "1"]))))) ∧
    Reader.classify ⟨Dialect.c.spec, 1⟩ Rule.standard "while (n != f ( 1 )) \x7b".toList =
      .ok (.kept .condition
        (.condition .whileWord
          (some (.expr (.binary "!=" (.identifier "n") (.call "f" [.constant "1"]))))) []) ∧
    ∀ first, ∃ t next, Reader.nodeFrom ⟨Dialect.c.spec, 1⟩ Rule.standard
        "while (n != f ( 1 )) \x7b".toList first = .ok ⟨(some t, next), []⟩ ∧
      (Statement.condition .whileWord
        (some (.expr (.binary "!=" (.identifier "n") (.call "f" [.constant "1"]))))).Shows t := by
  have hone : Dialect.c.spec.grammar.Derives 0 [] ["1"] (.constant "1") :=
    .constant ⟨by decide +kernel, by decide⟩
  have hn : Dialect.c.spec.grammar.Derives 1 [] ["n"] (.identifier "n") :=
    .name ⟨by decide +kernel, by decide +kernel, by decide⟩
  have hf : Dialect.c.spec.grammar.NameToken "f" :=
    ⟨by decide +kernel, by decide +kernel, by decide⟩
  have harguments : ∀ argument ∈ [(["1"], Expr.constant "1")],
      Dialect.c.spec.grammar.Derives 0 Dialect.c.spec.grammar.tiers argument.1 argument.2 :=
    List.forall_mem_singleton.mpr (hone.loosen _)
  have hcall := Grammar.Derives.call hf (List.cons_ne_nil _ _) harguments
  have hderives : Dialect.c.spec.grammar.Derives 1 Dialect.c.spec.grammar.tiers
      ["n", "!=", "f", "(", "1", ")"]
      (.binary "!=" (.identifier "n") (.call "f" [.constant "1"])) :=
    .tighter (.tighter (.left rfl (by decide) (hn.loosen _) (hcall.loosen _)))
  have hwhole : ∀ w ∈ ["n", "f", "1"], Profile.extended.tokenize w.toList = [w] := by
    decide +kernel
  have hno : ∀ w ∈ ["n", "f", "1"], leadsWith Dialect.c.spec.typeKeywords w.toList = false := by
    decide +kernel
  have hspells : Dialect.c.Spells 1 (" ".intercalate ["n", "!=", "f", "(", "1", ")"])
      (.binary "!=" (.identifier "n") (.call "f" [.constant "1"])) :=
    .mk hderives fun w hw => ⟨hwhole w hw, hno w hw⟩
  have htext : ConditionWord.whileWord.text ++ " (" ++
      " ".intercalate ["n", "!=", "f", "(", "1", ")"] ++ ") \x7b" =
        "while (n != f ( 1 )) \x7b" := by decide +kernel
  have hwrites : Dialect.c.Writes 1 _ .condition (.condition .whileWord _) :=
    .conditionInBraces (.inl rfl) hspells
  rw [htext] at hwrites
  exact ⟨rfl, hwrites, classify_of_writes rfl hwrites⟩

end Dialect

end SnippetTree
