import SnippetTree.Proofs.Spelling
import SnippetTree.Statement.Rule

/-!
# Declarations and assignments as they are written

A declaration and an assignment are written in the same way on a line and in the header of a loop;
the only difference is the semicolon that ends a line. So both are dealt with here, with whatever
ends a line after them or with nothing. For each there are two facts: that the rule for it accepts
the text, and that what is taken out of the text is what was written into it. The clauses of a loop
follow from them.
-/

namespace SnippetTree

open SnippetTree.Text

namespace Dialect

variable {dialect : Dialect} {limit : Nat} {x : Lexeme} {typeName : Lexeme} {w : Text} {e : Expr}

/-- A name for a variable: it holds no point, stands for no value, and is, whatever the case of its
letters, a keyword neither of the dialect nor of control. -/
structure VariableName (dialect : Dialect) (x : Lexeme) : Prop where
  name : isName x.toList = true
  no_literal : x ∉ Lexeme.literalWords
  no_keyword : String.ofList (lower x.toList) ∉ dialect.spec.grammar.keywords
  no_control : String.ofList (lower x.toList) ∉ controlKeywords

/-! ## Names and types -/

/-- The type words are names in lower case, and keywords. -/
theorem typeKeyword_spec (h : typeName ∈ dialect.spec.typeKeywords) :
    isName typeName.toList = true ∧ String.ofList (lower typeName.toList) = typeName ∧
      typeName ∈ dialect.spec.grammar.keywords := by
  have hall : ∀ typeName ∈ dialect.spec.typeKeywords, isName typeName.toList = true ∧
      String.ofList (lower typeName.toList) = typeName ∧
        typeName ∈ dialect.spec.grammar.keywords := by
    cases dialect <;> decide +kernel
  exact hall typeName h

/-- A text that begins with a name leads with the lower-case form of the name. -/
theorem leadsWith_name {x : Text} (hx : isName x = true) {rest : Text}
    (hrest : ∀ c ∈ rest.head?, isNameChar c = false) (keywords : List Lexeme) :
    leadsWith keywords (x ++ rest) = keywords.contains (String.ofList (lower x)) := by
  have hblank : ∀ c ∈ x.head?, isBlank c = false := (solid_of_isName hx).first
  rw [leadsWith, leadingWord_append (ne_nil_of_isName hx) hblank hrest, leadingWord_of_isName hx]

theorem leadsWith_type (h : typeName ∈ dialect.spec.typeKeywords) (rest : Text) :
    leadsWith dialect.spec.typeKeywords (typeName.toList ++ ' ' :: rest) = true := by
  obtain ⟨hname, hlower, -⟩ := typeKeyword_spec h
  rw [leadsWith_name hname (by simp; decide), hlower]
  exact List.contains_iff_mem.mpr h

/-- A variable is not taken for a type. -/
theorem VariableName.no_type (h : dialect.VariableName x) {rest : Text}
    (hrest : ∀ c ∈ rest.head?, isNameChar c = false) :
    leadsWith dialect.spec.typeKeywords (x.toList ++ rest) = false := by
  rw [leadsWith_name h.name hrest, Bool.eq_false_iff]
  intro hmem
  exact h.no_keyword (typeKeyword_spec (List.contains_iff_mem.mp hmem)).2.2

/-- The keywords of the dialects are written in lower case. -/
theorem lower_keyword {keyword : Lexeme} (h : keyword ∈ dialect.spec.grammar.keywords) :
    lower keyword.toList = keyword.toList := by
  have hall : ∀ keyword ∈ dialect.spec.grammar.keywords,
      lower keyword.toList = keyword.toList := by
    cases dialect <;> decide +kernel
  exact hall keyword h

theorem VariableName.isKeyword_eq_false (h : dialect.VariableName x) :
    x.isKeyword dialect.spec.grammar.keywords = false := by
  rw [Lexeme.isKeyword, List.any_eq_false]
  intro keyword hmem heq
  rw [beq_iff_eq, lower_keyword hmem] at heq
  refine h.no_keyword ?_
  rwa [← heq, String.ofList_toList]

/-- A variable is a name to the grammar: a prefix operator is a symbol or a keyword. -/
theorem VariableName.nameToken (h : dialect.VariableName x) :
    dialect.spec.grammar.NameToken x := by
  obtain ⟨hdotted, hnumeral, hquoted⟩ := forms_of_isName h.name
  have hdrop : dropFinalLineFeed x.toList = x.toList :=
    dropFinalLineFeed_of_not_mem (not_mem_of_isName h.name (by decide))
  have hliteral : Lexeme.literalWords.contains x = false := by
    rw [Bool.eq_false_iff]
    exact fun hmem => h.no_literal (List.contains_iff_mem.mp hmem)
  -- the only prefix operator that is a word is a keyword, so no variable is one
  have hsigns : ∀ sign ∈ dialect.spec.grammar.signs, isName sign.toList = false ∨
      String.ofList (lower sign.toList) ∈ dialect.spec.grammar.keywords := by
    cases dialect <;> decide +kernel
  refine ⟨?_, ?_, ?_⟩
  · rw [Lexeme.isIdentifier, hdrop, hdotted]
  · rw [Lexeme.isConstant, Lexeme.isNumber, Lexeme.isQuoted, hdrop, hnumeral, hquoted, hliteral]
    rfl
  · intro hmem
    rcases hsigns x hmem with hsymbol | hkeyword
    · rw [h.name] at hsymbol
      exact Bool.noConfusion hsymbol
    · exact h.no_keyword hkeyword

/-- **A variable spells an expression**, its name. -/
theorem VariableName.spells (h : dialect.VariableName x) (limit : Nat) :
    dialect.Spells limit x (.identifier x) := by
  have hleaf : dialect.spec.grammar.nameLeaf x = .identifier x := by
    rw [Grammar.nameLeaf, h.isKeyword_eq_false]
    rfl
  have hderives : dialect.spec.grammar.Derives limit dialect.spec.grammar.tiers [x]
      (.identifier x) := by
    rw [← hleaf]
    exact (Grammar.Derives.name h.nameToken).loosen _
  have hnone : ∀ c ∈ ([] : Text).head?, isNameChar c = false := by simp
  have hno := h.no_type hnone
  rw [List.append_nil] at hno
  have hword : dialect.LineWord x := .of_isDottedName (forms_of_isName h.name).1 hno
  have hspells : dialect.Spells limit (" ".intercalate [x]) (.identifier x) :=
    .mk hderives (List.forall_mem_singleton.mpr hword)
  rwa [String.intercalate_singleton] at hspells

end Dialect

namespace Reader

variable {dialect : Dialect} {limit : Nat} {x typeName : Lexeme} {w tail : Text} {e : Expr}

theorem readIfAny_spelled (h : dialect.Spelled limit w e) :
    readIfAny ⟨dialect.spec, limit⟩ w = ⟨some (.expr e), []⟩ := by
  have hne : ¬ w.isEmpty = true := by simpa using h.solid.ne_nil
  rw [readIfAny, if_neg hne, h.read]
  rfl

theorem assigned_spelled (h : dialect.Spelled limit w e) (operator : AssignOp) :
    assigned ⟨dialect.spec, limit⟩ operator w = ⟨⟨operator, some (.expr e)⟩, []⟩ := by
  rw [assigned, readIfAny_spelled h]
  rfl

/-! ## Assignments -/

/-- An assignment as it is written. -/
def assignmentText (x : Lexeme) (operator : AssignOp) (w : Text) : Text :=
  x.toList ++ ' ' :: (operator.text.toList ++ ' ' :: w)

theorem solid_assignmentText (hx : dialect.VariableName x) (operator : AssignOp)
    (hw : dialect.Spelled limit w e) : Solid (assignmentText x operator w) := by
  have hsolid := (solid_of_isName hx.name).append hw.solid (' ' :: (operator.text.toList ++ [' ']))
  rwa [List.cons_append, List.append_assoc] at hsolid

/-- The assignment is cut at its operator. -/
theorem splitAssign?_assignmentText (hx : dialect.VariableName x) (operator : AssignOp)
    (w : Text) : splitAssign? (assignmentText x operator w) =
      some ⟨x.toList, operator, trim (' ' :: w)⟩ := by
  have htarget : trim (x.toList ++ [' ']) = x.toList := by
    exact (solid_of_isName hx.name).trim_append_space
  rw [assignmentText, splitAssign?_append (not_mem_of_isName hx.name (by decide)), htarget]

theorem isAssignment_assignmentText (hx : dialect.VariableName x) (operator : AssignOp)
    (w : Text) : Assignment.isAssignment (assignmentText x operator w) = true := by
  have hnone : x.toList.any (fun c => c == '(' || c == '"' || c == '\'') = false := by
    rw [List.any_eq_false]
    intro c hc
    have hname := isNameChar_of_mem hx.name hc
    rw [beq_eq_false_iff_ne.mpr (ne_of_isNameChar hname (by decide)),
      beq_eq_false_iff_ne.mpr (ne_of_isNameChar hname (by decide)),
      beq_eq_false_iff_ne.mpr (ne_of_isNameChar hname (by decide))]
    exact Bool.noConfusion
  rw [Assignment.isAssignment, splitAssign?_assignmentText hx]
  dsimp only
  rw [hnone]
  rfl

/-- An assignment to a variable declares nothing. -/
theorem isDeclaration_assignmentText (hx : dialect.VariableName x) (operator : AssignOp)
    (w : Text) : Declaration.isDeclaration dialect.spec (assignmentText x operator w) = false := by
  have hno : leadsWith dialect.spec.typeKeywords (assignmentText x operator w) = false :=
    hx.no_type (by simp; decide)
  rw [Declaration.isDeclaration, hno, Bool.false_and, Bool.false_and]

/-- **An assignment is taken apart as it was written.** -/
theorem assignment_assignmentText (hx : dialect.VariableName x) (operator : AssignOp)
    (hw : dialect.Spelled limit w e) (htail : ∀ c ∈ tail, dialect.spec.isTerminator c = true) :
    assignment ⟨dialect.spec, limit⟩ (assignmentText x operator w ++ tail) =
      .ok ⟨⟨x, ⟨operator, some (.expr e)⟩⟩, []⟩ := by
  have hstrip := dialect.strip_tail (solid_assignmentText hx operator hw) htail
  -- the value is stripped once more, and there is nothing left to drop
  have hagain := dialect.strip_solid hw.solid
  rw [assignment, hstrip, splitAssign?_assignmentText hx, hw.solid.trim_space]
  dsimp only [Option.or]
  rw [hagain, assigned_spelled hw, String.ofList_toList]
  rfl

/-! ## Declarations -/

/-- A declaration without a value as it is written. -/
def bareText (typeName x : Lexeme) : Text :=
  typeName.toList ++ ' ' :: x.toList

/-- A declaration with a value as it is written. -/
def initialisedText (typeName x : Lexeme) (w : Text) : Text :=
  bareText typeName x ++ ' ' :: ('=' :: ' ' :: w)

section Declarations

variable (htype : typeName ∈ dialect.spec.typeKeywords) (hx : dialect.VariableName x)

include htype hx

theorem solid_bareText : Solid (bareText typeName x) :=
  (solid_of_isName (Dialect.typeKeyword_spec htype).1).append (solid_of_isName hx.name) [' ']

theorem solid_initialisedText (hw : dialect.Spelled limit w e) :
    Solid (initialisedText typeName x w) :=
  (solid_bareText htype hx).append hw.solid [' ', '=', ' ']

/-- The declarator holds nothing but the two names and the space between them. -/
theorem mem_bareText {c : Char} (hc : c ∈ bareText typeName x) : isNameChar c = true ∨ c = ' ' := by
  rw [bareText, List.mem_append, List.mem_cons] at hc
  rcases hc with hc | rfl | hc
  · exact .inl (isNameChar_of_mem (Dialect.typeKeyword_spec htype).1 hc)
  · exact .inr rfl
  · exact .inl (isNameChar_of_mem hx.name hc)

theorem not_mem_bareText {d : Char} (hd : isNameChar d = false) (hspace : d ≠ ' ') :
    d ∉ bareText typeName x := by
  intro hmem
  rcases mem_bareText htype hx hmem with hname | heq
  · rw [hname] at hd
    exact Bool.noConfusion hd
  · exact hspace heq

theorem words_bareText : words (bareText typeName x) = [typeName.toList, x.toList] := by
  obtain ⟨hname, -, -⟩ := Dialect.typeKeyword_spec htype
  exact words_pair (ne_nil_of_isName hname) (ne_nil_of_isName hx.name)
    (fun c hc => not_isBlank_of_isNameChar (isNameChar_of_mem hname hc))
    (fun c hc => not_isBlank_of_isNameChar (isNameChar_of_mem hx.name hc))

/-- The declarator is the target of the assignment to it. -/
theorem splitAssign?_initialisedText (w : Text) : splitAssign? (initialisedText typeName x w) =
    some ⟨bareText typeName x, .set, trim (' ' :: w)⟩ := by
  have htarget : trim (bareText typeName x ++ [' ']) = bareText typeName x :=
    (solid_bareText htype hx).trim_append_space
  have hsplit := splitAssign?_append (not_mem_bareText htype hx (by decide) (by decide)) .set w
  rw [htarget] at hsplit
  exact hsplit

theorem splitAssign?_bareText (htail : ∀ c ∈ tail, c = ';') :
    splitAssign? (bareText typeName x ++ tail) = none := by
  refine (inert_of_not_mem ?_).splitAssign?
  intro hmem
  rcases List.mem_append.mp hmem with hmem | hmem
  · exact not_mem_bareText htype hx (by decide) (by decide) hmem
  · exact absurd (htail '=' hmem) (by decide)

/-- What is declared is no call. -/
theorem contains_opener_bareText : (bareText typeName x).contains '(' = false := by
  rw [Bool.eq_false_iff]
  intro hmem
  exact not_mem_bareText htype hx (by decide) (by decide) (List.contains_iff_mem.mp hmem)

theorem isDeclaration_initialisedText (w : Text) :
    Declaration.isDeclaration dialect.spec (initialisedText typeName x w) = true := by
  have hleads : leadsWith dialect.spec.typeKeywords (initialisedText typeName x w) = true := by
    rw [initialisedText, bareText, List.append_assoc]
    exact Dialect.leadsWith_type htype _
  rw [Declaration.isDeclaration, splitAssign?_initialisedText htype hx, hleads]
  dsimp only
  rw [contains_opener_bareText htype hx, words_bareText htype hx]
  rfl

theorem isDeclaration_bareText (htail : ∀ c ∈ tail, c = ';') :
    Declaration.isDeclaration dialect.spec (bareText typeName x ++ tail) = true := by
  have hleads : leadsWith dialect.spec.typeKeywords (bareText typeName x ++ tail) = true := by
    rw [bareText, List.append_assoc]
    exact Dialect.leadsWith_type htype _
  have hsolid := solid_bareText htype hx
  have hends : ∀ c ∈ tail, (c == ';') = true := by
    intro c hc
    rw [htail c hc]
    rfl
  have hlast : ∀ c ∈ (bareText typeName x).getLast?, (c == ';') = false := by
    intro c hc
    have hend := (hsolid.last c hc).2
    rw [isLineEnd, Bool.or_eq_false_iff, Bool.or_eq_false_iff] at hend
    exact hend.1.1
  have hwhole : trim (dropEndWhile (· == ';') (bareText typeName x ++ tail)) =
      bareText typeName x := by
    rw [dropEndWhile_append hends, dropEndWhile_of_last hlast, hsolid.trim_eq]
  rw [Declaration.isDeclaration, splitAssign?_bareText htype hx htail, hleads]
  dsimp only
  rw [hwhole, contains_opener_bareText htype hx, words_bareText htype hx]
  rfl

/-- **A declaration with a value is taken apart as it was written.** -/
theorem declaration_initialisedText (hw : dialect.Spelled limit w e)
    (htail : ∀ c ∈ tail, dialect.spec.isTerminator c = true) :
    declaration ⟨dialect.spec, limit⟩ (initialisedText typeName x w ++ tail) =
      .ok ⟨⟨typeName, x, some ⟨.set, some (.expr e)⟩⟩, []⟩ := by
  have hstrip := dialect.strip_tail (solid_initialisedText htype hx hw) htail
  have hlast : [typeName.toList, x.toList].getLast? = some x.toList := rfl
  rw [declaration, hstrip, splitAssign?_initialisedText htype hx, hw.solid.trim_space]
  dsimp only [Option.map_some, Option.getD_some]
  rw [words_bareText htype hx, hlast, List.head?_cons]
  dsimp only
  rw [assigned_spelled hw, String.ofList_toList, String.ofList_toList]
  rfl

/-- **A declaration without a value is taken apart as it was written.** -/
theorem declaration_bareText (htail : ∀ c ∈ tail, dialect.spec.isTerminator c = true) :
    declaration ⟨dialect.spec, limit⟩ (bareText typeName x ++ tail) =
      .ok ⟨⟨typeName, x, none⟩, []⟩ := by
  have hstrip := dialect.strip_tail (solid_bareText htype hx) htail
  have hsplit : splitAssign? (bareText typeName x) = none :=
    (inert_of_not_mem (not_mem_bareText htype hx (by decide) (by decide))).splitAssign?
  have hlast : [typeName.toList, x.toList].getLast? = some x.toList := rfl
  rw [declaration, hstrip, hsplit]
  dsimp only [Option.map_none, Option.getD_none]
  rw [words_bareText htype hx, hlast, List.head?_cons]
  dsimp only
  rw [String.ofList_toList, String.ofList_toList]
  rfl

end Declarations

/-! ## Clauses of loops -/

section Clauses

variable (role : ClauseRole)

theorem clause_initialisedText (htype : typeName ∈ dialect.spec.typeKeywords)
    (hx : dialect.VariableName x) (hw : dialect.Spelled limit w e) :
    clause ⟨dialect.spec, limit⟩ role (initialisedText typeName x w) =
      .ok ⟨⟨role, .declaration ⟨typeName, x, some ⟨.set, some (.expr e)⟩⟩⟩, []⟩ := by
  have hnone : ∀ c ∈ ([] : Text), dialect.spec.isTerminator c = true := by simp
  have hdeclaration := declaration_initialisedText htype hx hw hnone
  rw [List.append_nil] at hdeclaration
  rw [clause, if_pos (isDeclaration_initialisedText htype hx w), hdeclaration]
  rfl

theorem clause_assignmentText (hx : dialect.VariableName x) (operator : AssignOp)
    (hw : dialect.Spelled limit w e) :
    clause ⟨dialect.spec, limit⟩ role (assignmentText x operator w) =
      .ok ⟨⟨role, .assignment ⟨x, ⟨operator, some (.expr e)⟩⟩⟩, []⟩ := by
  have hnone : ∀ c ∈ ([] : Text), dialect.spec.isTerminator c = true := by simp
  have hassignment := assignment_assignmentText hx operator hw hnone
  rw [List.append_nil] at hassignment
  have hno : ¬ Declaration.isDeclaration dialect.spec (assignmentText x operator w) = true := by
    rw [isDeclaration_assignmentText hx]
    exact Bool.noConfusion
  rw [clause, if_neg hno, if_pos (isAssignment_assignmentText hx operator w), hassignment]
  rfl

/-- An expression declares nothing and assigns nothing, whatever it compares. -/
theorem clause_spelled (hw : dialect.Spelled limit w e) :
    clause ⟨dialect.spec, limit⟩ role w = .ok ⟨⟨role, .reading (.expr e)⟩, []⟩ := by
  have hdeclaration : ¬ Declaration.isDeclaration dialect.spec w = true := by
    rw [Declaration.isDeclaration, hw.no_type, Bool.false_and, Bool.false_and]
    exact Bool.noConfusion
  have hassignment : ¬ Assignment.isAssignment w = true := by
    rw [Assignment.isAssignment, hw.no_assignment]
    exact Bool.noConfusion
  rw [clause, if_neg hdeclaration, if_neg hassignment, hw.read]
  rfl

end Clauses

end Reader

end SnippetTree
