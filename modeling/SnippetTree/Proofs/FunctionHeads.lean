import SnippetTree.Proofs.Outcomes
import SnippetTree.Proofs.RoundTrip

/-!
# Heads of functions that are written down are read again

`Dialect.WritesHead` says how the head of a function is written: where braces open blocks, with its
return type in front and the type of each parameter before its name; where a colon does, after
`def`, with types and defaults behind the names and the return type behind an arrow. Whatever is
written so is classified as the head it was written for, without a problem, and the tree shows its
parts and nothing else (`Dialect.classify_of_writesHead`).

The line is taken apart by searches that know nothing of one another: the first opening
parenthesis, the first closing one, the one that closes the first, commas, and within a parameter
the first equals sign and the first colon. They agree because no name, no type and no default holds
a parenthesis or a comma. What is common to all dialects is therefore said once, of words in front
of a group (`headText`).
-/

namespace SnippetTree

open SnippetTree.Text

/-! ## Names, points and spaces -/

namespace Text

theorem ne_nil_of_isDottedName {x : Text} (h : isDottedName x = true) : x ≠ [] := by
  rintro rfl
  exact Bool.noConfusion h

/-- A character that is neither part of a name nor a point is in no identifier. -/
theorem not_mem_of_isDottedName {x : Text} (h : isDottedName x = true) {d : Char}
    (hd : isNameChar d = false) (hpoint : d ≠ '.') : d ∉ x := by
  intro hmem
  rcases nameChar_or_point h hmem with hname | rfl
  · exact ne_of_isNameChar hname hd rfl
  · exact hpoint rfl

theorem not_isBlank_of_mem_isDottedName {x : Text} (h : isDottedName x = true) {c : Char}
    (hc : c ∈ x) : isBlank c = false := by
  rcases nameChar_or_point h hc with hname | rfl
  · exact not_isBlank_of_isNameChar hname
  · decide

theorem solid_of_isDottedName {x : Text} (h : isDottedName x = true) : Solid x where
  ne_nil := ne_nil_of_isDottedName h
  first := fun c hc => not_isBlank_of_mem_isDottedName h (List.mem_of_mem_head? hc)
  last := by
    intro c hc
    have hmem := List.mem_of_getLast? hc
    refine ⟨not_isBlank_of_mem_isDottedName h hmem, ?_⟩
    rw [isLineEnd, Bool.or_eq_false_iff, Bool.or_eq_false_iff, beq_eq_false_iff_ne,
      beq_eq_false_iff_ne, beq_eq_false_iff_ne]
    refine ⟨⟨?_, ?_⟩, ?_⟩
    · rintro rfl
      exact not_mem_of_isDottedName h (by decide) (by decide) hmem
    · rintro rfl
      exact not_mem_of_isDottedName h (by decide) (by decide) hmem
    · rintro rfl
      exact not_mem_of_isDottedName h (by decide) (by decide) hmem

/-- An identifier holds nothing that separates parameters or ends the group of them. -/
theorem plain_of_isDottedName {x : Text} (h : isDottedName x = true) :
    ∀ c ∈ x, c ≠ ',' ∧ c ≠ '(' ∧ c ≠ ')' := by
  intro c hc
  refine ⟨?_, ?_, ?_⟩
  all_goals
    rintro rfl
    exact not_mem_of_isDottedName h (by decide) (by decide) hc

section Identifiers

variable {words : List Lexeme} (h : ∀ w ∈ words, isDottedName w.toList = true)

include h

theorem words_spaced : Text.words (spaced words) = words.map String.toList := by
  refine words_join ?_
  intro part hpart
  obtain ⟨w, hw, rfl⟩ := List.mem_map.mp hpart
  exact ⟨ne_nil_of_isDottedName (h w hw), fun c hc => not_isBlank_of_mem_isDottedName (h w hw) hc⟩

theorem not_mem_spaced {d : Char} (hd : isNameChar d = false) (hpoint : d ≠ '.')
    (hspace : d ≠ ' ') : d ∉ spaced words := by
  intro hmem
  rcases mem_spaced hmem with heq | ⟨w, hw, hc⟩
  · exact hspace heq
  · exact not_mem_of_isDottedName (h w hw) hd hpoint hc

theorem no_equals_spaced : '=' ∉ spaced words :=
  not_mem_spaced h (by decide) (by decide) (by decide)

theorem solid_words (hne : words ≠ []) : Solid (spaced words) :=
  solid_spaced_of_solid hne fun w hw => solid_of_isDottedName (h w hw)

theorem plain_spaced : ∀ c ∈ spaced words, c ≠ ',' ∧ c ≠ '(' ∧ c ≠ ')' := by
  intro c hc
  rcases mem_spaced hc with rfl | ⟨w, hw, hc⟩
  · decide
  · exact plain_of_isDottedName (h w hw) c hc

end Identifiers

theorem spaced_concat {words : List Lexeme} (hne : words ≠ []) (w : Lexeme) :
    spaced (words ++ [w]) = spaced words ++ ' ' :: w.toList := by
  cases words with
  | nil => exact absurd rfl hne
  | cons first others =>
      rw [List.cons_append, spaced_cons, spaced_cons, spacedAll, spacedAll, List.flatMap_append,
        List.flatMap_singleton, List.append_assoc]

theorem toList_spaced (words : List Lexeme) : (" ".intercalate words).toList = spaced words := by
  rw [String.toList_intercalate]
  rfl

theorem joinWords_map_toList (words : List Lexeme) :
    joinWords (words.map String.toList) = " ".intercalate words := by
  have htext : join [' '] (words.map String.toList) = (" ".intercalate words).toList :=
    (toList_spaced words).symm
  rw [joinWords, htext, String.ofList_toList]

theorem mem_dropWhile {p : Char → Bool} {c : Char} {x : Text} (hc : p c = false) (h : c ∈ x) :
    c ∈ x.dropWhile p := by
  rw [← List.takeWhile_append_dropWhile (p := p) (l := x)] at h
  rcases List.mem_append.mp h with h | h
  · have hp := List.mem_takeWhile_imp h
    rw [hc] at hp
    exact Bool.noConfusion hp
  · exact h

theorem mem_dropEndWhile {p : Char → Bool} {c : Char} {x : Text} (hc : p c = false) (h : c ∈ x) :
    c ∈ dropEndWhile p x :=
  List.mem_reverse.mpr (mem_dropWhile hc (List.mem_reverse.mpr h))

theorem mem_trim {c : Char} {x : Text} (hc : isBlank c = false) (h : c ∈ x) : c ∈ trim x :=
  mem_dropEndWhile hc (mem_dropWhile hc h)

/-- Texts with a comma and a space between them are cut out at the commas, each but the first with
its space. -/
theorem splitAt_commas {first : Text} {others : List Text}
    (h : ∀ part ∈ first :: others, ',' ∉ part) :
    splitAt ',' (join [',', ' '] (first :: others)) = first :: others.map (' ' :: ·) := by
  have hspace : ∀ part ∈ first :: others.map (' ' :: ·), ',' ∉ part := by
    rw [List.forall_mem_cons, List.forall_mem_map]
    rw [List.forall_mem_cons] at h
    exact ⟨h.1, fun part hpart => List.not_mem_cons_of_ne_of_not_mem (by decide) (h.2 part hpart)⟩
  have htext : join [',', ' '] (first :: others) = join [','] (first :: others.map (' ' :: ·)) := by
    clear h hspace
    rw [join, join]
    induction others generalizing first with
    | nil => rfl
    | cons next others ih =>
        rw [List.intercalate_cons_cons, ih, List.map_cons, List.intercalate_cons_cons]
        cases others with
        | nil => simp
        | cons more others => simp [List.intercalate_cons_cons]
  rw [htext, splitAt_join (List.cons_ne_nil _ _) hspace]

theorem mem_join {separator : Text} {parts : List Text} {c : Char} (h : c ∈ join separator parts) :
    c ∈ separator ∨ ∃ part ∈ parts, c ∈ part := by
  rw [join] at h
  induction parts with
  | nil => cases h
  | cons part parts ih =>
      cases parts with
      | nil =>
          rw [List.intercalate_singleton] at h
          exact .inr ⟨part, List.mem_cons_self .., h⟩
      | cons next parts =>
          rw [List.intercalate_cons_cons, List.mem_append, List.mem_append] at h
          rcases h with (h | h) | h
          · exact .inr ⟨part, List.mem_cons_self .., h⟩
          · exact .inl h
          · rcases ih h with hc | ⟨other, hother, hc⟩
            · exact .inl hc
            · exact .inr ⟨other, List.mem_cons_of_mem _ hother, hc⟩

end Text

/-! ## How heads are written -/

namespace Dialect

variable {dialect : Dialect}

/-- The words of a type: identifiers, in which there may be points. -/
structure TypeWords (words : List Lexeme) : Prop where
  ne_nil : words ≠ []
  names : ∀ w ∈ words, isDottedName w.toList = true

/-- How a parameter is written. -/
inductive WritesParameter (dialect : Dialect) : String → Parameter → Prop where
  | typed {type : List Lexeme} {x : Lexeme} :
      dialect = .c ∨ dialect = .java → TypeWords type → isName x.toList = true →
      WritesParameter dialect (" ".intercalate type ++ " " ++ x) ⟨some (" ".intercalate type), x⟩
  | bare {x : Lexeme} :
      dialect = .python → isName x.toList = true → WritesParameter dialect x ⟨none, x⟩
  | annotated {type : List Lexeme} {x : Lexeme} :
      dialect = .python → TypeWords type → isName x.toList = true →
      WritesParameter dialect (x ++ ": " ++ " ".intercalate type) ⟨some (" ".intercalate type), x⟩
  | bareDefault {x : Lexeme} {value : String} :
      dialect = .python → isName x.toList = true →
      (∀ c ∈ value.toList, c ≠ ',' ∧ c ≠ '(' ∧ c ≠ ')') →
      WritesParameter dialect (x ++ " = " ++ value) ⟨none, x⟩
  | annotatedDefault {type : List Lexeme} {x : Lexeme} {value : String} :
      dialect = .python → TypeWords type → isName x.toList = true →
      (∀ c ∈ value.toList, c ≠ ',' ∧ c ≠ '(' ∧ c ≠ ')') →
      WritesParameter dialect (x ++ ": " ++ " ".intercalate type ++ " = " ++ value)
        ⟨some (" ".intercalate type), x⟩

/-- How the head of a function is written. -/
inductive WritesHead (dialect : Dialect) : String → FunctionHead → Prop where
  | inBraces {words : List Lexeme} {name : Lexeme} {texts : List String}
      {parameters : List Parameter} :
      dialect = .c ∨ dialect = .java → (∀ w ∈ words ++ [name], isName w.toList = true) →
      (∀ w ∈ (words ++ [name]).head?, String.ofList (lower w.toList) ∉ controlKeywords) →
      List.Forall₂ dialect.WritesParameter texts parameters →
      WritesHead dialect
        (" ".intercalate (words ++ [name]) ++ "(" ++ ", ".intercalate texts ++ ") \x7b")
        ⟨if words = [] then "void" else " ".intercalate words, name, parameters⟩
  | withColon {name : Lexeme} {texts : List String} {parameters : List Parameter} :
      dialect = .python → isName name.toList = true →
      List.Forall₂ dialect.WritesParameter texts parameters →
      WritesHead dialect ("def " ++ name ++ "(" ++ ", ".intercalate texts ++ "):")
        ⟨"None", name, parameters⟩
  | withArrow {name type : Lexeme} {texts : List String} {parameters : List Parameter} :
      dialect = .python → isName name.toList = true → Solid type.toList →
      (∀ c ∈ type.toList, isLineEnd c = false) →
      List.Forall₂ dialect.WritesParameter texts parameters →
      WritesHead dialect
        ("def " ++ name ++ "(" ++ ", ".intercalate texts ++ ") -> " ++ type ++ ":")
        ⟨type, name, parameters⟩

/-! ## Parameters -/

/-- What a text between two commas is good for, with white space in front of it or without. -/
structure DeclaresParameter (dialect : Dialect) (text : Text) (p : Parameter) : Prop where
  read : ∀ before, (∀ c ∈ before, isBlank c = true) →
    dialect.spec.parameter? (before ++ text) = some p
  /-- Nothing in it separates parameters, or ends the group. -/
  chars : ∀ c ∈ text, c ≠ ',' ∧ c ≠ '(' ∧ c ≠ ')'

/-- Where types stand in front, the last word is the name and the others are the type. -/
theorem parameter?_typed (hbare : dialect.spec.bareParameters = false) {type : List Lexeme}
    {x : Lexeme} (htype : TypeWords type) (hx : isName x.toList = true) {before : Text}
    (hbefore : ∀ c ∈ before, isBlank c = true) :
    dialect.spec.parameter? (before ++ spaced (type ++ [x])) =
      some ⟨some (" ".intercalate type), x⟩ := by
  have hnames : ∀ w ∈ type ++ [x], isDottedName w.toList = true :=
    List.forall_mem_append.mpr
      ⟨htype.names, List.forall_mem_singleton.mpr (forms_of_isName hx).1⟩
  have hwords : Text.words (before ++ spaced (type ++ [x])) =
      type.map String.toList ++ [x.toList] := by
    rw [words_append hbefore, words_spaced hnames, List.map_append]
    rfl
  have htypes : (type.map String.toList).isEmpty = false := by
    rw [List.isEmpty_map, List.isEmpty_eq_false_iff]
    exact htype.ne_nil
  rw [Spec.parameter?, hbare, if_neg Bool.noConfusion]
  dsimp only
  rw [hwords, List.getLast?_concat]
  dsimp only
  rw [List.dropLast_concat, htypes, if_neg Bool.noConfusion, joinWords_map_toList,
    String.ofList_toList]

/-- Where names stand in front, what comes from an equals sign on does not count. -/
theorem takeWhile_declared {before declared rest : Text} (hsolid : Solid declared)
    (hequals : '=' ∉ declared) (hbefore : ∀ c ∈ before, isBlank c = true)
    (hrest : rest = [] ∨ ∃ value, rest = ' ' :: '=' :: value) :
    Text.trim ((before ++ (declared ++ rest)).takeWhile (· != '=')) = declared := by
  have hpassBefore : ∀ c ∈ before, (c != '=') = true := by
    intro c hc
    rw [bne_iff_ne]
    rintro rfl
    exact Bool.noConfusion (hbefore '=' hc)
  have hpass : ∀ c ∈ declared, (c != '=') = true := by
    intro c hc
    rw [bne_iff_ne]
    rintro rfl
    exact hequals hc
  rw [List.takeWhile_append_of_pos hpassBefore, List.takeWhile_append_of_pos hpass,
    ← List.append_assoc]
  rcases hrest with rfl | ⟨value, rfl⟩
  · exact hsolid.trim hbefore (by simp)
  · have hspace : ∀ c ∈ [' '], isBlank c = true := List.forall_mem_singleton.mpr rfl
    exact hsolid.trim hbefore hspace

section Bare

variable (hbare : dialect.spec.bareParameters = true) {x : Lexeme} (hx : isName x.toList = true)
  {before rest : Text} (hbefore : ∀ c ∈ before, isBlank c = true)
  (hrest : rest = [] ∨ ∃ value, rest = ' ' :: '=' :: value)

include hbare hx hbefore hrest

theorem parameter?_bare :
    dialect.spec.parameter? (before ++ (x.toList ++ rest)) = some ⟨none, x⟩ := by
  have hsolid := solid_of_isName hx
  have hcut : cutAt? ':' x.toList = none :=
    cutAt?_eq_none_iff.mpr (not_mem_of_isName hx (by decide))
  have hdeclared := takeWhile_declared hsolid (not_mem_of_isName hx (by decide)) hbefore hrest
  have hne : x.toList.isEmpty = false := List.isEmpty_eq_false_iff.mpr hsolid.ne_nil
  rw [Spec.parameter?, hbare, if_pos rfl, hdeclared]
  dsimp only
  rw [hcut]
  simp only [Option.getD_none, hsolid.trim_eq, hne, Bool.false_eq_true, if_false,
    String.ofList_toList]
  rfl

theorem parameter?_annotated {type : List Lexeme} (htype : TypeWords type) :
    dialect.spec.parameter? (before ++ (x.toList ++ ':' :: ' ' :: spaced type ++ rest)) =
      some ⟨some (" ".intercalate type), x⟩ := by
  have hsolid := solid_of_isName hx
  have htypeSolid := solid_words htype.names htype.ne_nil
  have hwhole : Solid (x.toList ++ ':' :: ' ' :: spaced type) :=
    hsolid.append htypeSolid [':', ' ']
  have hequals : '=' ∉ x.toList ++ ':' :: ' ' :: spaced type := by
    rw [List.mem_append, List.mem_cons, List.mem_cons]
    rintro (hmem | heq | heq | hmem)
    · exact not_mem_of_isName hx (by decide) hmem
    · exact absurd heq (by decide)
    · exact absurd heq (by decide)
    · exact no_equals_spaced htype.names hmem
  have hcut : cutAt? ':' (x.toList ++ ':' :: ' ' :: spaced type) =
      some (x.toList, ' ' :: spaced type) := cutAt?_append (not_mem_of_isName hx (by decide)) _
  have hdeclared := takeWhile_declared hwhole hequals hbefore hrest
  have hne : x.toList.isEmpty = false := List.isEmpty_eq_false_iff.mpr hsolid.ne_nil
  have htypeNe : (spaced type).isEmpty = false :=
    List.isEmpty_eq_false_iff.mpr htypeSolid.ne_nil
  rw [Spec.parameter?, hbare, if_pos rfl, hdeclared]
  dsimp only
  rw [hcut]
  simp only [Option.getD_some, hsolid.trim_eq, htypeSolid.trim_space, hne, htypeNe,
    Bool.false_eq_true, if_false, String.ofList_toList]
  rw [← toList_spaced, String.ofList_toList]

end Bare

/-- **Whatever is written as a parameter is read as the parameter it was written for.** -/
theorem WritesParameter.declares {text : String} {p : Parameter}
    (h : dialect.WritesParameter text p) : dialect.DeclaresParameter text.toList p := by
  have hname : ∀ {x : Lexeme}, isName x.toList = true →
      ∀ c ∈ x.toList, c ≠ ',' ∧ c ≠ '(' ∧ c ≠ ')' :=
    fun hx => plain_of_isDottedName (forms_of_isName hx).1
  have hnone : ([] : Text) = [] ∨ ∃ value, ([] : Text) = ' ' :: '=' :: value := .inl rfl
  have hbare : dialect = .python → dialect.spec.bareParameters = true := by
    rintro rfl
    rfl
  have hannotated : ∀ {type : List Lexeme} {x : Lexeme}, TypeWords type → isName x.toList = true →
      ∀ c ∈ x.toList ++ ([':', ' '] ++ spaced type), c ≠ ',' ∧ c ≠ '(' ∧ c ≠ ')' :=
    fun htype hx => List.forall_mem_append.mpr ⟨hname hx,
      List.forall_mem_append.mpr ⟨by simp, plain_spaced htype.names⟩⟩
  have hdefault : ∀ {value : Text}, (∀ c ∈ value, c ≠ ',' ∧ c ≠ '(' ∧ c ≠ ')') →
      ∀ c ∈ [' ', '=', ' '] ++ value, c ≠ ',' ∧ c ≠ '(' ∧ c ≠ ')' :=
    fun hvalue => List.forall_mem_append.mpr ⟨by simp, hvalue⟩
  cases h with
  | @typed type x hd htype hx =>
      have hbare : dialect.spec.bareParameters = false := by
        rcases hd with rfl | rfl <;> rfl
      have hnames : ∀ w ∈ type ++ [x], isDottedName w.toList = true :=
        List.forall_mem_append.mpr
          ⟨htype.names, List.forall_mem_singleton.mpr (forms_of_isName hx).1⟩
      have htext : (" ".intercalate type ++ " " ++ x).toList = spaced (type ++ [x]) := by
        rw [String.toList_append, String.toList_append, toList_spaced,
          spaced_concat htype.ne_nil, List.append_assoc]
        rfl
      rw [htext]
      exact ⟨fun before hbefore => parameter?_typed hbare htype hx hbefore, plain_spaced hnames⟩
  | bare hd hx =>
      refine ⟨fun before hbefore => ?_, hname hx⟩
      have hread := parameter?_bare (hbare hd) hx hbefore hnone
      rwa [List.append_nil] at hread
  | @annotated type x hd htype hx =>
      have htext : (x ++ ": " ++ " ".intercalate type).toList =
          x.toList ++ ':' :: ' ' :: spaced type := by
        rw [String.toList_append, String.toList_append, toList_spaced, List.append_assoc]
        rfl
      rw [htext]
      refine ⟨fun before hbefore => ?_, ?_⟩
      · have hread := parameter?_annotated (hbare hd) hx hbefore hnone htype
        rwa [List.append_nil] at hread
      · exact hannotated htype hx
  | @bareDefault x value hd hx hvalue =>
      have htext : (x ++ " = " ++ value).toList =
          x.toList ++ ' ' :: '=' :: ' ' :: value.toList := by
        rw [String.toList_append, String.toList_append, List.append_assoc]
        rfl
      rw [htext]
      refine ⟨fun before hbefore => ?_, ?_⟩
      · exact parameter?_bare (hbare hd) hx hbefore (.inr ⟨_, rfl⟩)
      · exact List.forall_mem_append.mpr ⟨hname hx, hdefault hvalue⟩
  | @annotatedDefault type x value hd htype hx hvalue =>
      have htext : (x ++ ": " ++ " ".intercalate type ++ " = " ++ value).toList =
          x.toList ++ ':' :: ' ' :: spaced type ++ ' ' :: '=' :: ' ' :: value.toList := by
        simp only [String.toList_append, toList_spaced, List.append_assoc]
        rfl
      rw [htext]
      refine ⟨fun before hbefore => ?_, ?_⟩
      · exact parameter?_annotated (hbare hd) hx hbefore (.inr ⟨_, rfl⟩) htype
      · exact List.forall_mem_append.mpr ⟨hannotated htype hx, hdefault hvalue⟩

/-! ## Words in front of a group -/

/-- Words in front of a group of texts with commas between them, and what comes after the group. -/
def headText (words : List Lexeme) (fields : List Text) (tail : Text) : Text :=
  spaced words ++ '(' :: (join [',', ' '] fields ++ ')' :: tail)

theorem opener_mem_headText (words : List Lexeme) (fields : List Text) (tail : Text) :
    '(' ∈ headText words fields tail :=
  List.mem_append_right _ (List.mem_cons_self ..)

/-- What stands from the closing parenthesis on stands in the text. -/
theorem mem_headText_of_mem {words : List Lexeme} {fields : List Text} {tail : Text} {c : Char}
    (h : c ∈ ')' :: tail) : c ∈ headText words fields tail :=
  List.mem_append_right _ (List.mem_cons_of_mem _ (List.mem_append_right _ h))

section Fields

variable {fields : List Text} {parameters : List Parameter}
  (hfields : List.Forall₂ dialect.DeclaresParameter fields parameters)

include hfields

theorem plain_fields : ∀ field ∈ fields, ∀ c ∈ field, c ≠ ',' ∧ c ≠ '(' ∧ c ≠ ')' := by
  intro field hfield
  obtain ⟨p, -, hp⟩ := exists_of_mem_of_forall₂ hfields.flip hfield
  exact hp.chars

/-- No parenthesis stands in the group. -/
theorem no_parenthesis_fields : ∀ c ∈ join [',', ' '] fields, c ≠ '(' ∧ c ≠ ')' := by
  intro c hc
  rcases mem_join hc with hseparator | ⟨field, hfield, hc⟩
  · have hboth : ∀ c ∈ [',', ' '], c ≠ '(' ∧ c ≠ ')' := by simp
    exact hboth c hseparator
  · exact (plain_fields hfields field hfield c hc).2

/-- Each text between two commas declares its parameter; a group without a text declares none. -/
theorem filterMap_fields :
    (splitAt ',' (join [',', ' '] fields)).filterMap dialect.spec.parameter? = parameters := by
  have hplain := plain_fields hfields
  have hnone : ∀ c ∈ ([] : Text), isBlank c = true := by simp
  have hspace : ∀ c ∈ [' '], isBlank c = true := List.forall_mem_singleton.mpr rfl
  cases hfields with
  | nil => cases dialect <;> rfl
  | @cons first p others ps hfirst hothers =>
      have hcommas : ∀ field ∈ first :: others, ',' ∉ field := by
        intro field hfield hmem
        exact (hplain field hfield ',' hmem).1 rfl
      have hread : dialect.spec.parameter? first = some p := hfirst.read [] hnone
      have hrest : (others.map (' ' :: ·)).filterMap dialect.spec.parameter? = ps := by
        clear hplain hcommas
        induction hothers with
        | nil => rfl
        | @cons field q _ _ hfield _ ih =>
            have hnext : dialect.spec.parameter? (' ' :: field) = some q := hfield.read [' '] hspace
            rw [List.map_cons, List.filterMap_cons_some hnext, ih]
      rw [splitAt_commas hcommas, List.filterMap_cons_some hread, hrest]

end Fields

section Name

variable {before : List Lexeme} {name : Lexeme} {fields : List Text} {tail : Text}
  (hnames : ∀ w ∈ before ++ [name], isName w.toList = true)

include hnames

theorem dotted_names : ∀ w ∈ before ++ [name], isDottedName w.toList = true :=
  fun w hw => (forms_of_isName (hnames w hw)).1

theorem takeWhile_headText :
    (headText (before ++ [name]) fields tail).takeWhile (· != '(') = spaced (before ++ [name]) := by
  have hpass : ∀ c ∈ spaced (before ++ [name]), (c != '(') = true := by
    intro c hc
    rw [bne_iff_ne]
    exact (plain_spaced (dotted_names hnames) c hc).2.1
  rw [headText, List.takeWhile_append_of_pos hpass]
  simp

theorem words_head :
    Text.words (spaced (before ++ [name])) = before.map String.toList ++ [name.toList] := by
  rw [words_spaced (dotted_names hnames), List.map_append]
  rfl

theorem leadsWith_headText (keywords : List Lexeme) {w : Lexeme}
    (hw : w ∈ (before ++ [name]).head?) :
    leadsWith keywords (headText (before ++ [name]) fields tail) =
      keywords.contains (String.ofList (lower w.toList)) := by
  cases hfirst : before ++ [name] with
  | nil => rw [hfirst] at hw; cases hw
  | cons first others =>
      rw [hfirst, List.head?_cons] at hw
      obtain rfl : first = w := Option.some.inj hw
      have hname : isName first.toList = true := by
        refine hnames first ?_
        rw [hfirst]
        exact List.mem_cons_self ..
      have hrest : ∀ c ∈ (spacedAll others ++
          '(' :: (join [',', ' '] fields ++ ')' :: tail)).head?, isNameChar c = false := by
        intro c hc
        cases others with
        | nil =>
            obtain rfl : '(' = c := Option.some.inj hc
            decide
        | cons next others =>
            rw [spacedAll_cons_eq] at hc
            obtain rfl : ' ' = c := Option.some.inj hc
            decide
      rw [headText, spaced_cons, List.append_assoc, leadsWith_name hname hrest]

/-- The head of a function is recognised by the group with a name in front of it, if it ends as a
head does and does not begin with a control word. -/
theorem isHead_headText (hcontrol : ∀ w ∈ (before ++ [name]).head?,
      String.ofList (lower w.toList) ∉ controlKeywords)
    (hend : '\x7b' ∈ tail ∨
      (trimEnd (headText (before ++ [name]) fields tail)).getLast?.any
        dialect.spec.headerEndings.contains = true) :
    FunctionHead.isHead dialect.spec (headText (before ++ [name]) fields tail) = true := by
  have hopener : (headText (before ++ [name]) fields tail).contains '(' = true :=
    List.contains_iff_mem.mpr (opener_mem_headText _ _ _)
  have hcloser : (headText (before ++ [name]) fields tail).contains ')' = true :=
    List.contains_iff_mem.mpr (mem_headText_of_mem (List.mem_cons_self ..))
  have hending : ((headText (before ++ [name]) fields tail).contains '\x7b' ||
      (trimEnd (headText (before ++ [name]) fields tail)).getLast?.any
        dialect.spec.headerEndings.contains) = true := by
    rw [Bool.or_eq_true]
    refine hend.imp_left fun hbrace => ?_
    exact List.contains_iff_mem.mpr (mem_headText_of_mem (List.mem_cons_of_mem _ hbrace))
  have hno_control :
      leadsWith controlKeywords (headText (before ++ [name]) fields tail) = false := by
    cases hfirst : (before ++ [name]).head? with
    | none => simp at hfirst
    | some w =>
        rw [leadsWith_headText hnames _ hfirst, Bool.eq_false_iff]
        exact fun hmem => hcontrol w hfirst (List.contains_iff_mem.mp hmem)
  have hequals : (spaced (before ++ [name])).contains '=' = false := by
    rw [Bool.eq_false_iff]
    intro hmem
    exact no_equals_spaced (dotted_names hnames) (List.contains_iff_mem.mp hmem)
  have hname : Lexeme.isIdentifier (String.ofList name.toList) = true := by
    have hisName := hnames name (List.mem_append_right _ (List.mem_cons_self ..))
    have hline : '\n' ∉ name.toList := not_mem_of_isName hisName (by decide)
    rw [Lexeme.isIdentifier, String.toList_ofList, dropFinalLineFeed_of_not_mem hline]
    exact (forms_of_isName hisName).1
  rw [FunctionHead.isHead, takeWhile_headText hnames, hopener, hcloser, hending, hno_control,
    hequals, words_head hnames, List.getLast?_concat, Option.any_some, hname]
  rfl

/-- Its parts are found: the name, the words in front of it, the parameters, and what comes after
the group. -/
theorem extract_headText {parameters : List Parameter}
    (hfields : List.Forall₂ dialect.DeclaresParameter fields parameters) :
    FunctionHead.extract dialect.spec (headText (before ++ [name]) fields tail) =
      .ok ⟨FunctionHead.returnTypeOf dialect.spec (before.map String.toList) tail, name,
        parameters⟩ := by
  have hopener : '(' ∉ spaced (before ++ [name]) :=
    fun hmem => (plain_spaced (dotted_names hnames) '(' hmem).2.1 rfl
  have hcloser : ')' ∉ spaced (before ++ [name]) ++ '(' :: join [',', ' '] fields := by
    rw [List.mem_append, List.mem_cons]
    rintro (hmem | heq | hmem)
    · exact (plain_spaced (dotted_names hnames) ')' hmem).2.2 rfl
    · exact absurd heq (by decide)
    · exact (no_parenthesis_fields hfields ')' hmem).2 rfl
  have hopen : cutAt? '(' (headText (before ++ [name]) fields tail) =
      some (spaced (before ++ [name]), join [',', ' '] fields ++ ')' :: tail) :=
    cutAt?_append hopener _
  have hclose : cutAt? ')' (headText (before ++ [name]) fields tail) =
      some (spaced (before ++ [name]) ++ '(' :: join [',', ' '] fields, tail) := by
    have hcut := cutAt?_append hcloser tail
    rwa [List.append_assoc, List.cons_append] at hcut
  have hgroup : parenthesized? (headText (before ++ [name]) fields tail) =
      some (join [',', ' '] fields) :=
    parenthesized?_append hopener (closed_of_forall (no_parenthesis_fields hfields)) tail
  unfold FunctionHead.extract
  simp only [hopen, hclose, hgroup, words_head hnames, List.getLast?_concat, List.dropLast_concat,
    Option.getD_some, filterMap_fields hfields, String.ofList_toList]
  rfl

end Name

/-! ## The line of a head -/

/-- **Words in front of a group are classified as the head of a function**, if the line ends as a
head does, begins with no control word, and is no declaration. -/
theorem classify_headText {limit : Nat} {before : List Lexeme} {name returnType : Lexeme}
    {fields : List Text} {parameters : List Parameter} {tail : Text} {last : Char}
    (hnames : ∀ w ∈ before ++ [name], isName w.toList = true)
    (hcontrol : ∀ w ∈ (before ++ [name]).head?, String.ofList (lower w.toList) ∉ controlKeywords)
    (hfields : List.Forall₂ dialect.DeclaresParameter fields parameters)
    (htail : tail.getLast? = some last) (hblank : isBlank last = false)
    (hend : '\x7b' ∈ tail ∨ last ∈ dialect.spec.headerEndings)
    (hdeclaration : Declaration.isDeclaration dialect.spec
      (headText (before ++ [name]) fields tail) = false)
    (hreturn : FunctionHead.returnTypeOf dialect.spec (before.map String.toList) tail =
      returnType) :
    Reader.classify ⟨dialect.spec, limit⟩ Rule.standard (headText (before ++ [name]) fields tail) =
      .ok (.kept .functionDeclaration (.function ⟨returnType, name, parameters⟩) []) := by
  have hlast : (headText (before ++ [name]) fields tail).getLast? = some last := by
    have hmore : (')' :: tail).getLast? = some last := by
      rw [List.getLast?_cons, htail]
      rfl
    rw [headText, List.getLast?_append, List.getLast?_cons, List.getLast?_append, hmore]
    rfl
  have hlastBlank :
      ∀ c ∈ (headText (before ++ [name]) fields tail).getLast?, isBlank c = false := by
    intro c hc
    rw [hlast] at hc
    obtain rfl : last = c := Option.some.inj hc
    exact hblank
  have hbegins : BeginsWithName (headText (before ++ [name]) fields tail) := by
    cases hfirst : before ++ [name] with
    | nil => simp at hfirst
    | cons first others =>
        have hname : isName first.toList = true := by
          refine hnames first ?_
          rw [hfirst]
          exact List.mem_cons_self ..
        rw [headText, spaced_cons, List.append_assoc]
        exact beginsWithName_of_isName hname _
  have hhead :
      FunctionHead.isHead dialect.spec (headText (before ++ [name]) fields tail) = true := by
    refine isHead_headText hnames hcontrol (hend.imp_right fun hmem => ?_)
    rw [trimEnd, dropEndWhile_of_last hlastBlank, hlast, Option.any_some]
    exact List.contains_iff_mem.mpr hmem
  have hearlier : ∀ other ∈ [Rule.variableDeclaration],
      other.accepts dialect.spec (headText (before ++ [name]) fields tail) = false :=
    List.forall_mem_singleton.mpr hdeclaration
  have hchoose : Rule.choose Rule.standard dialect.spec (headText (before ++ [name]) fields tail) =
      .ok .functionDeclaration := Rule.choose_eq rfl hearlier hhead
  refine Reader.classify_of_extract hbegins hlastBlank hchoose ?_
  rw [Rule.extract, extract_headText hnames hfields, hreturn]
  rfl

/-- Without an equals sign the line declares no variable, since the group is part of what would be
its name. -/
theorem isDeclaration_headText {spec : Spec} {words : List Lexeme} {fields : List Text}
    {tail : Text} (hnames : ∀ w ∈ words, isDottedName w.toList = true)
    (hfields : ∀ field ∈ fields, '=' ∉ field) (htail : '=' ∉ tail) :
    Declaration.isDeclaration spec (headText words fields tail) = false := by
  have hequals : '=' ∉ headText words fields tail := by
    rw [headText, List.mem_append, List.mem_cons, List.mem_append]
    rintro (hmem | heq | hmem | hmem)
    · exact no_equals_spaced hnames hmem
    · exact absurd heq (by decide)
    · rcases mem_join hmem with hmem | ⟨field, hfield, hmem⟩
      · exact absurd hmem (by decide)
      · exact hfields field hfield hmem
    · rcases List.mem_cons.mp hmem with heq | hmem
      · exact absurd heq (by decide)
      · exact htail hmem
  have hopener :
      '(' ∈ Text.trim (Text.dropEndWhile (· == ';') (headText words fields tail)) :=
    mem_trim rfl (mem_dropEndWhile rfl (opener_mem_headText words fields tail))
  rw [Declaration.isDeclaration, (inert_of_not_mem hequals).splitAssign?]
  dsimp only
  rw [List.contains_iff_mem.mpr hopener, Bool.not_true, Bool.and_false, Bool.false_and]

/-! ### Where braces open blocks -/

section Braces

variable (hd : dialect = .c ∨ dialect = .java)

include hd

/-- The words in front of the name are the return type. -/
theorem returnTypeOf_words {words : List Lexeme}
    (hnames : ∀ w ∈ words, isDottedName w.toList = true) :
    FunctionHead.returnTypeOf dialect.spec (words.map String.toList) [' ', '\x7b'] =
      if words = [] then "void" else " ".intercalate words := by
  have hkeywords : dialect.spec.functionKeywords = [] := by
    rcases hd with rfl | rfl <;> rfl
  have hvoid : dialect.spec.returnType = "void" := by
    rcases hd with rfl | rfl <;> rfl
  have hkept : (words.map String.toList).filter
      (fun word => !dialect.spec.functionKeywords.contains (String.ofList word)) =
        words.map String.toList := by
    rw [hkeywords]
    exact List.filter_eq_self.mpr fun _ _ => rfl
  rw [FunctionHead.returnTypeOf, hkept, joinWords_map_toList]
  by_cases hnil : words = []
  · have hempty : (" ".intercalate ([] : List Lexeme)).isEmpty = true := rfl
    rw [if_pos hnil, hnil, if_pos hempty, hvoid]
    rfl
  · have hempty : ¬ (" ".intercalate words).isEmpty = true := by
      rw [String.isEmpty_iff, ← String.toList_eq_nil_iff, toList_spaced]
      exact (solid_words hnames hnil).ne_nil
    rw [if_neg hnil, if_neg hempty]

/-- No equals sign stands in a parameter with its type in front. -/
theorem WritesParameter.no_equals {text : String} {p : Parameter}
    (h : dialect.WritesParameter text p) : '=' ∉ text.toList := by
  cases h with
  | @typed type x _ htype hx =>
      rw [String.toList_append, String.toList_append, toList_spaced, List.mem_append,
        List.mem_append]
      rintro ((hmem | hmem) | hmem)
      · exact no_equals_spaced htype.names hmem
      · exact absurd hmem (by decide)
      · exact not_mem_of_isName hx (by decide) hmem
  | _ => rcases hd with rfl | rfl <;> contradiction

end Braces

/-! ### Where a colon opens blocks -/

theorem arrowType?_arrow {type : Text} (htype : Solid type)
    (hplain : ∀ c ∈ type, isLineEnd c = false) :
    arrowType? (' ' :: '-' :: '>' :: ' ' :: (type ++ [':'])) = some type := by
  have hpass : ∀ c ∈ ' ' :: type, (!(c == ':' || c == '\x7b' || c == ';')) = true := by
    rw [List.forall_mem_cons]
    refine ⟨rfl, fun c hc => ?_⟩
    have hc := hplain c hc
    rw [isLineEnd, Bool.or_eq_false_iff, Bool.or_eq_false_iff] at hc
    rw [hc.1.1, hc.1.2, hc.2]
    rfl
  have hstop : (' ' :: (type ++ [':'])).takeWhile
      (fun c => !(c == ':' || c == '\x7b' || c == ';')) = ' ' :: type := by
    rw [← List.cons_append, List.takeWhile_append_of_pos hpass]
    exact List.append_nil _
  have hskip : after? ['-', '>'] (' ' :: '-' :: '>' :: ' ' :: (type ++ [':'])) = none := rfl
  have harrow : after? ['-', '>'] ('-' :: '>' :: ' ' :: (type ++ [':'])) =
      some (' ' :: (type ++ [':'])) := rfl
  rw [arrowType?, hskip]
  dsimp only
  rw [arrowType?, harrow]
  dsimp only
  rw [hstop, List.isEmpty_cons, if_neg Bool.noConfusion, htype.trim_space]

theorem spaced_def (name : Lexeme) : spaced ["def", name] = "def ".toList ++ name.toList := by
  rw [spaced_cons, spacedAll, List.flatMap_singleton]
  rfl

/-- `def` is part of no type, so the type stands behind an arrow or is supplied. -/
theorem returnTypeOf_def (hd : dialect = .python) (tail : Text) :
    FunctionHead.returnTypeOf dialect.spec (["def"].map String.toList) tail =
      match arrowType? tail with
      | none | some [] => "None"
      | some typeName => String.ofList typeName := by
  rw [hd]
  rfl

/-- A line that begins with `def` declares no variable, and `def` is no control word. -/
theorem classify_def (hd : dialect = .python) {limit : Nat} {name returnType : Lexeme}
    {fields : List Text} {parameters : List Parameter} {tail : Text}
    (hname : isName name.toList = true)
    (hfields : List.Forall₂ dialect.DeclaresParameter fields parameters)
    (htail : tail.getLast? = some ':')
    (hreturn : FunctionHead.returnTypeOf dialect.spec (["def"].map String.toList) tail =
      returnType) :
    Reader.classify ⟨dialect.spec, limit⟩ Rule.standard (headText ["def", name] fields tail) =
      .ok (.kept .functionDeclaration (.function ⟨returnType, name, parameters⟩) []) := by
  have hnames : ∀ w ∈ ["def"] ++ [name], isName w.toList = true :=
    List.forall_mem_cons.mpr ⟨by decide, List.forall_mem_singleton.mpr hname⟩
  have hcontrol : ∀ w ∈ (["def"] ++ [name]).head?,
      String.ofList (lower w.toList) ∉ controlKeywords := by
    intro w hw
    obtain rfl : "def" = w := Option.some.inj hw
    decide +kernel
  have hdeclaration : Declaration.isDeclaration dialect.spec
      (headText (["def"] ++ [name]) fields tail) = false := by
    have hno : leadsWith dialect.spec.typeKeywords (headText (["def"] ++ [name]) fields tail) =
        false := by
      rw [leadsWith_headText hnames _ (w := "def") rfl, hd]
      decide +kernel
    rw [Declaration.isDeclaration, hno, Bool.false_and, Bool.false_and]
  have hcolon : ':' ∈ dialect.spec.headerEndings := by
    rw [hd]
    decide
  have hblank : isBlank ':' = false := by decide
  have hwhole : Reader.classify ⟨dialect.spec, limit⟩ Rule.standard
      (headText (["def"] ++ [name]) fields tail) =
        .ok (.kept .functionDeclaration (.function ⟨returnType, name, parameters⟩) []) :=
    classify_headText hnames hcontrol hfields htail hblank (.inr hcolon) hdeclaration hreturn
  rwa [List.singleton_append] at hwhole

/-- **A head that is written down is classified as a declaration of that function**, without a
problem, and its tree shows the parts of the head. -/
theorem classify_of_writesHead {limit : Nat} {line : String} {f : FunctionHead}
    (h : dialect.WritesHead line f) :
    Reader.classify ⟨dialect.spec, limit⟩ Rule.standard line.toList =
        .ok (.kept .functionDeclaration (.function f) []) ∧
      ∀ first, f.Shows ((Statement.function f).toTree.run first).1 := by
  refine ⟨?_, f.always_shows⟩
  have hdeclares : ∀ {texts : List String} {parameters : List Parameter},
      List.Forall₂ dialect.WritesParameter texts parameters →
        List.Forall₂ dialect.DeclaresParameter (texts.map String.toList) parameters :=
    fun hparameters => List.forall₂_map_left_iff.mpr
      (hparameters.imp fun _ _ hp => hp.declares)
  cases h with
  | @inBraces words name texts parameters hd hnames hcontrol hparameters =>
      have htext : (" ".intercalate (words ++ [name]) ++ "(" ++ ", ".intercalate texts ++
          ") \x7b").toList =
            headText (words ++ [name]) (texts.map String.toList) [' ', '\x7b'] := by
        simp only [String.toList_append, String.toList_intercalate, headText, List.append_assoc]
        rfl
      have hwords : ∀ w ∈ words, isDottedName w.toList = true :=
        fun w hw => dotted_names hnames w (List.mem_append_left _ hw)
      have hfields : ∀ field ∈ texts.map String.toList, '=' ∉ field := by
        intro field hfield
        obtain ⟨text, htext, rfl⟩ := List.mem_map.mp hfield
        obtain ⟨p, -, hp⟩ := exists_of_mem_of_forall₂ hparameters.flip htext
        exact WritesParameter.no_equals hd hp
      rw [htext]
      exact classify_headText hnames hcontrol (hdeclares hparameters) rfl (by decide)
        (.inl (by decide)) (isDeclaration_headText (dotted_names hnames) hfields (by decide))
        (returnTypeOf_words hd hwords)
  | @withColon name texts parameters hd hname hparameters =>
      have htext : ("def " ++ name ++ "(" ++ ", ".intercalate texts ++ "):").toList =
          headText ["def", name] (texts.map String.toList) [':'] := by
        simp only [String.toList_append, String.toList_intercalate, headText, spaced_def,
          List.append_assoc]
        rfl
      rw [htext]
      refine classify_def hd hname (hdeclares hparameters) rfl ?_
      rw [returnTypeOf_def hd]
      rfl
  | @withArrow name type texts parameters hd hname htype hplain hparameters =>
      have htext : ("def " ++ name ++ "(" ++ ", ".intercalate texts ++ ") -> " ++ type ++
          ":").toList = headText ["def", name] (texts.map String.toList)
            (' ' :: '-' :: '>' :: ' ' :: (type.toList ++ [':'])) := by
        simp only [String.toList_append, String.toList_intercalate, headText, spaced_def,
          List.append_assoc]
        rfl
      have hlast : (' ' :: '-' :: '>' :: ' ' :: (type.toList ++ [':'])).getLast? = some ':' :=
        List.getLast?_concat (l := ' ' :: '-' :: '>' :: ' ' :: type.toList)
      rw [htext]
      refine classify_def hd hname (hdeclares hparameters) hlast ?_
      rw [returnTypeOf_def hd, arrowType?_arrow htype hplain]
      split
      · rename_i heq
        cases heq
      · rename_i heq
        exact absurd (Option.some.inj heq) htype.ne_nil
      · rename_i heq
        rw [← Option.some.inj heq, String.ofList_toList]

/-- A head with an annotation, a default and an arrow. -/
theorem classify_scale :
    Dialect.python.WritesHead "def scale(x, by: float = 2.5) -> float:"
        ⟨"float", "scale", [⟨none, "x"⟩, ⟨some "float", "by"⟩]⟩ ∧
      Reader.classify ⟨Dialect.python.spec, 62⟩ Rule.standard
          "def scale(x, by: float = 2.5) -> float:".toList =
        .ok (.kept .functionDeclaration
          (.function ⟨"float", "scale", [⟨none, "x"⟩, ⟨some "float", "by"⟩]⟩) []) := by
  have htype : TypeWords ["float"] := ⟨List.cons_ne_nil _ _, by decide⟩
  have hby : Dialect.python.WritesParameter
      ("by" ++ ": " ++ " ".intercalate ["float"] ++ " = " ++ "2.5")
      ⟨some (" ".intercalate ["float"]), "by"⟩ :=
    .annotatedDefault rfl htype (by decide) (by simp)
  have hparameters : List.Forall₂ Dialect.python.WritesParameter ["x", "by: float = 2.5"]
      [⟨none, "x"⟩, ⟨some "float", "by"⟩] := by
    rw [String.intercalate_singleton] at hby
    exact .cons (.bare rfl (by decide)) (.cons hby .nil)
  have hwrites : Dialect.python.WritesHead
      ("def " ++ "scale" ++ "(" ++ ", ".intercalate ["x", "by: float = 2.5"] ++ ") -> " ++
        "float" ++ ":") ⟨"float", "scale", [⟨none, "x"⟩, ⟨some "float", "by"⟩]⟩ :=
    .withArrow rfl (by decide) (solid_of_isName (by decide)) (by simp [isLineEnd]) hparameters
  have hline : "def " ++ "scale" ++ "(" ++ ", ".intercalate ["x", "by: float = 2.5"] ++ ") -> " ++
      "float" ++ ":" = "def scale(x, by: float = 2.5) -> float:" := by decide +kernel
  rw [hline] at hwrites
  exact ⟨hwrites, (classify_of_writesHead hwrites).1⟩

end Dialect

end SnippetTree
