import SnippetTree.Assembler
import SnippetTree.Proofs.LineStart
import SnippetTree.Proofs.Positions

/-!
# No build fails

An extraction names what it misses, so that a build could end in a fault. None does. A rule is asked
only for lines that it accepts, and what it has seen in accepting a line is what it takes out:

* the parentheses and the name of a function head are looked for in the same text;
* the type and the name of a declaration survive everything that is cut off (`LineStart.lean`);
* the header word of a condition and the split at an assignment are found again as they were.

Every line has a rule, since the last rule of the standard table accepts them all. Below the rules
nothing is partial but the tokenizer's look at the first character of a lexeme and the parser's
reading of the next one; there the facts are that no lexeme is empty, and that the parser by
positions never reads past the end (`Positions.lean`).
-/

namespace SnippetTree

/-! ## Computations that may end in a fault -/

theorem exists_ok_bind_of_eq {α β ε : Type} {x : Except ε α} {f : α → Except ε β} {a : α}
    (hx : x = .ok a) (hf : ∃ b, f a = .ok b) : ∃ b, x >>= f = .ok b := by
  subst hx
  exact hf

theorem exists_ok_bind {α β ε : Type} {x : Except ε α} {f : α → Except ε β}
    (hx : ∃ a, x = .ok a) (hf : ∀ a, ∃ b, f a = .ok b) : ∃ b, x >>= f = .ok b := by
  obtain ⟨a, hx⟩ := hx
  exact exists_ok_bind_of_eq hx (hf a)

theorem exists_ok_mapM {α β ε : Type} {f : α → Except ε β} (h : ∀ a, ∃ b, f a = .ok b)
    (as : List α) : ∃ bs, as.mapM f = .ok bs := by
  induction as with
  | nil => exact ⟨[], rfl⟩
  | cons a as ih =>
      rw [List.mapM_cons]
      exact exists_ok_bind (h a) fun b => exists_ok_bind ih fun bs => ⟨b :: bs, rfl⟩

/-! ## Heads of functions -/

theorem Text.cutAt?_of_contains {mark : Char} {text : Text} (h : text.contains mark = true) :
    ∃ after, text.cutAt? mark = some (text.takeWhile (· != mark), after) := by
  unfold cutAt?
  cases hdrop : text.dropWhile (· != mark) with
  | nil =>
      -- then no character of the text is the mark
      have hany := List.any_dropWhile (l := text) (p := (· != mark))
      rw [hdrop, List.any_nil, eq_comm, Bool.not_eq_false', List.all_eq_true] at hany
      have hmark := hany mark (by simpa using h)
      simp at hmark
  | cons c after => exact ⟨after, rfl⟩

theorem FunctionHead.extract_ok {spec : Dialect.Spec} {text : Text}
    (h : isHead spec text = true) : ∃ f, extract spec text = .ok f := by
  simp only [isHead, Bool.and_eq_true] at h
  obtain ⟨⟨⟨⟨⟨hopener, hcloser⟩, -⟩, -⟩, -⟩, hname⟩ := h
  obtain ⟨inside, hhead⟩ := Text.cutAt?_of_contains hopener
  obtain ⟨afterCloser, htail⟩ := Text.cutAt?_of_contains hcloser
  unfold extract
  simp only [hhead, htail]
  cases hlast : (Text.words (text.takeWhile (· != '('))).getLast? with
  | none =>
      rw [hlast] at hname
      simp at hname
  | some name => exact ⟨_, rfl⟩

namespace Reader

variable {r : Reader}

/-! ## Conditions, assignments and clauses -/

theorem condition_ok {text : Text} (h : (Text.conditionHeader? text).isSome = true) :
    ∃ s, r.condition text = .ok s := by
  obtain ⟨⟨word, rest⟩, hheader⟩ := Option.isSome_iff_exists.mp h
  unfold condition
  rw [hheader]
  exact ⟨_, rfl⟩

/-- Cutting off what ends a line may hide its assignment; then the one of the whole line is taken. -/
theorem assignment_ok {text : Text} (h : Assignment.isAssignment text = true) :
    ∃ a, r.assignment text = .ok a := by
  have hsplit : ∃ split, Text.splitAssign? text = some split := by
    unfold Assignment.isAssignment at h
    cases hsplit : Text.splitAssign? text with
    | none =>
        rw [hsplit] at h
        simp at h
    | some split => exact ⟨split, rfl⟩
  obtain ⟨split, hsplit⟩ := hsplit
  unfold assignment
  rw [hsplit]
  -- the split of the whole line stands in where the stripped line has none
  cases Text.splitAssign? (r.spec.strip text) with
  | none => exact ⟨_, rfl⟩
  | some other => exact ⟨_, rfl⟩

/-- A clause is read by the rule that accepts it, so it can always be read. -/
theorem clause_ok (hspec : r.spec.Regular) (role : ClauseRole) (text : Text) :
    ∃ c, r.clause role text = .ok c := by
  unfold clause
  by_cases hdeclaration : Declaration.isDeclaration r.spec text = true
  · rw [if_pos hdeclaration]
    exact exists_ok_bind (declaration_ok hspec hdeclaration) fun d => ⟨_, rfl⟩
  · rw [if_neg hdeclaration]
    by_cases hassignment : Assignment.isAssignment text = true
    · rw [if_pos hassignment]
      exact exists_ok_bind (assignment_ok hassignment) fun a => ⟨_, rfl⟩
    · rw [if_neg hassignment]
      exact ⟨_, rfl⟩

theorem forLoop_ok (hspec : r.spec.Regular) (text : Text) : ∃ s, r.forLoop text = .ok s := by
  refine exists_ok_bind (exists_ok_mapM ?_ _) fun clauses => ⟨_, rfl⟩
  intro part
  exact clause_ok hspec part.1 part.2

end Reader

/-! ## The rules and their table -/

namespace Rule

/-- **A rule finds in a line that it accepts all that it takes out.** -/
theorem extract_ok {rule : Rule} {r : Reader} (hspec : r.spec.Regular) {text : Text}
    (h : rule.accepts r.spec text = true) : ∃ found, rule.extract r text = .ok found := by
  cases rule with
  | variableDeclaration => exact exists_ok_bind (Reader.declaration_ok hspec h) fun d => ⟨_, rfl⟩
  | functionDeclaration => exact exists_ok_bind (FunctionHead.extract_ok h) fun f => ⟨_, rfl⟩
  | condition => exact exists_ok_bind (Reader.condition_ok h) fun s => ⟨_, rfl⟩
  | forHeader => exact exists_ok_bind (Reader.forLoop_ok hspec text) fun s => ⟨_, rfl⟩
  | returning => exact ⟨_, rfl⟩
  | assignment => exact exists_ok_bind (Reader.assignment_ok h) fun a => ⟨_, rfl⟩
  | expression => exact ⟨_, rfl⟩

/-- The standard table has a rule for every line, and that rule accepts it. -/
theorem choose_standard (spec : Dialect.Spec) (text : Text) :
    ∃ rule, choose standard spec text = .ok rule ∧ rule.accepts spec text = true := by
  cases hfind : standard.find? (fun rule => rule.accepts spec text) with
  | none =>
      -- the last rule accepts everything
      have hlast := List.find?_eq_none.mp hfind expression (by decide)
      exact absurd rfl hlast
  | some rule =>
      have haccepts : rule.accepts spec text = true := by simpa using List.find?_some hfind
      exact ⟨rule, by rw [choose, hfind]; rfl, haccepts⟩

end Rule

namespace Reader

variable {r : Reader}

theorem classify_ok (hspec : r.spec.Regular) (line : Text) :
    ∃ outcome, r.classify Rule.standard line = .ok outcome := by
  unfold classify
  by_cases hblank : (Text.normalize line).isEmpty = true
  · exact ⟨.blank, if_pos hblank⟩
  · by_cases hstructural : (Text.normalize line).all Text.isStructural = true
    · exact ⟨.structural, by rw [if_neg hblank, if_pos hstructural]; rfl⟩
    · obtain ⟨rule, hchoose, haccepts⟩ := Rule.choose_standard r.spec (Text.normalize line)
      rw [if_neg hblank, if_neg hstructural]
      refine exists_ok_bind_of_eq hchoose (exists_ok_bind (Rule.extract_ok hspec haccepts) ?_)
      intro found
      cases found.value with
      | none => exact ⟨_, rfl⟩
      | some statement => exact ⟨_, rfl⟩

theorem outcomes_ok (hspec : r.spec.Regular) (settings : Settings) (text : Text) :
    ∃ outcomes, r.outcomes settings text = .ok outcomes := by
  refine exists_ok_mapM ?_ _
  intro line
  exact exists_ok_bind (classify_ok hspec line.2) fun outcome => ⟨_, rfl⟩

/-- Only a snippet of lines asks for rules; an expression is read in any case. -/
theorem understand_ok (hspec : r.spec.Regular) (settings : Settings) (text : Text) :
    ∃ understood, r.understand settings text = .ok understood := by
  unfold understand
  split
  · exact exists_ok_bind (outcomes_ok hspec settings text) fun outcomes => ⟨_, rfl⟩
  · exact ⟨_, rfl⟩

end Reader

/-! ## Lexemes -/

namespace Profile

theorem ne_empty_of_mem_flush {pending : Text} {lexeme : Lexeme} (h : lexeme ∈ flush pending) :
    lexeme ≠ "" := by
  cases pending with
  | nil => simp [flush] at h
  | cons c pending =>
      have heq : lexeme = String.ofList (c :: pending).reverse := List.mem_singleton.mp h
      simp [heq]

theorem ne_empty_of_mem_absorb {profile : Profile} {pending : Text} {c : Char} {lexeme : Lexeme}
    (h : lexeme ∈ (profile.absorb pending c).1) : lexeme ≠ "" := by
  unfold absorb at h
  split at h
  · exact ne_empty_of_mem_flush h
  · split at h
    · rcases List.mem_append.mp h with hflushed | hglyph
      · exact ne_empty_of_mem_flush hflushed
      · rw [List.mem_singleton] at hglyph
        simp [hglyph]
    · simp at h

theorem ne_empty_of_mem_lexemesFrom {profile : Profile} {pending text : Text} {lexeme : Lexeme}
    (h : lexeme ∈ profile.lexemesFrom pending text) : lexeme ≠ "" := by
  -- the four cases are the end of the text, its last character, a glyph of two and any other one
  induction pending, text using lexemesFrom.induct profile with
  | case1 pending => exact ne_empty_of_mem_flush h
  | case2 pending c =>
      rcases List.mem_append.mp h with hdone | hkept
      · exact ne_empty_of_mem_absorb hdone
      · exact ne_empty_of_mem_flush hkept
  | case3 pending c d rest hdouble ih =>
      rw [lexemesFrom.eq_def] at h
      dsimp only at h
      rw [if_pos hdouble, List.mem_append, List.mem_cons] at h
      rcases h with hflushed | hglyph | hlater
      · exact ne_empty_of_mem_flush hflushed
      · simp [hglyph]
      · exact ih hlater
  | case4 pending c d rest hdouble done kept habsorb ih =>
      rw [lexemesFrom.eq_def] at h
      dsimp only at h
      rw [if_neg hdouble, habsorb, List.mem_append] at h
      rcases h with hdone | hlater
      · exact ne_empty_of_mem_absorb (by rw [habsorb]; exact hdone)
      · exact ih hlater

/-- The tokenizer gives no empty lexeme, so every lexeme has a first character to look at. -/
theorem ne_empty_of_mem_tokenize {profile : Profile} {text : Text} {lexeme : Lexeme}
    (h : lexeme ∈ profile.tokenize text) : lexeme ≠ "" :=
  ne_empty_of_mem_lexemesFrom h

end Profile

/-! ## Builds -/

namespace Assembler

/-- What setting up an assembler gives. -/
theorem eq_of_ofName {settings : Settings} {frames : Nat} {name : Option String} {a : Assembler}
    (h : ofName settings frames name = .ok a) :
    ∃ dialect replaced,
      settings.dialectFor (name.getD settings.defaultDialect) = .ok (dialect, replaced) ∧
      a = { settings
            reader := .ofDialect dialect frames
            standing := replaced.toList.map fun name => ⟨.unknownDialect name dialect.label, 0⟩
            warnings := [] } := by
  unfold ofName at h
  cases hdialect : settings.dialectFor (name.getD settings.defaultDialect) with
  | error e =>
      rw [hdialect] at h
      cases h
  | ok found =>
      obtain ⟨dialect, replaced⟩ := found
      rw [hdialect] at h
      cases h
      exact ⟨dialect, replaced, rfl, rfl⟩

/-- Every dialect answers to its own name, whatever the settings. -/
theorem ofName_label (settings : Settings) (frames : Nat) (dialect : Dialect) :
    ofName settings frames (some dialect.label) = .ok
      { settings, reader := .ofDialect dialect frames, standing := [], warnings := [] } := by
  have hknown : Dialect.ofName? dialect.label = some dialect := by cases dialect <;> decide +kernel
  have hdialect : settings.dialectFor dialect.label = .ok (dialect, none) := by
    rw [Settings.dialectFor, hknown]
  unfold ofName
  rw [Option.getD_some, hdialect]
  rfl

theorem regular_of_ofName {settings : Settings} {frames : Nat} {name : Option String}
    {a : Assembler} (h : ofName settings frames name = .ok a) : a.reader.spec.Regular := by
  obtain ⟨dialect, _, -, rfl⟩ := eq_of_ofName h
  exact dialect.regular_spec

/-- A build gives the tree of what the snippet was understood as, and the number after its last
one. -/
theorem build_ok {a : Assembler} (hspec : a.reader.spec.Regular) (text : String) :
    ∃ understood built after, a.reader.understand a.settings text.toList = .ok understood ∧
      a.build text = .ok (built, after) ∧
      (built.tree, built.next) = (understood.program.toTree a.reader.spec.title).run 1 := by
  obtain ⟨understood, hunderstood⟩ := Reader.understand_ok hspec a.settings text.toList
  unfold build
  rw [hunderstood]
  exact ⟨understood, _, _, rfl, rfl, rfl⟩

/-- Nothing that a build looks for is missing. -/
structure NeverFails (a : Assembler) : Prop where
  /-- There is a rule for every line, and the first that is tried with success accepts it. -/
  chosen : ∀ line, ∃ rule, Rule.choose Rule.standard a.reader.spec line = .ok rule ∧
    rule.accepts a.reader.spec line = true
  /-- A rule finds in whatever text it accepts, a line or a clause, all that it takes out. -/
  extracted : ∀ (rule : Rule) (text : Text), rule.accepts a.reader.spec text = true →
    ∃ found, rule.extract a.reader text = .ok found
  /-- Every clause of a loop header can be read. -/
  clauses : ∀ (role : ClauseRole) (text : Text), ∃ c, a.reader.clause role text = .ok c
  /-- Every lexeme has a first character. -/
  lexemes : ∀ (text : Text), ∀ lexeme ∈ a.reader.spec.profile.tokenize text, lexeme ≠ ""
  /-- Every lexeme that the parser reads is read at a position where there is one. -/
  positions : ∀ lexemes : List Lexeme,
    let parsed := a.reader.spec.grammar.parse a.reader.limit lexemes
    Scan.parse lexemes a.reader.spec.grammar a.reader.limit ⟨0, []⟩ =
      .ok (parsed.expr, ⟨parsed.consumed lexemes, parsed.problems⟩)
  /-- Every snippet has a tree. -/
  builds : ∀ text : String, ∃ built after, a.build text = .ok (built, after) ∧
    built.tree.kind = .program

/-- **No build fails**, whatever the dialect and the settings that the assembler was set up for. -/
theorem neverFails_of_ofName {settings : Settings} {frames : Nat} {name : Option String}
    {a : Assembler} (h : ofName settings frames name = .ok a) : a.NeverFails where
  chosen := Rule.choose_standard a.reader.spec
  extracted := by
    intro rule text haccepts
    exact Rule.extract_ok (regular_of_ofName h) haccepts
  clauses := Reader.clause_ok (regular_of_ofName h)
  lexemes := by
    intro text lexeme hlexeme
    exact Profile.ne_empty_of_mem_tokenize hlexeme
  positions := Scan.parse_ok a.reader.spec.grammar a.reader.limit
  builds := by
    intro text
    obtain ⟨understood, built, after, -, hbuild, htree⟩ := build_ok (regular_of_ofName h) text
    have hroot : built.tree = ((understood.program.toTree a.reader.spec.title).run 1).1 :=
      congrArg Prod.fst htree
    refine ⟨built, after, hbuild, ?_⟩
    rw [hroot]
    rfl

/-- An assembler for the dialect with braces never fails. -/
theorem neverFails_c :
    ∃ a, ofName (.ofEnvironment .empty) 1000 (some "c") = .ok a ∧ a.NeverFails :=
  ⟨_, ofName_label (.ofEnvironment .empty) 1000 .c,
    neverFails_of_ofName (ofName_label (.ofEnvironment .empty) 1000 .c)⟩

end Assembler

end SnippetTree
