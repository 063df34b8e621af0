import SnippetTree.Proofs.NestingLimit
import SnippetTree.Proofs.OnePass

/-!
# Keywords decide how names are shown, and nothing else

A grammar has a set of keywords, and the parser looks a name up in it once it has read it. With
another set of keywords the descent goes the same way, call by call: the same lexemes are read, the
same nestings are opened, the same problems are noted. Its results are the results of the first
descent with their names shown anew (`Runs.shownBy`), so the trees have the same nodes with the same
numbers, but for leaves that are a name in one tree and a keyword in the other.

Two dialects whose grammars have nothing but keywords apart, as those of C and Java, therefore read
every text alike.
-/

namespace SnippetTree

/-! ## Names that are shown anew -/

namespace Expr

mutual

/-- The expression with its names shown by the given keywords. -/
def shownBy (keywords : List Lexeme) : Expr → Expr
  | identifier name | keyword name =>
    if name.isKeyword keywords then .keyword name else .identifier name
  | constant text => .constant text
  | placeholder => .placeholder
  | unary operator e => .unary operator (shownBy keywords e)
  | binary operator l r => .binary operator (shownBy keywords l) (shownBy keywords r)
  | leftOnly operator l => .leftOnly operator (shownBy keywords l)
  | rightOnly operator r => .rightOnly operator (shownBy keywords r)
  | call callee es => .call callee (shownAllBy keywords es)

/-- Several expressions with their names shown by the given keywords. -/
def shownAllBy (keywords : List Lexeme) : List Expr → List Expr
  | [] => []
  | e :: es => shownBy keywords e :: shownAllBy keywords es

end

theorem shownAllBy_eq (keywords : List Lexeme) (es : List Expr) :
    shownAllBy keywords es = es.map (shownBy keywords) := by
  induction es with
  | nil => rfl
  | cons e es ih => rw [shownAllBy, ih, List.map_cons]

end Expr

namespace Grammar

/-- The grammar with other keywords. -/
def withKeywords (g : Grammar) (keywords : List Lexeme) : Grammar :=
  { g with keywords }

theorem shownBy_nameLeaf (g : Grammar) (keywords : List Lexeme) (name : Lexeme) :
    (g.nameLeaf name).shownBy keywords = (g.withKeywords keywords).nameLeaf name := by
  unfold nameLeaf
  split <;> rfl

theorem join_shownBy (keywords : List Lexeme) (operator : Lexeme) (left right : Option Expr) :
    join operator (left.map (Expr.shownBy keywords)) (right.map (Expr.shownBy keywords)) =
      ((join operator left right).1.map (Expr.shownBy keywords), (join operator left right).2) := by
  cases left <;> cases right <;> rfl

theorem applySign_shownBy (keywords : List Lexeme) (operator : Lexeme) (operand : Option Expr) :
    applySign operator (operand.map (Expr.shownBy keywords)) =
      ((applySign operator operand).1.map (Expr.shownBy keywords),
        (applySign operator operand).2) := by
  cases operand <;> rfl

end Grammar

/-! ## The descent -/

namespace Descent

/-- What a call is made for, with the names that have been read before shown anew. -/
def Task.shownBy (keywords : List Lexeme) : Task → Task
  | .operators tier tighter left => .operators tier tighter (left.map (Expr.shownBy keywords))
  | .arguments callee before => .arguments callee (before.map (Expr.shownBy keywords))
  | task => task

/-- A result with its names shown anew. -/
def Result.shownBy (keywords : List Lexeme) (r : Result) : Result :=
  { r with value := r.value.map (Expr.shownBy keywords) }

variable {g : Grammar} {limit : Nat} {task : Task} {s : Place} {r : Result} {visited : List Place}

theorem joined_shownBy (keywords : List Lexeme) {operator : Lexeme} {left : Option Expr}
    {right : Result} {e? : Option Expr} (h : (Grammar.join operator left right.value).1 = e?) :
    (Grammar.join operator (left.map (Expr.shownBy keywords)) (right.shownBy keywords).value).1 =
      e?.map (Expr.shownBy keywords) := by
  rw [Result.shownBy, Grammar.join_shownBy, h]

theorem noting_join_shownBy (keywords : List Lexeme) (operator : Lexeme) (left : Option Expr)
    (right : Result) :
    (right.shownBy keywords).noting
        (Grammar.join operator (left.map (Expr.shownBy keywords))) =
      (right.noting (Grammar.join operator left)).shownBy keywords := by
  unfold Result.noting
  rw [Result.shownBy, Grammar.join_shownBy]
  rfl

theorem noting_applySign_shownBy (keywords : List Lexeme) (operator : Lexeme) (operand : Result) :
    (operand.shownBy keywords).noting (Grammar.applySign operator) =
      (operand.noting (Grammar.applySign operator)).shownBy keywords := by
  unfold Result.noting
  rw [Result.shownBy, Grammar.applySign_shownBy]
  rfl

/-- No problem is lost or added. -/
theorem after_shownBy (keywords : List Lexeme) (r before : Result) :
    (r.after before.problems).shownBy keywords =
      (r.shownBy keywords).after (before.shownBy keywords).problems := rfl

/-- One argument more, after those that have been read. -/
theorem arguments_shownBy (keywords : List Lexeme) (callee : Lexeme) (before : List Expr)
    (a : Result) :
    (Task.arguments callee (before ++ a.value.toList)).shownBy keywords =
      .arguments callee
        (before.map (Expr.shownBy keywords) ++ (a.shownBy keywords).value.toList) := by
  obtain ⟨value, problems, place⟩ := a
  cases value <;> simp [Task.shownBy, Result.shownBy]

/-- **With other keywords a call goes the same way**, through the same places. -/
theorem Runs.shownBy (keywords : List Lexeme) (h : Runs g limit task s r visited) :
    Runs (g.withKeywords keywords) limit (task.shownBy keywords) s (r.shownBy keywords)
      visited := by
  -- one rule looks at the keywords, that of a name that is not called; the others only pass on what
  -- has been read before, so their premises hold as they stand
  induction h with
  | noLexeme => exact .noLexeme
  | whole hne _ ih => exact .whole hne ih
  | noTier _ ih => exact .noTier ih
  | tier _ _ ihl ihr => exact .tier ihl ihr
  | noOperator hoff => exact .noOperator hoff
  | joined ha ho _ hjoin _ ihright ih =>
      have hjoined := joined_shownBy keywords hjoin
      rw [after_shownBy, ← noting_join_shownBy]
      exact .joined ha ho ihright hjoined ih
  | noOperand ha ho _ hjoin ih =>
      have hjoined := joined_shownBy keywords hjoin
      have hrun := Runs.noOperand ha ho ih hjoined
      rw [Result.shownBy, Grammar.join_shownBy] at hrun
      exact hrun
  | joinedRight ha ho _ ih =>
      rw [← noting_join_shownBy]
      exact .joinedRight ha ho ih
  | sign ho _ ih =>
      rw [← noting_applySign_shownBy]
      exact .sign ho ih
  | noSign hoff _ ih => exact .noSign hoff ih
  | nothing => exact .nothing
  | group _ hplace ih => exact .group ih hplace
  | groupAtEnd _ hend ih => exact .groupAtEnd ih hend
  | groupLeftOpen _ hplace hcloser ih => exact .groupLeftOpen ih hplace hcloser
  | constant hparen hconst => exact .constant hparen hconst
  | name hparen hconst hident hcall =>
      rw [Result.shownBy, Option.map_some, Grammar.shownBy_nameLeaf]
      exact .name hparen hconst hident hcall
  | call hparen hconst hident _ ih => exact .call hparen hconst hident ih
  | noPrimary hparen hconst hident => exact .noPrimary hparen hconst hident
  | argumentsAtEnd =>
      rw [Result.shownBy, Option.map_some, Expr.shownBy, Expr.shownAllBy_eq]
      exact .argumentsAtEnd
  | argumentsClosed =>
      rw [Result.shownBy, Option.map_some, Expr.shownBy, Expr.shownAllBy_eq]
      exact .argumentsClosed
  | argumentThenPass hcloser _ hplace hpass _ iha ih =>
      rw [arguments_shownBy] at ih
      exact .argumentThenPass hcloser iha hplace hpass ih
  | argumentThenStay hcloser _ hcomma hread _ iha ih =>
      rw [arguments_shownBy] at ih
      exact .argumentThenStay hcloser iha hcomma hread ih
  | nested hroom _ hplace ih => exact .nested hroom ih hplace
  | nothingNested hdeep => exact .nothingNested hdeep
  | tooDeep hdeep _ ih =>
      show Runs _ limit (.nested _) _ ⟨some .placeholder, [.nestedTooDeep limit],
        (Result.shownBy keywords _).place⟩ _
      exact .tooDeep hdeep ih
  | skipAtEnd => exact .skipAtEnd
  | skipClosed => exact .skipClosed
  | skipOver hopen _ ih => exact .skipOver hopen ih

end Descent

/-! ## Trees -/

mutual

/-- The trees are the same, but that some leaves are names in one of them and keywords in the
other. -/
inductive Tree.SameButKeywords : Tree → Tree → Prop where
  | node {label : Label} {ts us : List Tree} : Tree.SameButKeywordsAll ts us →
      Tree.SameButKeywords (.node label ts) (.node label us)
  | shown {id : Int} {word : Lexeme} :
      Tree.SameButKeywords (.mk id .identifier word .identifier [] false)
        (.mk id .keyword word .keyword [] false)
  | hidden {id : Int} {word : Lexeme} :
      Tree.SameButKeywords (.mk id .keyword word .keyword [] false)
        (.mk id .identifier word .identifier [] false)

/-- So are the trees of the two lists, one by one. -/
inductive Tree.SameButKeywordsAll : List Tree → List Tree → Prop where
  | nil : Tree.SameButKeywordsAll [] []
  | cons {t u : Tree} {ts us : List Tree} : Tree.SameButKeywords t u →
      Tree.SameButKeywordsAll ts us → Tree.SameButKeywordsAll (t :: ts) (u :: us)

end

/-- Whatever number is free at the beginning, what is made is related, and as many numbers are
used. -/
def Numbering.Alike {α : Type} (related : α → α → Prop) (x y : Numbering α) : Prop :=
  ∀ first, related (x.run first).1 (y.run first).1 ∧ (x.run first).2 = (y.run first).2

namespace Numbering

variable {α β : Type} {related : α → α → Prop} {related' : β → β → Prop}

theorem alike_pure {a b : α} (h : related a b) : Alike related (pure a) (pure b) :=
  fun _ => ⟨h, rfl⟩

theorem Alike.bind {x y : Numbering α} {f g : α → Numbering β} (hx : Alike related x y)
    (hf : ∀ a b, related a b → Alike related' (f a) (g b)) :
    Alike related' (x >>= f) (y >>= g) := by
  intro first
  obtain ⟨hmade, hnext⟩ := hx first
  rw [run_bind, run_bind, ← hnext]
  exact hf _ _ hmade _

theorem alike_create {ts us : List Tree} (h : Tree.SameButKeywordsAll ts us) (kind : Kind)
    (lexeme : Lexeme) (category : Category) :
    Alike Tree.SameButKeywords (create kind lexeme category ts false)
      (create kind lexeme category us false) :=
  fun _ => ⟨.node h, rfl⟩

end Numbering

open SnippetTree.Numbering (alike_pure alike_create)

mutual

/-- Names that are shown anew change nothing but leaves. -/
theorem Expr.alike_shownBy (keywords : List Lexeme) :
    ∀ e : Expr, e.toTree.Alike Tree.SameButKeywords (e.shownBy keywords).toTree
  | .identifier name => by
      rw [shownBy]
      split
      · exact fun _ => ⟨.shown, rfl⟩
      · exact alike_create .nil _ _ _
  | .keyword word => by
      rw [shownBy]
      split
      · exact alike_create .nil _ _ _
      · exact fun _ => ⟨.hidden, rfl⟩
  | .constant _ => alike_create .nil _ _ _
  | .placeholder => alike_create .nil _ _ _
  | .unary _ e => (alike_shownBy keywords e).bind fun _ _ h => alike_create (.cons h .nil) _ _ _
  | .leftOnly _ e => (alike_shownBy keywords e).bind fun _ _ h => alike_create (.cons h .nil) _ _ _
  | .rightOnly _ e => (alike_shownBy keywords e).bind fun _ _ h => alike_create (.cons h .nil) _ _ _
  | .binary _ l r =>
      (alike_shownBy keywords l).bind fun _ _ hl => (alike_shownBy keywords r).bind fun _ _ hr =>
        alike_create (.cons hl (.cons hr .nil)) _ _ _
  | .call _ es => (alike_shownAllBy keywords es).bind fun _ _ h => alike_create h _ _ _

theorem Expr.alike_shownAllBy (keywords : List Lexeme) : ∀ es : List Expr,
    (toTrees es).Alike Tree.SameButKeywordsAll (toTrees (shownAllBy keywords es))
  | [] => alike_pure .nil
  | e :: es =>
      (alike_shownBy keywords e).bind fun _ _ h => (alike_shownAllBy keywords es).bind fun _ _ hs =>
        alike_pure (.cons h hs)

end

/-! ## Parses and texts -/

/-- Either there are two trees, the same but for keywords, or there is none; and the next free
numbers are the same. -/
def SameTrees (made made' : Option Tree × Int) : Prop :=
  Option.Rel Tree.SameButKeywords made.1 made'.1 ∧ made.2 = made'.2

theorem sameTrees_some {x y : Numbering Tree} (h : x.Alike Tree.SameButKeywords y) (first : Int) :
    SameTrees (some (x.run first).1, (x.run first).2) (some (y.run first).1, (y.run first).2) :=
  ⟨.some (h first).1, (h first).2⟩

theorem sameTrees_numbered (keywords : List Lexeme) (e? : Option Expr) (first : Int) :
    SameTrees (Expr.numbered e? first)
      (Expr.numbered (e?.map (Expr.shownBy keywords)) first) := by
  cases e? with
  | none => exact ⟨.none, rfl⟩
  | some e => exact sameTrees_some (e.alike_shownBy keywords) first

theorem Grammar.parse_withKeywords (g : Grammar) (keywords : List Lexeme) (limit : Nat)
    (lexemes : List Lexeme) : ((g.withKeywords keywords).parse limit lexemes).result =
      (g.parse limit lexemes).result.shownBy keywords := by
  obtain ⟨visited, h⟩ := Descent.runs_parse g limit lexemes
  exact (h.shownBy keywords).eq_parse.symm

namespace Reader

variable {r r' : Reader} {keywords : List Lexeme}

/-- Readers whose grammars have nothing but keywords apart read the same expression. -/
theorem expression?_shownBy (hprofile : r'.spec.profile = r.spec.profile)
    (hgrammar : r'.spec.grammar = r.spec.grammar.withKeywords keywords)
    (hlimit : r'.limit = r.limit) (text : Text) : r'.expression? text =
      ⟨(r.expression? text).value.map (Expr.shownBy keywords), (r.expression? text).problems⟩ := by
  have hparse := r.spec.grammar.parse_withKeywords keywords r.limit (r.spec.profile.tokenize text)
  obtain ⟨hexpr, hproblems, -⟩ := Parse.fields_of_result hparse
  rw [expression?, hprofile, hgrammar, hlimit]
  rw [hexpr, hproblems]
  rfl

theorem sameTrees_treeFrom (hprofile : r'.spec.profile = r.spec.profile)
    (hgrammar : r'.spec.grammar = r.spec.grammar.withKeywords keywords)
    (hlimit : r'.limit = r.limit) (keep : Bool) (text : Text) (first : Int) :
    SameTrees (r.treeFrom keep text first).value (r'.treeFrom keep text first).value ∧
      (r'.treeFrom keep text first).problems = (r.treeFrom keep text first).problems := by
  have hread := expression?_shownBy hprofile hgrammar hlimit text
  cases keep with
  | false =>
      rw [treeFrom, treeFrom, if_neg Bool.false_ne_true, if_neg Bool.false_ne_true, hread]
      exact ⟨sameTrees_numbered keywords _ first, rfl⟩
  | true =>
      rw [treeFrom, treeFrom, if_pos rfl, if_pos rfl, read_eq, read_eq, hread]
      obtain ⟨e?, problems⟩ := r.expression? text
      cases e? with
      | none => exact ⟨sameTrees_some (alike_create .nil _ _ _) first, rfl⟩
      | some e => exact ⟨sameTrees_some (e.alike_shownBy keywords) first, rfl⟩

end Reader

/-- **Keywords decide how names are shown, and nothing else.** Under any two sets of keywords the
same lexemes are read with the same problems, and the trees are the same but for leaves that are a
name in one and a keyword in the other. So are the trees of every text in C and in Java. -/
theorem Grammar.sameTrees_of_keywords :
    (∀ (g : Grammar) (keywords : List Lexeme) (limit : Nat) (lexemes : List Lexeme),
      let p := g.parse limit lexemes
      let q := (g.withKeywords keywords).parse limit lexemes
      q.cursor.rest = p.cursor.rest ∧ q.cursor.depth = p.cursor.depth ∧
        q.problems = p.problems ∧
        ∀ first, SameTrees (Expr.numbered p.expr first) (Expr.numbered q.expr first)) ∧
    ∀ (frames : Nat) (keep : Bool) (text : Text) (first : Int),
      let c := (Reader.ofDialect .c frames).treeFrom keep text first
      let java := (Reader.ofDialect .java frames).treeFrom keep text first
      SameTrees c.value java.value ∧ java.problems = c.problems := by
  refine ⟨?_, ?_⟩
  · intro g keywords limit lexemes
    have hparse := g.parse_withKeywords keywords limit lexemes
    obtain ⟨hexpr, hproblems, hrest, hdepth⟩ := Parse.fields_of_result hparse
    refine ⟨hrest, hdepth, hproblems, ?_⟩
    intro first
    rw [hexpr]
    exact sameTrees_numbered keywords _ first
  · intro frames keep text first
    have hprofile : (Reader.ofDialect .java frames).spec.profile =
        (Reader.ofDialect .c frames).spec.profile := rfl
    have hgrammar : (Reader.ofDialect .java frames).spec.grammar =
        (Reader.ofDialect .c frames).spec.grammar.withKeywords Dialect.javaSpec.grammar.keywords :=
      rfl
    exact Reader.sameTrees_treeFrom hprofile hgrammar rfl keep text first

end SnippetTree
