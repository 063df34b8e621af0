import SnippetTree.Proofs.NestingLimit
import SnippetTree.Proofs.Schema
import SnippetTree.Proofs.Visit

/-!
# The categories of the leaves of a parse

What a lexeme is shown as can be looked up from its spelling: values first, then keywords, then
operators, and all else is a name (`Lexeme.category`). The parser does not look it up. It tries
values, then names, and asks last whether a name is a keyword. Both come to the same because no
operator looks like a name (`Lexeme.category_of_isIdentifier`).

From lexemes to whole trees the way is the descent of the parser. A property of expressions that
every leaf has and that operators and calls pass on holds of whatever is parsed
(`Grammar.Closed.of_parse`); that proof is an induction over all calls and knows nothing of the
property.
-/

namespace SnippetTree

open SnippetTree.Numbering

/-! ## What holds of all that is parsed -/

namespace Grammar

/-- Every leaf that the parser makes has the property, and a node has it if its children do. -/
structure Closed (g : Grammar) (P : Expr → Prop) : Prop where
  placeholder : P .placeholder
  constant : ∀ lexeme : Lexeme, lexeme.isConstant = true → P (.constant lexeme)
  name : ∀ lexeme : Lexeme, lexeme.isConstant = false → lexeme.isIdentifier = true →
    P (g.nameLeaf lexeme)
  unary : ∀ operator e, P e → P (.unary operator e)
  binary : ∀ operator l r, P l → P r → P (.binary operator l r)
  leftOnly : ∀ operator e, P e → P (.leftOnly operator e)
  rightOnly : ∀ operator e, P e → P (.rightOnly operator e)
  call : ∀ callee es, (∀ e ∈ es, P e) → P (.call callee es)

namespace Closed

variable {g : Grammar} {P : Expr → Prop} {operator : Lexeme}

theorem join (hP : g.Closed P) {left right : Option Expr} (hl : ∀ e ∈ left, P e)
    (hr : ∀ e ∈ right, P e) : ∀ e ∈ (Grammar.join operator left right).1, P e := by
  cases left with
  | none =>
      cases right with
      | none => exact nofun
      | some r =>
          rintro _ ⟨⟩
          exact hP.rightOnly _ _ (hr r rfl)
  | some l =>
      cases right with
      | none =>
          rintro _ ⟨⟩
          exact hP.leftOnly _ _ (hl l rfl)
      | some r =>
          rintro _ ⟨⟩
          exact hP.binary _ _ _ (hl l rfl) (hr r rfl)

theorem applySign (hP : g.Closed P) {operand : Option Expr} (h : ∀ e ∈ operand, P e) :
    ∀ e ∈ (Grammar.applySign operator operand).1, P e := by
  cases operand with
  | none =>
      rintro _ ⟨⟩
      exact hP.unary _ _ hP.placeholder
  | some e =>
      rintro _ ⟨⟩
      exact hP.unary _ _ (h e rfl)

end Closed

end Grammar

namespace Descent

/-- What a call gives has a property that leaves have and nodes pass on, if what it is given has
it. -/
theorem Runs.closed {g : Grammar} {limit : Nat} {task : Task} {s : Place} {r : Result}
    {visited : List Place} {P : Expr → Prop} (hP : g.Closed P)
    (h : Runs g limit task s r visited) (hgiven : ∀ e ∈ task.given, P e) :
    ∀ e ∈ r.value, P e := by
  have hnone : ∀ e ∈ ([] : List Expr), P e := fun _ he => absurd he List.not_mem_nil
  have hnothing : ∀ e ∈ (none : Option Expr), P e := nofun
  have hsome : ∀ {e : Expr}, P e → ∀ e' ∈ some e, P e' := by
    rintro e he _ ⟨⟩
    exact he
  induction h with
  | noLexeme => exact hsome hP.placeholder
  | whole _ _ ih => exact ih hnone
  | noTier _ ih => exact ih hnone
  | tier _ _ ihl ihr => exact ihr fun e he => ihl hnone e (Option.mem_toList.mp he)
  | noOperator => exact fun e he => hgiven e (Option.mem_toList.mpr he)
  | joined _ _ _ hjoin _ ihright ih =>
      refine ih (List.forall_mem_singleton.mpr ?_)
      exact hP.join (fun e he => hgiven e (Option.mem_toList.mpr he)) (ihright hnone) _ hjoin
  | noOperand => exact hnothing
  | joinedRight _ _ _ ih =>
      exact hP.join (fun e he => hgiven e (Option.mem_toList.mpr he)) (ih hnone)
  | sign _ _ ih => exact hP.applySign (ih hnone)
  | noSign _ _ ih => exact ih hnone
  | nothing => exact hnothing
  | group _ _ ih => exact ih hnone
  | groupAtEnd _ _ ih => exact ih hnone
  | groupLeftOpen _ _ _ ih => exact ih hnone
  | constant _ hconstant => exact hsome (hP.constant _ hconstant)
  | name _ hconstant hidentifier _ => exact hsome (hP.name _ hconstant hidentifier)
  | call _ _ _ _ ih => exact ih hnone
  | noPrimary => exact hnothing
  | argumentsAtEnd => exact hsome (hP.call _ _ hgiven)
  | argumentsClosed => exact hsome (hP.call _ _ hgiven)
  | argumentThenPass _ _ _ _ _ iha ih =>
      exact ih (List.forall_mem_append.mpr
        ⟨hgiven, fun e he => iha hnone e (Option.mem_toList.mp he)⟩)
  | argumentThenStay _ _ _ _ _ iha ih =>
      exact ih (List.forall_mem_append.mpr
        ⟨hgiven, fun e he => iha hnone e (Option.mem_toList.mp he)⟩)
  | nested _ _ _ ih => exact ih hnone
  | nothingNested => exact hnothing
  | tooDeep => exact hsome hP.placeholder
  | skipAtEnd => exact hnothing
  | skipClosed => exact hnothing
  | skipOver _ _ ih => exact ih hnone

end Descent

/-- **Whatever is parsed has a property that leaves have and nodes pass on.** -/
theorem Grammar.Closed.of_parse {g : Grammar} {P : Expr → Prop} (hP : g.Closed P) (limit : Nat)
    (lexemes : List Lexeme) : ∀ e ∈ (g.parse limit lexemes).expr, P e := by
  obtain ⟨visited, hruns⟩ := Descent.runs_parse g limit lexemes
  exact hruns.closed hP fun _ he => absurd he List.not_mem_nil

/-! ## The category of a lexeme -/

namespace Lexeme

theorem category_of_isConstant {keywords : List Lexeme} {lexeme : Lexeme}
    (h : lexeme.isConstant = true) : category keywords lexeme = .constant := by
  rw [category, if_pos h]

/-- No operator looks like a name, so that a name is not one. -/
theorem category_of_isIdentifier {keywords : List Lexeme} {lexeme : Lexeme}
    (hconstant : lexeme.isConstant = false) (hidentifier : lexeme.isIdentifier = true) :
    category keywords lexeme = if lexeme.isKeyword keywords then .keyword else .identifier := by
  have hnone : ∀ operator ∈ operators, operator.isIdentifier = false := by decide +kernel
  have hoperator : operators.contains lexeme = false := by
    rw [Bool.eq_false_iff, ne_eq, List.contains_iff_mem]
    intro hmem
    rw [hnone lexeme hmem] at hidentifier
    cases hidentifier
  rw [category, hconstant, hoperator]
  rfl

end Lexeme

/-! ## Leaves -/

/-- Nodes of the kind are names, values or keywords. -/
def Kind.isWord : Kind → Bool
  | .identifier | .constant | .keyword => true
  | _ => false

namespace Tree

/-- The names, values and keywords of a tree are leaves, and they are shown as what their lexemes
are looked up as. -/
def Categorised (keywords : List Lexeme) (t : Tree) : Prop :=
  ∀ u ∈ t.walk, u.value.kind.isWord = true →
    u.isLeaf = true ∧ u.value.category = Lexeme.category keywords u.value.lexeme

variable {keywords : List Lexeme} {id : Int} {kind : Kind} {lexeme : Lexeme} {category : Category}
  {children : List Tree} {synthetic : Bool}

theorem categorised_leaf (h : category = Lexeme.category keywords lexeme) :
    (mk id kind lexeme category [] synthetic).Categorised keywords := by
  intro u hu _
  rw [mk, Rose.walk_node, List.flatMap_nil, List.mem_singleton] at hu
  subst hu
  exact ⟨rfl, h⟩

theorem categorised_node (hkind : kind.isWord = false)
    (h : ∀ t ∈ children, t.Categorised keywords) :
    (mk id kind lexeme category children synthetic).Categorised keywords := by
  intro u hu hword
  rw [mk, Rose.walk_node, List.mem_cons, List.mem_flatMap] at hu
  rcases hu with rfl | ⟨t, ht, hu⟩
  · exact absurd hword (Bool.eq_false_iff.mp hkind)
  · exact h t ht u hu hword

end Tree

open SnippetTree.Tree (Categorised categorised_leaf categorised_node)

theorem Expr.always_categorisedAll {keywords : List Lexeme} {es : List Expr}
    (h : ∀ e ∈ es, e.toTree.Always (Categorised keywords)) :
    (toTrees es).Always fun ts => ∀ t ∈ ts, t.Categorised keywords := by
  induction es with
  | nil => exact always_pure fun _ ht => absurd ht List.not_mem_nil
  | cons e es ih =>
      obtain ⟨he, hes⟩ := List.forall_mem_cons.mp h
      exact he.bind fun t ht => (ih hes).bind fun ts hts =>
        always_pure (List.forall_mem_cons.mpr ⟨ht, hts⟩)

/-- Leaves are categorised, an empty place only if the empty lexeme counts as a name; operators and
calls pass it on. -/
theorem Grammar.closed_categorised {g : Grammar}
    (hempty : Lexeme.category g.keywords "" = .identifier) :
    g.Closed fun e => e.toTree.Always (Categorised g.keywords) where
  placeholder := always_create fun _ => categorised_leaf hempty.symm
  constant lexeme h :=
    always_create fun _ => categorised_leaf (Lexeme.category_of_isConstant h).symm
  name lexeme hconstant hidentifier := by
    have hcategory : Lexeme.category g.keywords lexeme = _ :=
      Lexeme.category_of_isIdentifier hconstant hidentifier
    unfold nameLeaf
    cases hkeyword : lexeme.isKeyword g.keywords with
    | true =>
        rw [hkeyword] at hcategory
        exact always_create fun _ => categorised_leaf hcategory.symm
    | false =>
        rw [hkeyword] at hcategory
        exact always_create fun _ => categorised_leaf hcategory.symm
  unary operator e he := he.bind fun t ht =>
    always_create fun _ => categorised_node rfl (List.forall_mem_singleton.mpr ht)
  binary operator l r hl hr := hl.bind fun tl htl => hr.bind fun tr htr =>
    always_create fun _ =>
      categorised_node rfl (List.forall_mem_cons.mpr ⟨htl, List.forall_mem_singleton.mpr htr⟩)
  leftOnly operator e he := he.bind fun t ht =>
    always_create fun _ => categorised_node rfl (List.forall_mem_singleton.mpr ht)
  rightOnly operator e he := he.bind fun t ht =>
    always_create fun _ => categorised_node rfl (List.forall_mem_singleton.mpr ht)
  call callee es hes := (Expr.always_categorisedAll hes).bind fun ts hts =>
    always_create fun _ => categorised_node rfl hts

/-- **The leaves of a parse are shown as what their lexemes are looked up as**, in every dialect and
whatever the lexemes. -/
theorem Dialect.categorised_parse (d : Dialect) (limit : Nat) (lexemes : List Lexeme)
    (first : Int) :
    ∀ t ∈ (Expr.numbered (d.spec.grammar.parse limit lexemes).expr first).1,
      t.Categorised d.spec.grammar.keywords := by
  have hempty : Lexeme.category d.spec.grammar.keywords "" = .identifier := by
    cases d <;> decide +kernel
  have hall := (Grammar.closed_categorised hempty).of_parse limit lexemes
  intro t ht
  cases he : (d.spec.grammar.parse limit lexemes).expr with
  | none =>
      rw [he] at ht
      cases ht
  | some e =>
      rw [he] at ht
      cases ht
      exact hall e he first

/-- A digit of another script is a value, a keyword in mixed case is a keyword, and the operand that
the sign lacks is an empty name. -/
theorem Dialect.categorised_parse_c :
    ∃ t ∈ (Expr.numbered (Dialect.c.spec.grammar.parse 5 ["\u0663", "+", "If", "*", "-"]).expr 1).1,
      t.Categorised Dialect.c.spec.grammar.keywords ∧
        (t.walk.filter (·.value.kind.isWord)).map (fun u => (u.value.lexeme, u.value.category)) =
          [("\u0663", .constant), ("If", .keyword), ("", .identifier)] := by
  have hexpr : (Dialect.c.spec.grammar.parse 5 ["\u0663", "+", "If", "*", "-"]).expr =
      some (.binary "+" (.constant "\u0663")
        (.binary "*" (.keyword "If") (.unary "-" .placeholder))) := by decide +kernel
  have hmem : ((Expr.binary "+" (.constant "\u0663")
      (.binary "*" (.keyword "If") (.unary "-" .placeholder))).toTree.run 1).1 ∈
        (Expr.numbered
          (Dialect.c.spec.grammar.parse 5 ["\u0663", "+", "If", "*", "-"]).expr 1).1 := by
    rw [hexpr]
    rfl
  exact ⟨_, hmem, Dialect.categorised_parse .c 5 _ 1 _ hmem, by decide +kernel⟩

end SnippetTree
