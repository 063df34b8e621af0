import SnippetTree.Proofs.ParserSteps
import SnippetTree.Reading

/-!
# Reading and numbering in one pass

The parser of `Parse.lean` gives an expression, and the nodes of its tree are made and numbered
afterwards. Here the parser is written once more so that it makes each node at the moment when it
has read what belongs to it, and takes the next free number for it then. Nothing forces such a
parser to put every node that it has made into its result, to finish operands before their operator,
or to read in the same way whatever the next free number is. That it does all this is one statement:
it gives what the parser of `Parse.lean` gives, with the tree numbered from the number that was free
at the beginning (`read_eq`).

A function of the one-pass parser *plants* the function of the same name if this holds of the two
from any cursor and any number on. Lines and whole builds are read in one pass on top of this, in
`OnePassLines.lean` and `OnePassBuilds.lean`.
-/

namespace SnippetTree

/-- A parser that makes nodes while it reads: told the next free number, it gives a tree, if one was
begun, and the number that is free afterwards. -/
abbrev TreeParser := (next : Int) → (c : Cursor) → Step (Option Tree × Int) c

namespace OnePass

/-! ## The functions of the parser -/

/-- Makes a node and takes the next free number for it. -/
def grow (kind : Kind) (lexeme : Lexeme) (category : Category) (children : List Tree)
    (next : Int) : Option Tree × Int :=
  (some (.mk next kind lexeme category children false), next + 1)

/-- Makes an operator above those of its operands that were obtained. -/
def join (operator : Lexeme) (left : Option Tree) (right : Option Tree × Int) :
    (Option Tree × Int) × List Problem :=
  let operands := left.toList ++ right.1.toList
  (if operands.isEmpty then (none, right.2)
    else grow .binaryOp operator .operator operands right.2,
   if operands.length < 2 then [.missingOperand operator] else [])

/-- Makes a prefix operator above its operand, or above an empty place that is made for it. -/
def applySign (operator : Lexeme) : Option Tree × Int → (Option Tree × Int) × List Problem
  | (some t, next) => (grow .unaryOp operator .operator [t] next, [])
  | (none, next) =>
    let (place, next) := grow .identifier "" .identifier [] next
    (grow .unaryOp operator .operator place.toList next, [.missingOperand operator])

/-- Reads the operators of one tier that groups to the left, with their right operands. -/
def foldLeft (operators : List Lexeme) (operand : TreeParser) (left : Option Tree) (next : Int) :
    (c : Cursor) → Step (Option Tree × Int) c
  | ⟨operator :: rest, depth, deepest⟩ =>
    if operators.contains operator then
      let joined := ((operand next ⟨rest, depth, deepest⟩).mapNoting (join operator left)).afterOne
      match joined.value with
      | (none, _) => joined
      | (some t, next) =>
        let more := foldLeft operators operand (some t) next joined.cursor
        ⟨more.value, more.cursor, joined.problems ++ more.problems,
          more.suffix.trans joined.suffix⟩
    else .stay (left, next) ⟨operator :: rest, depth, deepest⟩
  | c => .stay (left, next) c
termination_by c => c.rest.length
decreasing_by
  exact Nat.lt_succ_of_le
    ((operand _ ⟨rest, depth, deepest⟩).mapNoting (join operator left)).suffix.length_le

/-- Reads at most one operator of a tier that groups to the right, with its right operand. -/
def foldRight (operators : List Lexeme) (operand : TreeParser) (left : Option Tree) (next : Int) :
    (c : Cursor) → Step (Option Tree × Int) c
  | ⟨operator :: rest, depth, deepest⟩ =>
    if operators.contains operator then
      ((operand next ⟨rest, depth, deepest⟩).mapNoting (join operator left)).afterOne
    else .stay (left, next) ⟨operator :: rest, depth, deepest⟩
  | c => .stay (left, next) c

/-- Ends a group. -/
def closeGroup (inner : Option Tree × Int) : (c : Cursor) → Step (Option Tree × Int) c
  | ⟨[], depth, deepest⟩ =>
    (Step.stay inner ⟨[], depth, deepest⟩).mapNoting fun inner => (inner, [.unclosedGroup "("])
  | ⟨lexeme :: rest, depth, deepest⟩ =>
    if lexeme = ")" then (Step.stay inner ⟨rest, depth, deepest⟩).afterOne
    else .stay inner ⟨lexeme :: rest, depth, deepest⟩

/-- Reads the arguments of a call up to the parenthesis that closes it. -/
def arguments (operand : TreeParser) (next : Int) : (c : Cursor) → Step (List Tree × Int) c
  | ⟨[], depth, deepest⟩ =>
    (Step.stay next ⟨[], depth, deepest⟩).mapNoting fun next => (([], next), [.unclosedGroup "("])
  | ⟨lexeme :: rest, depth, deepest⟩ =>
    if lexeme = ")" then (Step.stay ([], next) ⟨rest, depth, deepest⟩).afterOne
    else
      let argument := operand next ⟨lexeme :: rest, depth, deepest⟩
      let passed := Grammar.passComma ⟨lexeme :: rest, depth, deepest⟩ argument.cursor
      let more := arguments operand argument.value.2 passed.cursor
      ⟨(argument.value.1.toList ++ more.value.1, more.value.2), more.cursor,
        argument.problems ++ more.problems,
        more.suffix.trans (passed.suffix.trans argument.suffix)⟩
termination_by c => c.rest.length
decreasing_by
  exact Grammar.passComma_lt (operand next ⟨lexeme :: rest, depth, deepest⟩).suffix (by simp)

/-- Reads a group, a value, a name or a call. A call is made after its arguments. -/
def primary (g : Grammar) (nested : List Tier → TreeParser) : TreeParser
  | next, ⟨lexeme :: rest, depth, deepest⟩ =>
    if lexeme = "(" then
      ((nested g.tiers next ⟨rest, depth, deepest⟩).andThen closeGroup).afterOne
    else if lexeme.isConstant then
      (Step.stay (grow .constant lexeme .constant [] next) ⟨rest, depth, deepest⟩).afterOne
    else if lexeme.isIdentifier then
      match rest with
      | "(" :: inside =>
        ((arguments (nested g.tiers) next ⟨inside, depth, deepest⟩).mapNoting
          fun (ts, next) => (grow .call lexeme .identifier ts next, [])).afterOne.afterOne
      | rest =>
        let leaf := if lexeme.isKeyword g.keywords then grow .keyword lexeme .keyword [] next
          else grow .identifier lexeme .identifier [] next
        (Step.stay leaf ⟨rest, depth, deepest⟩).afterOne
    else .stay (none, next) ⟨lexeme :: rest, depth, deepest⟩
  | next, c => .stay (none, next) c

/-- Reads prefix operators and the operand that they apply to. -/
def unary (g : Grammar) (nested : List Tier → TreeParser) : TreeParser
  | next, ⟨lexeme :: rest, depth, deepest⟩ =>
    if g.signs.contains lexeme then
      ((nested [] next ⟨rest, depth, deepest⟩).mapNoting (applySign lexeme)).afterOne
    else primary g nested next ⟨lexeme :: rest, depth, deepest⟩
  | next, c => primary g nested next c

/-- Reads an expression of the given tiers. -/
def climb (g : Grammar) (nested : List Tier → TreeParser) : List Tier → TreeParser
  | [] => unary g nested
  | tier :: tighter => fun next c =>
    (climb g nested tighter next c).andThen fun left =>
      if tier.rightAssociative then
        foldRight tier.operators (nested (tier :: tighter)) left.1 left.2
      else foldLeft tier.operators (climb g nested tighter) left.1 left.2

/-- What is left after a part has been passed over. -/
theorem skip_suffix (lexeme : Lexeme) (rest : List Lexeme) :
    Grammar.dropNested 0 (lexeme :: rest) <:+ lexeme :: rest :=
  Grammar.dropNested_suffix 0 (lexeme :: rest)

/-- Passes over a part that nests too deeply and makes an empty place where it stood. -/
def skip (limit : Nat) : TreeParser
  | next, ⟨[], depth, deepest⟩ => .stay (none, next) ⟨[], depth, deepest⟩
  | next, ⟨lexeme :: rest, depth, deepest⟩ =>
    ⟨grow .identifier "" .identifier [] next,
      ⟨Grammar.dropNested 0 (lexeme :: rest), depth, deepest⟩, [.nestedTooDeep limit],
      skip_suffix lexeme rest⟩

/-- Reads a part inside a nesting, when that many nestings may still be entered. -/
def nestedAt (g : Grammar) (limit : Nat) : (room : Nat) → List Tier → TreeParser
  | 0, _ => skip limit
  | room + 1, tiers => fun next c =>
    let inner := climb g (nestedAt g limit room) tiers next c.enter
    ⟨inner.value, inner.cursor.leave, inner.problems, inner.suffix⟩

/-- Parses lexemes as one expression. -/
def parse (g : Grammar) (limit : Nat) (lexemes : List Lexeme) (next : Int) :
    Report (Option Tree × Int) :=
  if lexemes.isEmpty then ⟨grow .identifier "" .identifier [] next, [.emptyExpression]⟩
  else
    let whole := climb g (nestedAt g limit limit) g.tiers next (.start lexemes)
    let rest := whole.cursor.rest
    ⟨whole.value, whole.problems ++ if rest.isEmpty then [] else [.trailingLexemes rest]⟩

/-- Reads a text. If it holds no expression and is to be kept, it becomes one node. -/
def read (r : Reader) (keep : Bool) (text : Text) (next : Int) : Report (Option Tree × Int) :=
  let lexemes := r.spec.profile.tokenize text
  let parsed := parse r.spec.grammar r.limit lexemes next
  let problems := Problem.ofLexemes lexemes ++ parsed.problems
  match parsed.value with
  | (some t, next) => ⟨(some t, next), problems⟩
  | (none, next) =>
    if keep then
      ⟨grow .expression (String.ofList text) .constant [] next,
        problems ++ [.keptRaw (String.ofList text)]⟩
    else ⟨(none, next), problems⟩

end OnePass

namespace Step

variable {α β γ δ : Type} {c : Cursor}

/-- The step with another value. -/
def map (f : α → β) (s : Step α c) : Step β c :=
  ⟨f s.value, s.cursor, s.problems, s.suffix⟩

theorem afterOne_map {lexeme : Lexeme} {rest : List Lexeme} {depth deepest : Nat}
    (s : Step α ⟨rest, depth, deepest⟩) (f : α → β) :
    (s.map f).afterOne = ((s.afterOne : Step α ⟨lexeme :: rest, depth, deepest⟩).map f) := rfl

/-- The new value may be made before or after problems are noted. -/
theorem mapNoting_map {s : Step α c} {f : α → β × List Problem} {f' : γ → δ × List Problem}
    {before : α → γ} {after : β → δ}
    (h : f' (before s.value) = (after (f s.value).1, (f s.value).2)) :
    (s.map before).mapNoting f' = (s.mapNoting f).map after := by
  ext1
  · exact congrArg Prod.fst h
  · rfl
  · exact congrArg (s.problems ++ ·) (congrArg Prod.snd h)

theorem map_andThen (s : Step α c) (f : α → γ) (next : γ → (c' : Cursor) → Step β c') :
    (s.map f).andThen next = s.andThen fun a => next (f a) := rfl

/-- The new value may be made by what comes next, or after it. -/
theorem andThen_map {s : Step α c} {next : α → (c' : Cursor) → Step β c'}
    {next' : α → (c' : Cursor) → Step γ c'} {f : β → γ}
    (h : next' s.value s.cursor = (next s.value s.cursor).map f) :
    s.andThen next' = (s.andThen next).map f := by
  ext1
  · exact (congrArg Step.value h :)
  · exact (congrArg Step.cursor h :)
  · exact congrArg (s.problems ++ ·) (congrArg Step.problems h)

end Step

namespace OnePass

open SnippetTree.Expr (numbered)

/-! ## What the parser gives -/

/-- From any cursor and any number on, the parser that makes nodes gives the numbered tree of what
the other one gives, and stops at the same cursor with the same problems. -/
def Plants (planting : TreeParser) (parser : ExprParser) : Prop :=
  ∀ first c, planting first c = (parser c).map (numbered · first)

/-- The left operand of an operator has been numbered before the right one. -/
theorem mapNoting_join {c : Cursor} (operator : Lexeme) (left : Option Expr) (first : Int)
    (right : Step (Option Expr) c) :
    (right.map (numbered · (numbered left first).2)).mapNoting
        (join operator (numbered left first).1) =
      (right.mapNoting (Grammar.join operator left)).map (numbered · first) := by
  refine Step.mapNoting_map ?_
  cases left <;> cases right.value <;> rfl

theorem mapNoting_applySign {c : Cursor} (operator : Lexeme) (first : Int)
    (operand : Step (Option Expr) c) :
    (operand.map (numbered · first)).mapNoting (applySign operator) =
      (operand.mapNoting (Grammar.applySign operator)).map (numbered · first) := by
  refine Step.mapNoting_map ?_
  cases operand.value <;> rfl

section Functions

variable {planting : TreeParser} {operand : ExprParser} {operators : List Lexeme}
  {g : Grammar} {planted : List Tier → TreeParser} {nested : List Tier → ExprParser}
  {lexeme operator : Lexeme} {rest : List Lexeme} {depth deepest : Nat}

/-! ### Operators -/

theorem foldLeft_off {c : Cursor} (h : Grammar.Off c.rest operators) (left : Option Tree)
    (next : Int) : foldLeft operators planting left next c = .stay (left, next) c := by
  obtain ⟨rest, depth, deepest⟩ := c
  cases rest with
  | nil => rw [foldLeft.eq_def]
  | cons other rest =>
      have hother : other ∉ operators := h other (by simp)
      rw [foldLeft.eq_def]
      simp [hother]

/-- How the loop goes on after an operator and its right operand. -/
def goOn (operators : List Lexeme) (planting : TreeParser) :
    Option Tree × Int → (c : Cursor) → Step (Option Tree × Int) c
  | (none, next) => Step.stay (none, next)
  | (some t, next) => foldLeft operators planting (some t) next

theorem foldLeft_cons (h : operator ∈ operators) (left : Option Tree) (next : Int) :
    foldLeft operators planting left next ⟨operator :: rest, depth, deepest⟩ =
      ((planting next ⟨rest, depth, deepest⟩).mapNoting (join operator left)).afterOne.andThen
        (goOn operators planting) := by
  rw [foldLeft.eq_def]
  simp only [List.contains_iff_mem, h, if_true]
  split
  · rename_i hnone
    ext1
    · simp [Step.andThen, goOn, hnone, Step.stay]
    · simp [Step.andThen, goOn, hnone, Step.stay]
    · simp [Step.andThen, goOn, hnone, Step.stay]
  · rename_i t free hsome
    ext1
    · simp [Step.andThen, goOn, hsome]
    · simp [Step.andThen, goOn, hsome]
    · simp [Step.andThen, goOn, hsome]

theorem plants_foldLeft (h : Plants planting operand) (left : Option Expr) (first : Int)
    (c : Cursor) :
    foldLeft operators planting (numbered left first).1 (numbered left first).2 c =
      (Grammar.foldLeft operators operand left c).map (numbered · first) := by
  -- each round reads an operator, so the lexemes that are left get fewer
  induction hlength : c.rest.length using Nat.strongRecOn generalizing left c with
  | ind k ih =>
      obtain ⟨rest, depth, deepest⟩ := c
      rcases Grammar.off_or_cons operators rest with hoff | ⟨operator, rest, rfl, ho⟩
      · rw [foldLeft_off hoff, Grammar.foldLeft_off hoff]
        rfl
      · rw [foldLeft_cons ho, Grammar.foldLeft_cons ho, h, mapNoting_join, Step.afterOne_map,
          Step.map_andThen]
        refine Step.andThen_map ?_
        generalize ((operand ⟨rest, depth, deepest⟩).mapNoting _) = joined
        have hshort : joined.cursor.rest.length < k := by
          have hle := joined.suffix.length_le
          simp only [List.length_cons] at hlength hle
          omega
        show goOn operators planting (numbered joined.value first) joined.cursor =
          (Grammar.goOn operators operand joined.value joined.cursor).map (numbered · first)
        cases joined.value with
        | none => rfl
        | some e => exact ih _ hshort (some e) _ rfl

theorem foldRight_off {c : Cursor} (h : Grammar.Off c.rest operators) (left : Option Tree)
    (next : Int) : foldRight operators planting left next c = .stay (left, next) c := by
  obtain ⟨rest, depth, deepest⟩ := c
  cases rest with
  | nil => rfl
  | cons other rest =>
      have hother : other ∉ operators := h other (by simp)
      simp [foldRight, hother]

theorem foldRight_cons (h : operator ∈ operators) (left : Option Tree) (next : Int) :
    foldRight operators planting left next ⟨operator :: rest, depth, deepest⟩ =
      ((planting next ⟨rest, depth, deepest⟩).mapNoting (join operator left)).afterOne := by
  simp [foldRight, h]

theorem plants_foldRight (h : Plants planting operand) (left : Option Expr) (first : Int)
    (c : Cursor) :
    foldRight operators planting (numbered left first).1 (numbered left first).2 c =
      (Grammar.foldRight operators operand left c).map (numbered · first) := by
  obtain ⟨rest, depth, deepest⟩ := c
  rcases Grammar.off_or_cons operators rest with hoff | ⟨operator, rest, rfl, ho⟩
  · rw [foldRight_off hoff, Grammar.foldRight_off hoff]
    rfl
  · rw [foldRight_cons ho, Grammar.foldRight_cons ho, h, mapNoting_join]
    rfl

/-! ### Operands -/

theorem plants_closeGroup (inner : Option Expr) (first : Int) (c : Cursor) :
    closeGroup (numbered inner first) c =
      (Grammar.closeGroup inner c).map (numbered · first) := by
  obtain ⟨rest, depth, deepest⟩ := c
  cases rest with
  | nil => rfl
  | cons lexeme rest =>
      simp only [closeGroup, Grammar.closeGroup]
      split <;> rfl

theorem arguments_cons (h : lexeme ≠ ")") (next : Int) :
    arguments planting next ⟨lexeme :: rest, depth, deepest⟩ =
      (planting next ⟨lexeme :: rest, depth, deepest⟩).andThen fun argument c =>
        (Grammar.passComma ⟨lexeme :: rest, depth, deepest⟩ c).andThen fun _ c =>
          (arguments planting argument.2 c).mapNoting fun more =>
            ((argument.1.toList ++ more.1, more.2), []) := by
  rw [arguments.eq_def]
  simp only [h, if_false]
  ext1
  · rfl
  · rfl
  · simp [Step.andThen, Step.mapNoting, Grammar.passComma_problems]

/-- One argument more in front of others. -/
theorem toTrees_append (argument : Option Expr) (es : List Expr) (first : Int) :
    (Expr.toTrees (argument.toList ++ es)).run first =
      ((numbered argument first).1.toList ++
          ((Expr.toTrees es).run (numbered argument first).2).1,
        ((Expr.toTrees es).run (numbered argument first).2).2) := by
  cases argument <;> rfl

theorem plants_arguments (h : Plants planting operand) (first : Int) (c : Cursor) :
    arguments planting first c =
      (Grammar.arguments operand c).map fun es => (Expr.toTrees es).run first := by
  -- each round reads at least one lexeme, whatever the argument was
  induction hlength : c.rest.length using Nat.strongRecOn generalizing first c with
  | ind k ih =>
      obtain ⟨rest, depth, deepest⟩ := c
      cases rest with
      | nil =>
          rw [arguments.eq_def, Grammar.arguments_nil]
          rfl
      | cons lexeme rest =>
          by_cases hcloser : lexeme = ")"
          · subst hcloser
            rw [arguments.eq_def, Grammar.arguments_closer]
            rfl
          · rw [arguments_cons hcloser, Grammar.arguments_cons hcloser, h, Step.map_andThen]
            have hless := Grammar.passComma_lt
              (operand ⟨lexeme :: rest, depth, deepest⟩).suffix (List.cons_ne_nil lexeme rest)
            generalize operand ⟨lexeme :: rest, depth, deepest⟩ = argument at hless
            refine Step.andThen_map ?_
            generalize Grammar.passComma ⟨lexeme :: rest, depth, deepest⟩ argument.cursor =
              passed at hless
            refine Step.andThen_map ?_
            rw [ih _ (hlength ▸ hless) _ _ rfl]
            exact Step.mapNoting_map
              (congrArg (·, []) (toTrees_append argument.value _ first).symm)

theorem primary_group (next : Int) : primary g planted next ⟨"(" :: rest, depth, deepest⟩ =
    ((planted g.tiers next ⟨rest, depth, deepest⟩).andThen closeGroup).afterOne := rfl

theorem primary_constant (hparen : lexeme ≠ "(") (h : lexeme.isConstant = true) (next : Int) :
    primary g planted next ⟨lexeme :: rest, depth, deepest⟩ =
      (Step.stay (grow .constant lexeme .constant [] next) ⟨rest, depth, deepest⟩).afterOne := by
  rw [primary.eq_def]
  simp [hparen, h]

theorem primary_name (hparen : lexeme ≠ "(") (hconst : lexeme.isConstant = false)
    (h : lexeme.isIdentifier = true) (hrest : rest.head? ≠ some "(") (next : Int) :
    primary g planted next ⟨lexeme :: rest, depth, deepest⟩ =
      (Step.stay (numbered (some (g.nameLeaf lexeme)) next) ⟨rest, depth, deepest⟩).afterOne := by
  have hleaf : numbered (some (g.nameLeaf lexeme)) next =
      if lexeme.isKeyword g.keywords then grow .keyword lexeme .keyword [] next
        else grow .identifier lexeme .identifier [] next := by
    unfold Grammar.nameLeaf
    split <;> rfl
  rw [primary.eq_def, hleaf]
  cases rest with
  | nil => simp [hparen, hconst, h]
  | cons other rest =>
      have hother : other ≠ "(" := by simpa using hrest
      simp [hparen, hconst, h, hother]

theorem primary_call (hparen : lexeme ≠ "(") (hconst : lexeme.isConstant = false)
    (h : lexeme.isIdentifier = true) (next : Int) :
    primary g planted next ⟨lexeme :: "(" :: rest, depth, deepest⟩ =
      ((arguments (planted g.tiers) next ⟨rest, depth, deepest⟩).mapNoting
        fun (ts, next) => (grow .call lexeme .identifier ts next, [])).afterOne.afterOne := by
  rw [primary.eq_def]
  simp [hparen, hconst, h]

theorem primary_other (hparen : lexeme ≠ "(") (hconst : lexeme.isConstant = false)
    (h : lexeme.isIdentifier = false) (next : Int) :
    primary g planted next ⟨lexeme :: rest, depth, deepest⟩ =
      .stay (none, next) ⟨lexeme :: rest, depth, deepest⟩ := by
  rw [primary.eq_def]
  simp [hparen, hconst, h]

theorem plants_primary (h : ∀ tiers, Plants (planted tiers) (nested tiers)) :
    Plants (primary g planted) (g.primary nested) := by
  intro first c
  obtain ⟨rest, depth, deepest⟩ := c
  cases rest with
  | nil => rfl
  | cons lexeme rest =>
      by_cases hparen : lexeme = "("
      · subst hparen
        have hgroup : ((nested g.tiers ⟨rest, depth, deepest⟩).andThen fun inner =>
            closeGroup (numbered inner first)) = ((nested g.tiers ⟨rest, depth, deepest⟩).andThen
              Grammar.closeGroup).map (numbered · first) :=
          Step.andThen_map (plants_closeGroup _ first _)
        rw [primary_group, Grammar.primary_group, h, Step.map_andThen, hgroup]
        rfl
      cases hconst : lexeme.isConstant with
      | true =>
          rw [primary_constant hparen hconst, Grammar.primary_constant hparen hconst]
          rfl
      | false =>
          cases hident : lexeme.isIdentifier with
          | true =>
              by_cases hcall : rest.head? = some "("
              · obtain ⟨inside, rfl⟩ := List.head?_eq_some_iff.mp hcall
                rw [primary_call hparen hconst hident, Grammar.primary_call hparen hconst hident,
                  plants_arguments (h g.tiers)]
                rfl
              · rw [primary_name hparen hconst hident hcall,
                  Grammar.primary_name hparen hconst hident hcall]
                rfl
          | false =>
              rw [primary_other hparen hconst hident, Grammar.primary_other hparen hconst hident]
              rfl

theorem unary_sign (h : operator ∈ g.signs) (next : Int) :
    unary g planted next ⟨operator :: rest, depth, deepest⟩ =
      ((planted [] next ⟨rest, depth, deepest⟩).mapNoting (applySign operator)).afterOne := by
  simp [unary, h]

theorem unary_off {c : Cursor} (h : Grammar.Off c.rest g.signs) (next : Int) :
    unary g planted next c = primary g planted next c := by
  obtain ⟨rest, depth, deepest⟩ := c
  cases rest with
  | nil => rfl
  | cons other rest =>
      have hother : other ∉ g.signs := h other (by simp)
      simp [unary, hother]

theorem plants_unary (h : ∀ tiers, Plants (planted tiers) (nested tiers)) :
    Plants (unary g planted) (g.unary nested) := by
  intro first c
  obtain ⟨rest, depth, deepest⟩ := c
  rcases Grammar.off_or_cons g.signs rest with hoff | ⟨operator, rest, rfl, ho⟩
  · rw [unary_off hoff, Grammar.unary_off hoff]
    exact plants_primary h first _
  · rw [unary_sign ho, Grammar.unary_sign ho, h, mapNoting_applySign]
    rfl

/-! ### Tiers and nestings -/

theorem climb_left {tier : Tier} {tiers : List Tier} (h : tier.rightAssociative = false)
    (next : Int) (c : Cursor) : climb g planted (tier :: tiers) next c =
      (climb g planted tiers next c).andThen fun left =>
        foldLeft tier.operators (climb g planted tiers) left.1 left.2 := by
  rw [climb, h]
  rfl

theorem climb_right {tier : Tier} {tiers : List Tier} (h : tier.rightAssociative = true)
    (next : Int) (c : Cursor) : climb g planted (tier :: tiers) next c =
      (climb g planted tiers next c).andThen fun left =>
        foldRight tier.operators (planted (tier :: tiers)) left.1 left.2 := by
  rw [climb, h]
  rfl

theorem plants_climb (h : ∀ tiers, Plants (planted tiers) (nested tiers)) (tiers : List Tier) :
    Plants (climb g planted tiers) (g.climb nested tiers) := by
  induction tiers with
  | nil => exact plants_unary h
  | cons tier tighter ih =>
      intro first c
      cases ha : tier.rightAssociative with
      | false =>
          rw [climb_left ha, Grammar.climb_left ha, ih, Step.map_andThen]
          exact Step.andThen_map (plants_foldLeft ih _ first _)
      | true =>
          rw [climb_right ha, Grammar.climb_right ha, ih, Step.map_andThen]
          exact Step.andThen_map (plants_foldRight (h _) _ first _)

theorem plants_skip (limit : Nat) : Plants (skip limit) (Grammar.skip limit) := by
  intro first c
  obtain ⟨rest, depth, deepest⟩ := c
  cases rest <;> rfl

theorem plants_nestedAt (limit room : Nat) (tiers : List Tier) :
    Plants (nestedAt g limit room tiers) (g.nestedAt limit room tiers) := by
  induction room generalizing tiers with
  | zero => exact plants_skip limit
  | succ room ih =>
      intro first c
      have hinner : climb g (nestedAt g limit room) tiers first c.enter =
          (g.climb (g.nestedAt limit room) tiers c.enter).map (numbered · first) :=
        plants_climb ih tiers first c.enter
      ext1
      · exact (congrArg Step.value hinner :)
      · exact congrArg Cursor.leave (congrArg Step.cursor hinner)
      · exact (congrArg Step.problems hinner :)

end Functions

/-- **The parser that makes nodes while it reads gives the tree of the expression**, numbered from
the number on that was free at the beginning, and notes the same problems. -/
theorem parse_eq (g : Grammar) (limit : Nat) (lexemes : List Lexeme) (first : Int) :
    parse g limit lexemes first =
      ⟨numbered (g.parse limit lexemes).expr first, (g.parse limit lexemes).problems⟩ := by
  unfold parse Grammar.parse
  split
  · rfl
  · rw [plants_climb fun tiers => plants_nestedAt limit limit tiers]
    rfl

end OnePass

theorem Reader.read_eq (r : Reader) (text : Text) :
    r.read text = match r.expression? text with
      | ⟨some e, problems⟩ => ⟨.expr e, problems⟩
      | ⟨none, problems⟩ =>
        ⟨.raw (String.ofList text), problems ++ [.keptRaw (String.ofList text)]⟩ := by
  rw [read]
  obtain ⟨e?, problems⟩ := r.expression? text
  cases e? with
  | none => rfl
  | some e => exact congrArg (Report.mk _) (List.append_nil problems)

/-- **A text that is read and numbered in one pass gives what it gives when it is read first.** -/
theorem OnePass.read_eq (r : Reader) (keep : Bool) (text : Text) (first : Int) :
    read r keep text first = r.treeFrom keep text first := by
  rw [read, parse_eq]
  cases keep with
  | false =>
      rw [Reader.treeFrom, if_neg Bool.false_ne_true, Reader.expression?]
      cases (r.spec.grammar.parse r.limit (r.spec.profile.tokenize text)).expr <;> rfl
  | true =>
      rw [Reader.treeFrom, if_pos rfl, Reader.read_eq, Reader.expression?]
      cases (r.spec.grammar.parse r.limit (r.spec.profile.tokenize text)).expr <;> rfl

end SnippetTree
