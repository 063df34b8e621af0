import SnippetTree.Proofs.Descent
import SnippetTree.Proofs.Schema
import SnippetTree.Dialect

/-!
# Nothing is reordered, repeated or made up

Whatever the lexemes are, those of the nodes of a parsed tree come from what was read: taken in the
order of the source, and without the empty places, they are what remains of the lexemes before the
place where the parse stands at its end, when some of them are struck out. The parser recovers from
damage in many ways, and each of them reads on and takes a lexeme into the tree at most once.

In the order of the source an operator stands between its operands, and before or after the only one
it has. The side cannot be seen in the tree, so the order of a tree is a relation (`InOrder`), and
the expression that was parsed tells which of the orders is meant (`Expr.written`).
-/

namespace SnippetTree

/-! ## The order of the source -/

namespace Tree

mutual

/-- The lexemes of the nodes of the tree of an expression, in the order of the source. An empty
place has none; an operator with one operand stands on either side of it. -/
inductive InOrder : Tree → List Lexeme → Prop where
  | placeholder (id : Int) : InOrder (.mk id .identifier "" .identifier [] false) []
  | identifier (id : Int) {name : Lexeme} : name ≠ "" →
      InOrder (.mk id .identifier name .identifier [] false) [name]
  | keyword (id : Int) (word : Lexeme) :
      InOrder (.mk id .keyword word .keyword [] false) [word]
  | constant (id : Int) (text : Lexeme) :
      InOrder (.mk id .constant text .constant [] false) [text]
  | unary (id : Int) (operator : Lexeme) {operand : Tree} {words : List Lexeme} :
      InOrder operand words →
      InOrder (.mk id .unaryOp operator .operator [operand] false) (operator :: words)
  | binary (id : Int) (operator : Lexeme) {left right : Tree} {before after : List Lexeme} :
      InOrder left before → InOrder right after →
      InOrder (.mk id .binaryOp operator .operator [left, right] false)
        (before ++ operator :: after)
  | leftOnly (id : Int) (operator : Lexeme) {left : Tree} {before : List Lexeme} :
      InOrder left before →
      InOrder (.mk id .binaryOp operator .operator [left] false) (before ++ [operator])
  | rightOnly (id : Int) (operator : Lexeme) {right : Tree} {after : List Lexeme} :
      InOrder right after →
      InOrder (.mk id .binaryOp operator .operator [right] false) (operator :: after)
  | call (id : Int) (callee : Lexeme) {arguments : List Tree} {words : List Lexeme} :
      AllInOrder arguments words →
      InOrder (.mk id .call callee .identifier arguments false) (callee :: words)

/-- The lexemes of the nodes of several trees, one tree after the other. -/
inductive AllInOrder : List Tree → List Lexeme → Prop where
  | nil : AllInOrder [] []
  | cons {t : Tree} {ts : List Tree} {words others : List Lexeme} :
      InOrder t words → AllInOrder ts others → AllInOrder (t :: ts) (words ++ others)

end

end Tree

namespace Expr

mutual

/-- The lexemes that an expression was written with, parentheses and commas apart, in the order in
which they were read. -/
def written : Expr → List Lexeme
  | identifier name => if name = "" then [] else [name]
  | keyword w | constant w => [w]
  | placeholder => []
  | unary operator e | rightOnly operator e => operator :: written e
  | binary operator l r => written l ++ operator :: written r
  | leftOnly operator l => written l ++ [operator]
  | call callee es => callee :: writtenAll es

/-- The lexemes that several expressions were written with. -/
def writtenAll : List Expr → List Lexeme
  | [] => []
  | e :: es => written e ++ writtenAll es

end

/-- The lexemes that an expression was written with, if there is one. -/
def writtenIn (value : Option Expr) : List Lexeme :=
  value.elim [] written

theorem writtenAll_append (es : List Expr) (value : Option Expr) :
    writtenAll (es ++ value.toList) = writtenAll es ++ writtenIn value := by
  induction es with
  | nil => cases value <;> simp [writtenAll, writtenIn]
  | cons e es ih => rw [List.cons_append, writtenAll, writtenAll, ih, List.append_assoc]

theorem written_nameLeaf_sublist (g : Grammar) (name : Lexeme) :
    (g.nameLeaf name).written.Sublist [name] := by
  unfold Grammar.nameLeaf
  split
  · exact List.Sublist.refl _
  · rw [written]
    split
    · exact List.nil_sublist _
    · exact List.Sublist.refl _

open SnippetTree.Numbering SnippetTree.Tree

mutual

/-- **The tree of an expression has its lexemes in the order in which they were read.** -/
theorem always_inOrder : ∀ e : Expr, e.toTree.Always fun t => t.InOrder e.written
  | .identifier name => always_create fun id => by
      rw [written]
      split
      · rename_i hempty
        exact hempty ▸ .placeholder id
      · rename_i hne
        exact .identifier id hne
  | .keyword word => always_create fun id => .keyword id word
  | .constant text => always_create fun id => .constant id text
  | .placeholder => always_create fun id => .placeholder id
  | .unary operator e =>
      (always_inOrder e).bind fun _ he => always_create fun id => .unary id operator he
  | .binary operator l r =>
      (always_inOrder l).bind fun _ hl => (always_inOrder r).bind fun _ hr =>
        always_create fun id => .binary id operator hl hr
  | .leftOnly operator l =>
      (always_inOrder l).bind fun _ hl => always_create fun id => .leftOnly id operator hl
  | .rightOnly operator r =>
      (always_inOrder r).bind fun _ hr => always_create fun id => .rightOnly id operator hr
  | .call callee es =>
      (always_allInOrder es).bind fun _ hes => always_create fun id => .call id callee hes

theorem always_allInOrder : ∀ es : List Expr,
    (toTrees es).Always fun ts => AllInOrder ts (writtenAll es)
  | [] => always_pure .nil
  | e :: es =>
      (always_inOrder e).bind fun _ he => (always_allInOrder es).bind fun _ hes =>
        always_pure (.cons he hes)

end

end Expr

/-! ## What is kept of what is read -/

namespace Descent

open SnippetTree.Expr (writtenIn writtenAll)

/-- The lexemes that a call is given, in expressions that were read before. -/
def Task.written : Task → List Lexeme
  | .operators _ _ left => writtenIn left
  | .arguments callee before => callee :: writtenAll before
  | _ => []

/-- On the way from `s` to `t` lexemes are read, and what is held in the end are some of those that
were held before, followed by some of those that were read, both in their order. -/
def Keeps (held : List Lexeme) (s : Place) (held' : List Lexeme) (t : Place) : Prop :=
  ∃ read, s.rest = read ++ t.rest ∧ held'.Sublist (held ++ read)

variable {g : Grammar} {limit : Nat} {task : Task} {s t u : Place} {r : Result}
  {visited : List Place} {held held' held'' : List Lexeme}

theorem Keeps.refl (held : List Lexeme) (s : Place) : Keeps held s held s :=
  ⟨[], rfl, List.sublist_append_left held []⟩

theorem Keeps.trans (h : Keeps held s held' t) (h' : Keeps held' t held'' u) :
    Keeps held s held'' u := by
  obtain ⟨read, hread, hkept⟩ := h
  obtain ⟨more, hmore, hkept'⟩ := h'
  refine ⟨read ++ more, ?_, ?_⟩
  · rw [hread, hmore, List.append_assoc]
  · rw [← List.append_assoc]
    exact hkept'.trans (hkept.append_right more)

theorem Keeps.weaken (h : Keeps held s held' t) (hsub : held''.Sublist held') :
    Keeps held s held'' t := by
  obtain ⟨read, hread, hkept⟩ := h
  exact ⟨read, hread, hsub.trans hkept⟩

/-- What is held is not touched by what is read after it. -/
theorem Keeps.frame (h : Keeps [] s held' t) (held : List Lexeme) :
    Keeps held s (held ++ held') t := by
  obtain ⟨read, hread, hkept⟩ := h
  exact ⟨read, hread, hkept.append_left held⟩

/-- A lexeme is read and kept. -/
theorem keeps_read (held : List Lexeme) (lexeme : Lexeme) (rest : List Lexeme) (depth : Nat) :
    Keeps held ⟨lexeme :: rest, depth⟩ (held ++ [lexeme]) ⟨rest, depth⟩ :=
  ⟨[lexeme], rfl, List.Sublist.refl _⟩

/-- A lexeme is read and struck out. -/
theorem keeps_strike (held : List Lexeme) (lexeme : Lexeme) (rest : List Lexeme) (depth : Nat) :
    Keeps held ⟨lexeme :: rest, depth⟩ held ⟨rest, depth⟩ :=
  (keeps_read held lexeme rest depth).weaken (List.sublist_append_left _ _)

theorem join_sublist (operator : Lexeme) (left right : Option Expr) :
    (writtenIn (Grammar.join operator left right).1).Sublist
      ((writtenIn left ++ [operator]) ++ writtenIn right) := by
  cases left <;> cases right <;> simp [Grammar.join, writtenIn, Expr.written]

theorem applySign_sublist (operator : Lexeme) (operand : Option Expr) :
    (writtenIn (Grammar.applySign operator operand).1).Sublist
      ([operator] ++ writtenIn operand) := by
  cases operand <;> simp [Grammar.applySign, writtenIn, Expr.written]

/-- An operator is kept with what there is on its sides. -/
theorem Keeps.join {right : Option Expr} {rest : List Lexeme} {depth : Nat} (operator : Lexeme)
    (left : Option Expr) (h : Keeps [] ⟨rest, depth⟩ (writtenIn right) t) :
    Keeps (writtenIn left) ⟨operator :: rest, depth⟩
      (writtenIn (Grammar.join operator left right).1) t :=
  (keeps_read _ operator rest depth).trans
    ((h.frame _).weaken (join_sublist operator left right))

/-- An argument is kept after those before it. -/
theorem Keeps.argument {value : Option Expr} (callee : Lexeme) (before : List Expr)
    (h : Keeps [] s (writtenIn value) t) :
    Keeps (callee :: writtenAll before) s (callee :: writtenAll (before ++ value.toList)) t := by
  rw [Expr.writtenAll_append]
  exact h.frame (callee :: writtenAll before)

/-- **A call keeps what it is given and what it reads at most once, and in order.** -/
theorem Runs.keeps (h : Runs g limit task s r visited) :
    Keeps task.written s (writtenIn r.value) r.place := by
  induction h with
  | noLexeme => exact .refl _ _
  | whole _ _ ih => exact ih
  | noTier _ ih => exact ih
  | tier _ _ ihl ihr => exact ihl.trans ihr
  | noOperator => exact .refl _ _
  | @joined tier tighter left e operator _ _ _ _ _ _ _ _ _ hjoin _ ihright ih =>
      have hround := ihright.join operator left
      rw [hjoin] at hround
      exact hround.trans ih
  | noOperand _ _ _ hjoin ih =>
      exact (ih.join _ _).weaken (List.nil_sublist _)
  | joinedRight _ _ _ ih => exact ih.join _ _
  | @sign operator rest depth _ _ _ _ ih =>
      have hsign := (keeps_read [] operator rest depth).trans (ih.frame [operator])
      exact hsign.weaken (applySign_sublist operator _)
  | noSign _ _ ih => exact ih
  | nothing => exact .refl _ _
  | group _ hplace ih =>
      rw [hplace] at ih
      exact ((keeps_strike _ _ _ _).trans ih).trans (keeps_strike _ _ _ _)
  | groupAtEnd _ _ ih => exact (keeps_strike _ _ _ _).trans ih
  | groupLeftOpen _ _ _ ih => exact (keeps_strike _ _ _ _).trans ih
  | constant => exact keeps_read [] _ _ _
  | name => exact (keeps_read [] _ _ _).weaken (Expr.written_nameLeaf_sublist g _)
  | call _ _ _ _ ih =>
      exact ((keeps_read [] _ _ _).trans (keeps_strike _ _ _ _)).trans ih
  | noPrimary => exact .refl _ _
  | argumentsAtEnd => exact .refl _ _
  | argumentsClosed => exact keeps_strike _ _ _ _
  | argumentThenPass _ _ hplace _ _ iha ih =>
      rw [hplace] at iha
      exact ((iha.argument _ _).trans (keeps_strike _ _ _ _)).trans ih
  | argumentThenStay _ _ _ _ _ iha ih => exact (iha.argument _ _).trans ih
  | nested _ _ hplace ih =>
      obtain ⟨read, hread, hkept⟩ := ih
      rw [hplace] at hread
      exact ⟨read, hread, hkept⟩
  | nothingNested => exact .refl _ _
  | tooDeep _ _ ih => exact ih.weaken (List.nil_sublist _)
  | skipAtEnd => exact .refl _ _
  | skipClosed => exact .refl _ _
  | skipOver _ _ ih => exact (keeps_strike _ _ _ _).trans ih

end Descent

/-- What was consumed is what stood before the rest. -/
theorem Parse.take_consumed {p : Parse} {lexemes read : List Lexeme}
    (h : lexemes = read ++ p.cursor.rest) : lexemes.take (p.consumed lexemes) = read := by
  have hlength : p.consumed lexemes = read.length := by
    rw [consumed, h, List.length_append, Nat.add_sub_cancel]
  rw [hlength, h, List.take_left]

namespace Grammar

variable {g : Grammar} {limit : Nat} {lexemes : List Lexeme} {e : Expr}

/-- **A parse never reorders, repeats or makes up a lexeme.** Whatever the lexemes are, those of the
nodes of the tree are in the order of the source a part of the lexemes that were read. -/
theorem written_sublist (hexpr : (g.parse limit lexemes).expr = some e) :
    (∀ first, (e.toTree.run first).1.InOrder e.written) ∧
    e.written.Sublist (lexemes.take ((g.parse limit lexemes).consumed lexemes)) := by
  refine ⟨e.always_inOrder, ?_⟩
  obtain ⟨visited, hruns⟩ := Descent.runs_parse g limit lexemes
  obtain ⟨read, hread, hkept⟩ := hruns.keeps
  have hvalue : Expr.writtenIn (g.parse limit lexemes).expr = e.written := by rw [hexpr]; rfl
  rw [Parse.take_consumed hread, ← hvalue]
  exact hkept

/-- In `* f ( ] b + , - ( c ) ) ) d` an operand is missing on each side of an operator, a lexeme in
the argument list is of no use, a group nests too deeply, and one parenthesis too many ends it. -/
theorem written_sublist_damaged :
    (Dialect.cSpec.grammar.parse 1
      ["*", "f", "(", "]", "b", "+", ",", "-", "(", "c", ")", ")", ")", "d"]).expr =
      some (.rightOnly "*" (.call "f"
        [.leftOnly "+" (.identifier "b"), .unary "-" .placeholder])) ∧
    (∀ first, ((Expr.rightOnly "*" (.call "f" [.leftOnly "+" (.identifier "b"),
      .unary "-" .placeholder])).toTree.run first).1.InOrder ["*", "f", "b", "+", "-"]) ∧
    ["*", "f", "b", "+", "-"].Sublist
      (["*", "f", "(", "]", "b", "+", ",", "-", "(", "c", ")", ")", ")", "d"].take
        ((Dialect.cSpec.grammar.parse 1
          ["*", "f", "(", "]", "b", "+", ",", "-", "(", "c", ")", ")", ")", "d"]).consumed
            ["*", "f", "(", "]", "b", "+", ",", "-", "(", "c", ")", ")", ")", "d"])) := by
  have hexpr : (Dialect.cSpec.grammar.parse 1
      ["*", "f", "(", "]", "b", "+", ",", "-", "(", "c", ")", ")", ")", "d"]).expr =
      some (.rightOnly "*" (.call "f"
        [.leftOnly "+" (.identifier "b"), .unary "-" .placeholder])) := by decide +kernel
  exact ⟨hexpr, written_sublist hexpr⟩

end Grammar

end SnippetTree
