import SnippetTree.Proofs.Descent
import SnippetTree.Proofs.Schema

/-!
# The bounds of a parse

A parse returns, whatever the lexemes and the table are: parentheses and commas may be operators,
and one operator may belong to several tiers. On its way it makes three kinds of moves. It reads the
next lexeme, it opens a nesting while fewer than `limit` are open, and it closes one that is open.
So it never goes back, never runs past the last lexeme, and has between none and `limit` nestings
open at any moment; at the end none is open. The tree that it gives is as shallow as that: each
prefix operator and each call has its operands one nesting further in.
-/

namespace SnippetTree

/-! ## Moves -/

namespace Descent

/-- One change of the place of a descent that may have `limit` nestings open. -/
inductive Move (limit : Nat) : Place → Place → Prop where
  /-- The next lexeme is read. -/
  | read {lexeme : Lexeme} {rest : List Lexeme} {depth : Nat} :
      Move limit ⟨lexeme :: rest, depth⟩ ⟨rest, depth⟩
  /-- A nesting is opened. -/
  | enter {rest : List Lexeme} {depth : Nat} : depth < limit →
      Move limit ⟨rest, depth⟩ ⟨rest, depth + 1⟩
  /-- A nesting is closed. -/
  | leave {rest : List Lexeme} {depth : Nat} : Move limit ⟨rest, depth + 1⟩ ⟨rest, depth⟩

/-- The places lead from the first place to the last one, move by move. -/
inductive Moves (limit : Nat) : Place → List Place → Place → Prop where
  | none {s : Place} : Moves limit s [] s
  | cons {s s' s'' : Place} {visited : List Place} :
      Move limit s s' → Moves limit s' visited s'' → Moves limit s (s' :: visited) s''

variable {g : Grammar} {limit : Nat} {task : Task} {s s' s'' : Place} {r : Result}
  {visited visited' : List Place}

theorem Moves.append (h : Moves limit s visited s') (h' : Moves limit s' visited' s'') :
    Moves limit s (visited ++ visited') s'' := by
  induction h with
  | none => exact h'
  | cons hmove _ ih => exact .cons hmove (ih h')

theorem Moves.snoc (h : Moves limit s visited s') (hmove : Move limit s' s'') :
    Moves limit s (visited ++ [s'']) s'' :=
  h.append (.cons hmove .none)

/-- **A descent makes one move after the other.** -/
theorem Runs.moves (h : Runs g limit task s r visited) : Moves limit s visited r.place := by
  induction h with
  | whole _ _ ih => exact ih
  | noTier _ ih => exact ih
  | tier _ _ ihl ihr => exact ihl.append ihr
  | joined _ _ _ _ _ ihright ih => exact .cons .read (ihright.append ih)
  | noOperand _ _ _ _ ih => exact .cons .read ih
  | joinedRight _ _ _ ih => exact .cons .read ih
  | sign _ _ ih => exact .cons .read ih
  | noSign _ _ ih => exact ih
  | group _ hplace ih =>
      rw [hplace] at ih
      exact .cons .read (ih.snoc .read)
  | groupAtEnd _ _ ih => exact .cons .read ih
  | groupLeftOpen _ _ _ ih => exact .cons .read ih
  | constant => exact .cons .read .none
  | name => exact .cons .read .none
  | call _ _ _ _ ih => exact .cons .read (.cons .read ih)
  | argumentsClosed => exact .cons .read .none
  | argumentThenPass _ _ hplace _ _ iha ih =>
      rw [hplace] at iha
      exact iha.append (.cons .read ih)
  | argumentThenStay _ _ _ _ _ iha ih => exact iha.append ih
  | nested hroom hinner hplace ih =>
      have hdepth := hinner.depth_eq
      rw [hplace] at ih hdepth
      obtain rfl : _ = _ + 1 := hdepth
      exact .cons (.enter hroom) (ih.snoc .leave)
  | tooDeep _ _ ih => exact ih
  | skipOver _ _ ih => exact .cons .read ih
  | _ => exact .none

/-- One move never goes back and leaves at most `limit` nestings open. -/
theorem Move.bounds (h : Move limit s s') (hdepth : s.depth ≤ limit) :
    s'.rest <:+ s.rest ∧ s'.depth ≤ limit := by
  cases h with
  | read => exact ⟨List.suffix_cons _ _, hdepth⟩
  | enter hroom => exact ⟨List.suffix_refl _, hroom⟩
  | leave => exact ⟨List.suffix_refl _, Nat.le_of_succ_le hdepth⟩

/-- No sequence of moves goes back or leaves more than `limit` nestings open. -/
theorem Moves.bounds (h : Moves limit s visited s') (hdepth : s.depth ≤ limit) :
    ∀ s' ∈ visited, s'.rest <:+ s.rest ∧ s'.depth ≤ limit := by
  induction h with
  | none => exact fun _ hmem => absurd hmem List.not_mem_nil
  | cons hmove _ ih =>
      obtain ⟨hsuffix, hnext⟩ := hmove.bounds hdepth
      refine List.forall_mem_cons.mpr ⟨⟨hsuffix, hnext⟩, ?_⟩
      intro s' hmem
      obtain ⟨hlater, hbound⟩ := ih hnext s' hmem
      exact ⟨hlater.trans hsuffix, hbound⟩

/-- Each of the places has at most as much to be read as those before it. -/
theorem Moves.pairwise (h : Moves limit s visited s') (hdepth : s.depth ≤ limit) :
    (s :: visited).Pairwise fun s s' => s'.rest <:+ s.rest := by
  induction h with
  | none => exact List.pairwise_singleton _ _
  | cons hmove hmoves ih =>
      have hbounds := (Moves.cons hmove hmoves).bounds hdepth
      exact List.pairwise_cons.mpr
        ⟨fun s' hmem => (hbounds s' hmem).1, ih (hmove.bounds hdepth).2⟩

end Descent

/-! ## The nesting of an expression -/

namespace Expr

mutual

/-- The largest number of prefix operators and calls on a way down from the root. -/
def nesting : Expr → Nat
  | identifier _ | keyword _ | constant _ | placeholder => 0
  | unary _ e => nesting e + 1
  | leftOnly _ e | rightOnly _ e => nesting e
  | binary _ l r => max (nesting l) (nesting r)
  | call _ es => nestingAll es + 1

/-- The largest nesting of several expressions. -/
def nestingAll : List Expr → Nat
  | [] => 0
  | e :: es => max (nesting e) (nestingAll es)

end

theorem nestingAll_append (es fs : List Expr) :
    nestingAll (es ++ fs) = max (nestingAll es) (nestingAll fs) := by
  induction es with
  | nil => simp [nestingAll]
  | cons e es ih => simp [nestingAll, ih, Nat.max_assoc]

/-- If there is an expression, it nests at most that deeply. -/
def NestsWithin (n : Nat) (value : Option Expr) : Prop :=
  ∀ e ∈ value, e.nesting ≤ n

theorem nestsWithin_some {n : Nat} {e : Expr} (h : e.nesting ≤ n) : NestsWithin n (some e) := by
  intro e' he'
  exact Option.some.inj he' ▸ h

theorem nestsWithin_none (n : Nat) : NestsWithin n none := by
  intro e he
  cases he

theorem nestsWithin_join {n : Nat} {l r : Option Expr} (hl : NestsWithin n l)
    (hr : NestsWithin n r) (operator : Lexeme) :
    NestsWithin n (Grammar.join operator l r).1 := by
  cases l with
  | none =>
      cases r with
      | none => exact nestsWithin_none n
      | some r => exact nestsWithin_some (hr r rfl)
  | some l =>
      cases r with
      | none => exact nestsWithin_some (hl l rfl)
      | some r => exact nestsWithin_some (Nat.max_le.mpr ⟨hl l rfl, hr r rfl⟩)

theorem nestsWithin_applySign {n : Nat} {e : Option Expr} (h : NestsWithin n e)
    (operator : Lexeme) : NestsWithin (n + 1) (Grammar.applySign operator e).1 := by
  cases e with
  | none => exact nestsWithin_some (Nat.succ_le_succ (Nat.zero_le n))
  | some e => exact nestsWithin_some (Nat.succ_le_succ (h e rfl))

theorem NestsWithin.mono {n m : Nat} {value : Option Expr} (h : NestsWithin n value)
    (hle : n ≤ m) : NestsWithin m value :=
  fun e he => Nat.le_trans (h e he) hle

theorem nesting_nameLeaf (g : Grammar) (name : Lexeme) : (g.nameLeaf name).nesting = 0 := by
  unfold Grammar.nameLeaf
  split <;> rfl

/-- One more argument. -/
theorem nestingAll_append_toList {n : Nat} {before : List Expr} {value : Option Expr}
    (hbefore : nestingAll before ≤ n) (h : NestsWithin n value) :
    nestingAll (before ++ value.toList) ≤ n := by
  rw [nestingAll_append]
  refine Nat.max_le.mpr ⟨hbefore, ?_⟩
  cases value with
  | none => exact Nat.zero_le n
  | some e => simpa [nestingAll] using h e rfl

end Expr

namespace Descent

open SnippetTree.Expr (NestsWithin nestingAll)

variable {g : Grammar} {limit : Nat} {task : Task} {s : Place} {r : Result} {visited : List Place}

/-- What a call is given nests at most that deeply. -/
def Task.Given (room : Nat) : Task → Prop
  | .operators _ _ left => NestsWithin (room + 1) left
  | .arguments _ before => nestingAll before ≤ room
  | _ => True

/-- How deeply what a call gives may nest, when `room` more nestings may be opened. -/
def Task.allowance (room : Nat) : Task → Nat
  | .nested _ => room
  | _ => room + 1

/-- **Each nesting that may still be opened is good for one prefix operator or call**, and one more
of them needs no nesting for itself. -/
theorem Runs.nestsWithin (h : Runs g limit task s r visited)
    (hgiven : task.Given (limit - s.depth)) :
    NestsWithin (task.allowance (limit - s.depth)) r.value := by
  induction h with
  | noLexeme => exact Expr.nestsWithin_some (Nat.zero_le _)
  | whole _ _ ih => exact ih trivial
  | noTier _ ih => exact ih trivial
  | tier hl _ ihl ihr =>
      rw [hl.depth_eq] at ihr
      exact ihr (ihl trivial)
  | noOperator => exact hgiven
  | joined _ _ hright hjoin _ ihright ih =>
      rw [hright.depth_eq] at ih
      exact ih (hjoin ▸ Expr.nestsWithin_join hgiven (ihright trivial) _)
  | noOperand => exact Expr.nestsWithin_none _
  | joinedRight _ _ _ ih =>
      exact Expr.nestsWithin_join hgiven ((ih trivial).mono (Nat.le_succ _)) _
  | sign _ _ ih => exact Expr.nestsWithin_applySign (ih trivial) _
  | noSign _ _ ih => exact ih trivial
  | nothing => exact Expr.nestsWithin_none _
  | group _ _ ih => exact (ih trivial).mono (Nat.le_succ _)
  | groupAtEnd _ _ ih => exact (ih trivial).mono (Nat.le_succ _)
  | groupLeftOpen _ _ _ ih => exact (ih trivial).mono (Nat.le_succ _)
  | constant => exact Expr.nestsWithin_some (Nat.zero_le _)
  | name => exact Expr.nestsWithin_some (Expr.nesting_nameLeaf _ _ ▸ Nat.zero_le _)
  | call _ _ _ _ ih => exact ih (Nat.zero_le _)
  | noPrimary => exact Expr.nestsWithin_none _
  | argumentsAtEnd => exact Expr.nestsWithin_some (Nat.succ_le_succ hgiven)
  | argumentsClosed => exact Expr.nestsWithin_some (Nat.succ_le_succ hgiven)
  | argumentThenPass _ ha hplace _ _ iha ih =>
      have hdepth := ha.depth_eq
      rw [hplace] at hdepth
      rw [show _ = _ from hdepth] at ih
      exact ih (Expr.nestingAll_append_toList hgiven (iha trivial))
  | argumentThenStay _ ha _ _ _ iha ih =>
      rw [ha.depth_eq] at ih
      exact ih (Expr.nestingAll_append_toList hgiven (iha trivial))
  | @nested tiers rest _ depth _ _ _ hroom _ _ ih =>
      have hless : limit - (depth + 1) + 1 = limit - depth := by omega
      exact hless ▸ ih trivial
  | nothingNested => exact Expr.nestsWithin_none _
  | tooDeep => exact Expr.nestsWithin_some (Nat.zero_le _)
  | skipAtEnd => exact Expr.nestsWithin_none _
  | skipClosed => exact Expr.nestsWithin_none _
  | skipOver _ _ ih => exact ih trivial

end Descent

/-! ## The ways down a tree -/

/-- `path` holds the values on a way from the root down to a leaf. -/
inductive Rose.HasPath {α : Type} : Rose α → List α → Prop where
  | leaf {value : α} : HasPath (.node value []) [value]
  | down {value : α} {children : List (Rose α)} {t : Rose α} {path : List α} :
      t ∈ children → HasPath t path → HasPath (.node value children) (value :: path)

/-- The node is a prefix operator or a call. -/
def Label.nests (label : Label) : Bool :=
  label.kind == .unaryOp || label.kind == .call

/-- No way down the tree holds more than `n` prefix operators and calls. -/
def Tree.NestsWithin (n : Nat) (t : Tree) : Prop :=
  ∀ path, t.HasPath path → path.countP Label.nests ≤ n

theorem Tree.NestsWithin.mono {n m : Nat} {t : Tree} (h : t.NestsWithin n) (hle : n ≤ m) :
    t.NestsWithin m :=
  fun path hpath => Nat.le_trans (h path hpath) hle

/-- A node that is neither a prefix operator nor a call. -/
theorem Tree.nestsWithin_mk {n : Nat} {kind : Kind} (hkind : kind ≠ .unaryOp ∧ kind ≠ .call)
    {id : Int} {lexeme : Lexeme} {category : Category} {children : List Tree} {synthetic : Bool}
    (h : ∀ t ∈ children, Tree.NestsWithin n t) :
    Tree.NestsWithin n (.mk id kind lexeme category children synthetic) := by
  intro path hpath
  cases hpath with
  | leaf => simp [Label.nests, hkind]
  | down hmem hpath => simpa [Label.nests, hkind] using h _ hmem _ hpath

/-- A node adds at most one to what its children nest. -/
theorem Tree.nestsWithin_mk_succ {n : Nat} {kind : Kind} {id : Int} {lexeme : Lexeme}
    {category : Category} {children : List Tree} {synthetic : Bool}
    (h : ∀ t ∈ children, Tree.NestsWithin n t) :
    Tree.NestsWithin (n + 1) (.mk id kind lexeme category children synthetic) := by
  intro path hpath
  cases hpath with
  | leaf => exact Nat.le_trans List.countP_le_length (Nat.le_add_left 1 n)
  | down hmem hpath =>
      have hbelow := h _ hmem _ hpath
      rw [List.countP_cons]
      split <;> omega

namespace Expr

open SnippetTree.Numbering

mutual

/-- **The tree of an expression nests as deeply as the expression.** -/
theorem always_nestsWithin : ∀ e : Expr, e.toTree.Always (Tree.NestsWithin e.nesting)
  | .identifier _ | .keyword _ | .constant _ | .placeholder =>
      always_create fun _ => Tree.nestsWithin_mk (by decide) fun _ ht => absurd ht List.not_mem_nil
  | .unary _ e =>
      (always_nestsWithin e).bind fun _ he => always_create fun _ =>
        Tree.nestsWithin_mk_succ (List.forall_mem_singleton.mpr he)
  | .leftOnly _ e | .rightOnly _ e =>
      (always_nestsWithin e).bind fun _ he => always_create fun _ =>
        Tree.nestsWithin_mk (by decide) (List.forall_mem_singleton.mpr he)
  | .binary _ l r =>
      (always_nestsWithin l).bind fun _ hl => (always_nestsWithin r).bind fun _ hr =>
        always_create fun _ => Tree.nestsWithin_mk (by decide) <| List.forall_mem_cons.mpr
          ⟨hl.mono (Nat.le_max_left _ _),
            List.forall_mem_singleton.mpr (hr.mono (Nat.le_max_right _ _))⟩
  | .call _ es =>
      (alwaysAll_nestsWithin es).bind fun _ hes => always_create fun _ =>
        Tree.nestsWithin_mk_succ hes

theorem alwaysAll_nestsWithin : ∀ es : List Expr,
    (toTrees es).Always fun ts => ∀ t ∈ ts, Tree.NestsWithin (nestingAll es) t
  | [] => always_pure fun _ h => absurd h List.not_mem_nil
  | e :: es =>
      (always_nestsWithin e).bind fun _ he => (alwaysAll_nestsWithin es).bind fun _ hes =>
        always_pure (List.forall_mem_cons.mpr ⟨he.mono (Nat.le_max_left _ _),
          fun t ht => (hes t ht).mono (Nat.le_max_right _ _)⟩)

end

end Expr

/-! ## Whole parses -/

namespace Descent

/-- What a parse with at most `limit` nestings keeps to, on its way over the places `visited`. -/
structure KeepsBounds (g : Grammar) (limit : Nat) (lexemes : List Lexeme) (visited : List Place) :
    Prop where
  /-- The descent comes to an end, with the outcome of the parse. -/
  returns : Runs g limit .whole ⟨lexemes, 0⟩ (g.parse limit lexemes).result visited
  /-- There is no other way for it to go. -/
  determined : ∀ r visited', Runs g limit .whole ⟨lexemes, 0⟩ r visited' →
    r = (g.parse limit lexemes).result ∧ visited' = visited
  /-- It goes on by reading one lexeme, opening a nesting or closing one. -/
  moves : Moves limit ⟨lexemes, 0⟩ visited (g.parse limit lexemes).cursor.place
  /-- It never goes back. -/
  forward : (⟨lexemes, 0⟩ :: visited).Pairwise fun s s' => s'.rest <:+ s.rest
  /-- It never leaves the lexemes, and at most `limit` nestings are open at a time. -/
  bounds : ∀ s ∈ visited, s.rest <:+ lexemes ∧ s.depth ≤ limit
  /-- In the end no nesting is open. -/
  closed : (g.parse limit lexemes).cursor.depth = 0
  /-- No way down the tree holds more prefix operators and calls than there may be nestings, and
  one more. -/
  nests : ∀ e ∈ (g.parse limit lexemes).expr, ∀ first,
    Tree.NestsWithin (limit + 1) (e.toTree.run first).1

/-- **A parse returns and keeps within its bounds**, whatever the table and the lexemes are. -/
theorem exists_keepsBounds (g : Grammar) (limit : Nat) (lexemes : List Lexeme) :
    ∃ visited, KeepsBounds g limit lexemes visited := by
  obtain ⟨visited, hruns⟩ := runs_parse g limit lexemes
  have hmoves := hruns.moves
  have hnests := hruns.nestsWithin trivial
  refine ⟨visited, hruns, ?_, hmoves, hmoves.pairwise (Nat.zero_le limit),
    hmoves.bounds (Nat.zero_le limit), hruns.depth_eq, ?_⟩
  · intro r visited' hother
    exact hother.unique hruns
  · intro e he first
    exact (e.always_nestsWithin first).mono (hnests e he)

end Descent

end SnippetTree
