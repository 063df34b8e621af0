import SnippetTree.Proofs.Descent
import SnippetTree.Proofs.ParseSound

/-!
# What becomes of each lexeme

A parse that notes nothing has done something with every lexeme, and for most of them it is what a
grammar asks for: the lexeme is a word of the tree, or a parenthesis or comma in its place. Two
things more can happen in silence, both among the arguments of a call. A lexeme that neither begins
an expression nor goes on with one is passed over, so that the loop over the arguments goes on. And
a group that some other lexeme than a closing parenthesis ends is taken for closed; what stands
there is read as a further argument, or as the comma before one.

`Marked` says how the lexemes can be marked with what became of them, beside the tree they make, and
`marked_of_silent` that a parse in silence can be marked. What silence means is then read off the
marks, for parentheses in `Parentheses.lean` and for words in `Words.lean`. Outside of calls there
is nothing to be read off: no group is left open and no lexeme passed over (`plain_of_callFree`).
-/

namespace SnippetTree

/-- What became of a lexeme. -/
inductive Mark where
  /-- It is the lexeme of a node. -/
  | word (lexeme : Lexeme)
  /-- It opens a group, or the arguments of a call, that is closed. -/
  | opener
  | closer
  | comma
  /-- It opens a group that another lexeme than a closing parenthesis ends. -/
  | leftOpen
  /-- It was passed over. -/
  | passed (lexeme : Lexeme)
  deriving DecidableEq, Repr

namespace Mark

/-- The lexeme that is marked. -/
def lexeme : Mark → Lexeme
  | word lexeme | passed lexeme => lexeme
  | opener | leftOpen => "("
  | closer => ")"
  | comma => ","

/-- The lexeme, if it is one of a node. -/
def word? : Mark → Option Lexeme
  | word lexeme => some lexeme
  | _ => none

/-- Nothing was repaired at the lexeme: it is neither left open nor passed over. -/
def IsPlain : Mark → Prop
  | leftOpen | passed _ => False
  | word _ | opener | closer | comma => True

end Mark

namespace Grammar

/-! ## Marking -/

/-- The lexeme begins no expression. -/
structure NoStart (g : Grammar) (lexeme : Lexeme) : Prop where
  no_sign : lexeme ∉ g.signs
  no_group : lexeme ≠ "("
  no_constant : lexeme.isConstant = false
  no_name : lexeme.isIdentifier = false

/-- The lexeme neither begins an expression nor goes on with one, and is no parenthesis or comma. -/
structure Idle (g : Grammar) (lexeme : Lexeme) : Prop where
  no_start : g.NoStart lexeme
  no_operator : ∀ tier ∈ g.tiers, lexeme ∉ tier.operators
  no_mark : lexeme ∉ punctuation

instance (g : Grammar) (lexeme : Lexeme) : Decidable (g.NoStart lexeme) :=
  decidable_of_iff
    (lexeme ∉ g.signs ∧ lexeme ≠ "(" ∧ lexeme.isConstant = false ∧ lexeme.isIdentifier = false)
    ⟨fun ⟨hsign, hgroup, hconst, hname⟩ => ⟨hsign, hgroup, hconst, hname⟩,
      fun h => ⟨h.no_sign, h.no_group, h.no_constant, h.no_name⟩⟩

instance (g : Grammar) (lexeme : Lexeme) : Decidable (g.Idle lexeme) :=
  decidable_of_iff
    (g.NoStart lexeme ∧ (∀ tier ∈ g.tiers, lexeme ∉ tier.operators) ∧ lexeme ∉ punctuation)
    ⟨fun ⟨hstart, hoperator, hmark⟩ => ⟨hstart, hoperator, hmark⟩,
      fun h => ⟨h.no_start, h.no_operator, h.no_mark⟩⟩

/-- What stands between the parentheses of a call. -/
inductive Item where
  /-- An argument, if one could be read, and whether it ends in a group that is left open. -/
  | argument (stuck : Bool) (marks : List Mark) (value : Option Expr)
  | comma
  | passed (lexeme : Lexeme)

namespace Item

/-- The marks of the lexemes of an item. -/
def marks : Item → List Mark
  | argument _ marks _ => marks
  | comma => [.comma]
  | passed lexeme => [.passed lexeme]

/-- The argument that an item is, if it is one. -/
def arguments : Item → List Expr
  | argument _ _ value => value.toList
  | comma | passed _ => []

end Item

/--
`g.Marked stuck marks value`: lexemes with these marks make up `value`, the tree of an expression if
there is one. With `stuck` they end in a group that is left open, or in an operand that does.
-/
inductive Marked (g : Grammar) : Bool → List Mark → Option Expr → Prop where
  | nothing : Marked g false [] none
  | constant {lexeme : Lexeme} :
      g.ConstantToken lexeme → Marked g false [.word lexeme] (some (.constant lexeme))
  | name {lexeme : Lexeme} :
      g.NameToken lexeme → Marked g false [.word lexeme] (some (g.nameLeaf lexeme))
  | sign {operator : Lexeme} {stuck : Bool} {marks : List Mark} {e : Expr} :
      operator ∈ g.signs → Marked g stuck marks (some e) →
      Marked g stuck (.word operator :: marks) (some (.unary operator e))
  | binary {tier : Tier} {operator : Lexeme} {stuck : Bool} {before after : List Mark}
      {l r : Expr} :
      tier ∈ g.tiers → operator ∈ tier.operators →
      Marked g false before (some l) → Marked g stuck after (some r) →
      Marked g stuck (before ++ .word operator :: after) (some (.binary operator l r))
  | group {marks : List Mark} {value : Option Expr} :
      Marked g false marks value → Marked g false (.opener :: (marks ++ [.closer])) value
  | leftOpen {stuck : Bool} {marks : List Mark} {value : Option Expr} :
      Marked g stuck marks value → Marked g true (.leftOpen :: marks) value
  | call {callee : Lexeme} {items : List Item} :
      g.NameToken callee →
      (∀ stuck marks value, .argument stuck marks value ∈ items → Marked g stuck marks value) →
      (∀ lexeme, .passed lexeme ∈ items → g.Idle lexeme) →
      Marked g false (.word callee :: .opener :: (items.flatMap Item.marks ++ [.closer]))
        (some (.call callee (items.flatMap Item.arguments)))

variable {g : Grammar} {stuck : Bool} {marks : List Mark} {value : Option Expr}

theorem Marked.eq_none (h : g.Marked stuck [] value) : stuck = false ∧ value = none := by
  generalize hnil : ([] : List Mark) = marks at h
  cases h with
  | nothing => exact ⟨rfl, rfl⟩
  | binary => simp at hnil
  | _ => exact absurd hnil (List.cons_ne_nil _ _).symm

/-! ## A descent in silence -/

/-- What has been read between two points, over some tiers, can be marked. -/
structure Account (g : Grammar) (tiers : List Tier) (value : Option Expr)
    (before after : List Lexeme) (stuck : Bool) (marks : List Mark) : Prop where
  /-- The marked lexemes are those between the two points. -/
  covers : before = marks.map Mark.lexeme ++ after
  marked : g.Marked stuck marks value
  /-- A group that is left open ends at a lexeme that no enclosing part can read either. -/
  stays : stuck = true → g.Stuck after
  /-- The next lexeme does not continue the expression. -/
  off : ∀ tier ∈ tiers, Off after tier.operators
  /-- If nothing has been read, then nothing could be. -/
  idle : marks = [] → ∀ next ∈ after.head?, g.NoStart next

/-- What is between two points can be marked in some way. -/
def Accounted (g : Grammar) (tiers : List Tier) (value : Option Expr) (before after : List Lexeme) :
    Prop :=
  ∃ stuck marks, g.Account tiers value before after stuck marks

/-- What is said of an item by its form. -/
def Item.Sound (g : Grammar) : Item → Prop
  | argument stuck marks value => g.Marked stuck marks value
  | comma => True
  | passed lexeme => g.Idle lexeme

/-! ### Groups, values and names -/

variable {tiers : List Tier} {tier : Tier} {operator : Lexeme} {rest rest' : List Lexeme}

/-- Nothing is there to be read, or nothing that an expression could begin with. -/
theorem accounted_nothing (h : ∀ next ∈ rest.head?, g.NoStart next)
    (hoff : ∀ tier ∈ tiers, Off rest tier.operators) : g.Accounted tiers none rest rest :=
  ⟨false, [], rfl, .nothing, nofun, hoff, fun _ => h⟩

/-- A lexeme that is an expression by itself. -/
theorem accounted_word {lexeme : Lexeme} (h : g.Marked false [.word lexeme] value) :
    g.Accounted [] value (lexeme :: rest) rest :=
  ⟨false, _, rfl, h, nofun, nofun, nofun⟩

/-- What a closing parenthesis ends is not left open. -/
theorem Accounted.group (h : g.Accounted g.tiers value rest (")" :: rest')) :
    g.Accounted [] value ("(" :: rest) rest' := by
  obtain ⟨stuck, marks, h⟩ := h
  cases stuck with
  | true =>
      obtain ⟨next, others, heq, hcloser, -⟩ := h.stays rfl
      exact absurd (List.cons.inj heq).1.symm hcloser
  | false =>
      refine ⟨false, _, ?_, .group h.marked, nofun, nofun, nofun⟩
      simp [h.covers, Mark.lexeme]

/-- All tiers have been tried before a group is ended by another lexeme. -/
theorem Accounted.leftOpen {next : Lexeme} (h : g.Accounted g.tiers value rest (next :: rest'))
    (hcloser : next ≠ ")") : g.Accounted [] value ("(" :: rest) (next :: rest') := by
  obtain ⟨stuck, marks, h⟩ := h
  have hstuck : g.Stuck (next :: rest') :=
    ⟨next, rest', rfl, hcloser, fun tier ht => h.off tier ht next rfl⟩
  refine ⟨true, _, ?_, .leftOpen h.marked, fun _ => hstuck, nofun, nofun⟩
  simp [h.covers, Mark.lexeme]

/-! ### Operators -/

theorem Accounted.sign {e : Expr} (ho : operator ∈ g.signs)
    (h : g.Accounted [] (some e) rest rest') :
    g.Accounted [] (some (.unary operator e)) (operator :: rest) rest' := by
  obtain ⟨stuck, marks, h⟩ := h
  refine ⟨stuck, _, ?_, .sign ho h.marked, h.stays, nofun, nofun⟩
  simp [h.covers, Mark.lexeme]

/-- An operator is never where a group was left open, so its left operand is whole. -/
theorem Accounted.binary {others : List Tier} {l r : Expr} {start : List Lexeme}
    (ht : tier ∈ g.tiers) (ho : operator ∈ tier.operators)
    (hl : g.Accounted others (some l) start (operator :: rest))
    (hr : g.Accounted tiers (some r) rest rest') :
    g.Accounted tiers (some (.binary operator l r)) start rest' := by
  obtain ⟨stuck, before, hl⟩ := hl
  obtain ⟨stuck', after, hr⟩ := hr
  cases stuck with
  | true => exact absurd (hl.stays rfl) (not_stuck_of_operator ht ho)
  | false =>
      refine ⟨stuck', _, ?_, .binary ht ho hl.marked hr.marked, hr.stays, hr.off, ?_⟩
      · simp [hl.covers, hr.covers, Mark.lexeme]
      · intro hnil
        simp at hnil

/-- No operator of one more tier is there. -/
theorem Accounted.cons {start : List Lexeme} (h : g.Accounted tiers value start rest)
    (hoff : Off rest tier.operators) : g.Accounted (tier :: tiers) value start rest := by
  obtain ⟨stuck, marks, h⟩ := h
  exact ⟨stuck, marks, h.covers, h.marked, h.stays, List.forall_mem_cons.mpr ⟨hoff, h.off⟩, h.idle⟩

/-- Where nothing is left to be read, no group has been left open. -/
theorem Accounted.marked {start : List Lexeme} (h : g.Accounted tiers value start rest)
    (hend : rest = []) : ∃ marks, marks.map Mark.lexeme = start ∧ g.Marked false marks value := by
  obtain ⟨stuck, marks, h⟩ := h
  subst hend
  cases stuck with
  | true =>
      obtain ⟨next, others, heq, -⟩ := h.stays rfl
      exact absurd heq.symm (List.cons_ne_nil _ _)
  | false => exact ⟨marks, by simpa using h.covers.symm, h.marked⟩

/-- What is passed over, and is no comma, begins no expression and continues none. -/
theorem Accounted.idle {lexeme next : Lexeme}
    (h : g.Accounted g.tiers value (lexeme :: rest) (next :: rest'))
    (hread : rest'.length = rest.length) (hcloser : lexeme ≠ ")") (hcomma : next ≠ ",") :
    value = none ∧ lexeme :: rest = next :: rest' ∧ g.Idle next := by
  obtain ⟨stuck, marks, h⟩ := h
  have hlength := congrArg List.length h.covers
  simp only [List.length_cons, List.length_append, List.length_map] at hlength
  obtain rfl : marks = [] := List.length_eq_zero_iff.mp (by omega)
  have hsame : lexeme :: rest = next :: rest' := h.covers
  have hstart : g.NoStart next := h.idle rfl next rfl
  refine ⟨h.marked.eq_none.2, hsame, hstart, fun tier ht => h.off tier ht next rfl, ?_⟩
  intro hmark
  obtain rfl := (List.cons.inj hsame).1
  simp only [punctuation, List.mem_cons, List.not_mem_nil, or_false] at hmark
  rcases hmark with hopener | hclosed | hpassed
  · exact hstart.no_group hopener
  · exact hcloser hclosed
  · exact hcomma hpassed

/-! ### Arguments -/

/-- Between the two points are further arguments of a call, and then its closing parenthesis. -/
def Itemized (g : Grammar) (callee : Lexeme) (before : List Expr) (value : Option Expr)
    (start rest : List Lexeme) : Prop :=
  ∃ items : List Item, (∀ item ∈ items, item.Sound g) ∧
    start = (items.flatMap Item.marks).map Mark.lexeme ++ ")" :: rest ∧
    value = some (.call callee (before ++ items.flatMap Item.arguments))

theorem itemized_nil (callee : Lexeme) (before : List Expr) (rest : List Lexeme) :
    g.Itemized callee before (some (.call callee before)) (")" :: rest) rest :=
  ⟨[], nofun, rfl, by simp⟩

/-- One more item stands before the others. -/
theorem Itemized.cons {callee : Lexeme} {before : List Expr} {start : List Lexeme} (item : Item)
    (hitem : item.Sound g)
    (h : g.Itemized callee (before ++ item.arguments) value start rest) :
    g.Itemized callee before value (item.marks.map Mark.lexeme ++ start) rest := by
  obtain ⟨items, hitems, hcovers, hvalue⟩ := h
  refine ⟨item :: items, List.forall_mem_cons.mpr ⟨hitem, hitems⟩, ?_, ?_⟩
  · rw [hcovers, List.flatMap_cons, List.map_append, List.append_assoc]
  · rw [hvalue, List.flatMap_cons, List.append_assoc]

/-- An argument stands before the others, with no comma between them. -/
theorem Itemized.argument {callee : Lexeme} {before : List Expr} {start between : List Lexeme}
    {argument : Option Expr}
    (h : g.Itemized callee (before ++ argument.toList) value between rest)
    (hargument : g.Accounted tiers argument start between) :
    g.Itemized callee before value start rest := by
  obtain ⟨stuck, marks, hargument⟩ := hargument
  rw [hargument.covers]
  exact .cons (.argument stuck marks argument) hargument.marked h

theorem Itemized.comma {callee : Lexeme} {before : List Expr} {start : List Lexeme}
    (h : g.Itemized callee before value start rest) :
    g.Itemized callee before value ("," :: start) rest := by
  refine .cons .comma trivial ?_
  simpa [Item.arguments] using h

theorem Itemized.passed {callee lexeme : Lexeme} {before : List Expr} {start : List Lexeme}
    (h : g.Itemized callee before value start rest) (hidle : g.Idle lexeme) :
    g.Itemized callee before value (lexeme :: start) rest := by
  refine .cons (.passed lexeme) hidle ?_
  simpa [Item.arguments] using h

/-- A call, whatever stands between its parentheses. -/
theorem Itemized.call {callee : Lexeme} {start : List Lexeme} (hcallee : g.NameToken callee)
    (h : g.Itemized callee [] value start rest) :
    g.Accounted [] value (callee :: "(" :: start) rest := by
  obtain ⟨items, hitems, rfl, rfl⟩ := h
  have hmarked := Marked.call hcallee (fun _ _ _ hmem => hitems _ hmem) fun _ hmem => hitems _ hmem
  refine ⟨false, _, ?_, hmarked, nofun, nofun, nofun⟩
  simp [Mark.lexeme]

end Grammar

/-! ### Calls of the parser -/

namespace Descent

open SnippetTree.Grammar

variable {g : Grammar} {limit : Nat} {task : Task} {s : Place} {r : Result} {visited : List Place}

theorem leftOver_nil {rest : List Lexeme} (h : leftOver rest = []) : rest = [] := by
  cases rest with
  | nil => rfl
  | cons => simp [leftOver] at h

/-- What can be said of a call that notes nothing. -/
def Task.Accounts (g : Grammar) (s : Place) (r : Result) : Task → Prop
  | .whole => ∃ marks, marks.map Mark.lexeme = s.rest ∧ g.Marked false marks r.value
  | .tiers ts => ts ⊆ g.tiers → g.Accounted ts r.value s.rest r.place.rest
  | .operators tier tighter left =>
      tier :: tighter ⊆ g.tiers → ∀ start, g.Accounted tighter left start s.rest →
        g.Accounted (tier :: tighter) r.value start r.place.rest
  | .signs => g.Accounted [] r.value s.rest r.place.rest
  | .primary => Off s.rest g.signs → g.Accounted [] r.value s.rest r.place.rest
  | .arguments callee before => g.Itemized callee before r.value s.rest r.place.rest
  | .nested ts => ts ⊆ g.tiers → g.Accounted ts r.value s.rest r.place.rest
  | .skip _ => True

/-- **A call that notes nothing accounts for all that it has read.** -/
theorem Runs.accounts (h : Runs g limit task s r visited) (hsilent : r.problems = []) :
    task.Accounts g s r := by
  -- a rule that notes something is not used; the others put together the accounts of their calls
  induction h with
  | noLexeme => exact absurd hsilent (List.cons_ne_nil _ _)
  | whole hne hruns ih =>
      obtain ⟨hquiet, htrailing⟩ := List.append_eq_nil_iff.mp hsilent
      exact Accounted.marked (ih hquiet (List.Subset.refl _)) (leftOver_nil htrailing)
  | noTier _ ih => exact fun _ => ih hsilent
  | tier _ _ ihl ihr =>
      obtain ⟨hbefore, hafter⟩ := List.append_eq_nil_iff.mp hsilent
      intro hsub
      exact ihr hafter hsub _ (ihl hbefore fun t ht => hsub (List.mem_cons_of_mem _ ht))
  | noOperator hoff => exact fun _ _ hleft => Accounted.cons hleft hoff
  | joined _ ho _ hjoin _ ihright ih =>
      obtain ⟨hbefore, hafter⟩ := List.append_eq_nil_iff.mp hsilent
      obtain ⟨hquiet, hboth⟩ := List.append_eq_nil_iff.mp hbefore
      obtain ⟨l, r, rfl, hr, hjoined⟩ := join_silent hboth
      obtain rfl := Option.some.inj (hjoin.symm.trans hjoined)
      intro hsub start hleft
      have hright := ihright hquiet fun t ht => hsub (List.mem_cons_of_mem _ ht)
      rw [hr] at hright
      exact ih hafter hsub _ (hleft.binary (hsub (List.mem_cons_self ..)) ho hright)
  | noOperand _ _ _ hjoin _ =>
      obtain ⟨-, hboth⟩ := List.append_eq_nil_iff.mp hsilent
      obtain ⟨l, r, -, -, hjoined⟩ := join_silent hboth
      exact absurd (hjoin.symm.trans hjoined) nofun
  | joinedRight _ ho _ ih =>
      obtain ⟨hquiet, hboth⟩ := List.append_eq_nil_iff.mp hsilent
      obtain ⟨l, r, rfl, hr, hjoined⟩ := join_silent hboth
      intro hsub start hleft
      have hright := ih hquiet hsub
      rw [hr] at hright
      have h := hleft.binary (hsub (List.mem_cons_self ..)) ho hright
      rwa [← hjoined] at h
  | sign ho _ ih =>
      obtain ⟨hquiet, happlied⟩ := List.append_eq_nil_iff.mp hsilent
      obtain ⟨e, he, happlied⟩ := applySign_silent happlied
      have h := ih hquiet (List.nil_subset _)
      rw [he] at h
      have h := h.sign ho
      rwa [← happlied] at h
  | noSign hoff _ ih => exact ih hsilent hoff
  | nothing => exact fun _ => accounted_nothing nofun nofun
  | group _ hplace ih =>
      have h := ih hsilent (List.Subset.refl _)
      rw [hplace] at h
      exact fun _ => h.group
  | groupAtEnd => exact absurd hsilent (by simp [Result.noting])
  | groupLeftOpen _ hplace hcloser ih =>
      have h := ih hsilent (List.Subset.refl _)
      rw [hplace] at h
      exact fun _ => hplace ▸ h.leftOpen hcloser
  | constant _ hconst =>
      exact fun hoff => accounted_word (.constant ⟨hconst, hoff _ rfl⟩)
  | name _ hconst hident =>
      exact fun hoff => accounted_word (.name ⟨hident, hconst, hoff _ rfl⟩)
  | call _ hconst hident _ ih =>
      exact fun hoff => Itemized.call ⟨hident, hconst, hoff _ rfl⟩ (ih hsilent)
  | noPrimary hparen hconst hident =>
      intro hoff
      refine accounted_nothing ?_ nofun
      rintro _ ⟨⟩
      exact ⟨hoff _ rfl, hparen, hconst, hident⟩
  | argumentsAtEnd => exact absurd hsilent (List.cons_ne_nil _ _)
  | argumentsClosed => exact itemized_nil _ _ _
  | @argumentThenPass callee lexeme next _ _ _ _ _ a _ _ _ hcloser _ hplace hpass _ iha ih =>
      obtain ⟨hbefore, hafter⟩ := List.append_eq_nil_iff.mp hsilent
      have hargument := iha hbefore (List.Subset.refl _)
      rw [hplace] at hargument
      have hmore := ih hafter
      -- the loop passes a comma after an argument, or the lexeme at which none could begin
      by_cases hcomma : next = ","
      · subst hcomma
        exact (Itemized.comma hmore).argument hargument
      · obtain ⟨hnone, hsame, hidle⟩ :=
          Accounted.idle hargument (hpass.resolve_left hcomma) hcloser hcomma
        rw [hnone, Option.toList_none, List.append_nil] at hmore
        exact hsame ▸ Itemized.passed hmore hidle
  | argumentThenStay _ _ _ _ _ iha ih =>
      obtain ⟨hbefore, hafter⟩ := List.append_eq_nil_iff.mp hsilent
      exact Itemized.argument (ih hafter) (iha hbefore (List.Subset.refl _))
  | nested _ _ hplace ih =>
      intro hsub
      have h := ih hsilent hsub
      rw [hplace] at h
      exact h
  | nothingNested => exact fun _ => accounted_nothing nofun nofun
  | tooDeep => exact absurd hsilent (List.cons_ne_nil _ _)
  | skipAtEnd => trivial
  | skipClosed => trivial
  | skipOver => trivial

end Descent

namespace Grammar

/-- **What is parsed in silence can be marked**, every lexeme of it. -/
theorem marked_of_silent {g : Grammar} {limit : Nat} {lexemes : List Lexeme}
    (hsilent : (g.parse limit lexemes).problems = []) :
    ∃ marks, marks.map Mark.lexeme = lexemes ∧ g.Marked false marks (g.parse limit lexemes).expr := by
  obtain ⟨visited, hruns⟩ := Descent.runs_parse g limit lexemes
  exact hruns.accounts hsilent

/-! ## What a mark says of its lexeme -/

variable {g : Grammar} {stuck : Bool} {marks : List Mark} {value : Option Expr}
  {lexeme : Lexeme}

/-- The lexeme is no parenthesis or comma, and the expressions of the table have a use for it. -/
structure InUse (g : Grammar) (lexeme : Lexeme) : Prop where
  no_mark : lexeme ∉ punctuation
  not_idle : ¬ g.Idle lexeme

instance (g : Grammar) (lexeme : Lexeme) : Decidable (g.InUse lexeme) :=
  decidable_of_iff (lexeme ∉ punctuation ∧ ¬ g.Idle lexeme)
    ⟨fun ⟨hmark, hidle⟩ => ⟨hmark, hidle⟩, fun h => ⟨h.no_mark, h.not_idle⟩⟩

/-- What is marked as a word is in use, and what is passed over is of no use. -/
def Fits (g : Grammar) : Mark → Prop
  | .word lexeme => g.InUse lexeme
  | .passed lexeme => g.Idle lexeme
  | .opener | .closer | .comma | .leftOpen => True

theorem ConstantToken.fits (h : g.ConstantToken lexeme) : g.Fits (.word lexeme) := by
  refine ⟨fun hmark => isConstant_ne_mark h.constant hmark rfl, fun hidle => ?_⟩
  have hconst := hidle.no_start.no_constant
  rw [h.constant] at hconst
  cases hconst

theorem NameToken.fits (h : g.NameToken lexeme) : g.Fits (.word lexeme) := by
  refine ⟨fun hmark => isIdentifier_ne_mark h.identifier hmark rfl, fun hidle => ?_⟩
  have hname := hidle.no_start.no_name
  rw [h.identifier] at hname
  cases hname

theorem Readable.fits_sign (hg : g.Readable) (h : lexeme ∈ g.signs) : g.Fits (.word lexeme) :=
  ⟨fun hmark => hg.no_mark_sign _ hmark h, fun hidle => hidle.no_start.no_sign h⟩

theorem Readable.fits_operator (hg : g.Readable) {tier : Tier} (ht : tier ∈ g.tiers)
    (h : lexeme ∈ tier.operators) : g.Fits (.word lexeme) :=
  ⟨fun hmark => hg.clear.no_mark tier ht _ hmark h, fun hidle => hidle.no_operator tier ht h⟩

/-- What holds of the marks of all arguments, of commas and of what is passed over holds of the
marks of every item. -/
theorem forall_item_marks {P : List Mark → Prop} {items : List Item}
    (hargument : ∀ stuck marks value, .argument stuck marks value ∈ items → P marks)
    (hcomma : P [.comma]) (hpassed : ∀ lexeme, .passed lexeme ∈ items → P [.passed lexeme]) :
    ∀ item ∈ items, P item.marks := by
  intro item hmem
  cases item with
  | argument stuck marks value => exact hargument stuck marks value hmem
  | comma => exact hcomma
  | passed lexeme => exact hpassed lexeme hmem

theorem Marked.fits (hg : g.Readable) (h : g.Marked stuck marks value) :
    ∀ mark ∈ marks, g.Fits mark := by
  induction h with
  | nothing => exact nofun
  | constant hc => exact List.forall_mem_singleton.mpr hc.fits
  | name hn => exact List.forall_mem_singleton.mpr hn.fits
  | sign ho _ ih => exact List.forall_mem_cons.mpr ⟨hg.fits_sign ho, ih⟩
  | binary ht ho _ _ ihl ihr =>
      exact List.forall_mem_append.mpr
        ⟨ihl, List.forall_mem_cons.mpr ⟨hg.fits_operator ht ho, ihr⟩⟩
  | group _ ih =>
      exact List.forall_mem_cons.mpr
        ⟨trivial, List.forall_mem_append.mpr ⟨ih, List.forall_mem_singleton.mpr trivial⟩⟩
  | leftOpen _ ih => exact List.forall_mem_cons.mpr ⟨trivial, ih⟩
  | call hn _ hpassed ih =>
      have hitems := forall_item_marks ih (List.forall_mem_singleton.mpr trivial)
        fun lexeme hmem => List.forall_mem_singleton.mpr (hpassed lexeme hmem)
      refine List.forall_mem_cons.mpr ⟨hn.fits, List.forall_mem_cons.mpr ⟨trivial, ?_⟩⟩
      refine List.forall_mem_append.mpr ⟨?_, List.forall_mem_singleton.mpr trivial⟩
      intro mark hmem
      obtain ⟨item, hitem, hmark⟩ := List.mem_flatMap.mp hmem
      exact hitems item hitem mark hmark

/-- **Outside of calls nothing is repaired in silence.** -/
theorem Marked.plain_of_callFree (h : g.Marked stuck marks value) (hstuck : stuck = false)
    (hfree : ∀ e ∈ value, e.CallFree) : ∀ mark ∈ marks, mark.IsPlain := by
  induction h with
  | nothing => exact nofun
  | constant => exact List.forall_mem_singleton.mpr trivial
  | name => exact List.forall_mem_singleton.mpr trivial
  | @sign _ _ _ e _ _ ih =>
      have he : e.CallFree := hfree (.unary _ e) rfl
      have hoperand := ih hstuck fun _ hmem => Option.some.inj hmem ▸ he
      exact List.forall_mem_cons.mpr ⟨trivial, hoperand⟩
  | @binary _ _ _ _ _ l r _ _ _ _ ihl ihr =>
      obtain ⟨hl, hr⟩ : l.CallFree ∧ r.CallFree := hfree (.binary _ l r) rfl
      have hleft := ihl rfl fun _ hmem => Option.some.inj hmem ▸ hl
      have hright := ihr hstuck fun _ hmem => Option.some.inj hmem ▸ hr
      exact List.forall_mem_append.mpr ⟨hleft, List.forall_mem_cons.mpr ⟨trivial, hright⟩⟩
  | group _ ih =>
      have hinside := ih rfl hfree
      exact List.forall_mem_cons.mpr
        ⟨trivial, List.forall_mem_append.mpr ⟨hinside, List.forall_mem_singleton.mpr trivial⟩⟩
  | leftOpen => cases hstuck
  | call => exact (hfree _ rfl).elim

end Grammar

end SnippetTree
