import SnippetTree.Proofs.Derivation
import SnippetTree.Proofs.Shows

/-!
# What the grammar derives is parsed

A derivation that nests no deeper than the parser follows is found, lexeme by lexeme, and nothing
is noted on the way. The parser does not look for it: at each point it does the only thing that it
can do. So the proof has to say, for every part of a derivation, what the lexeme after it must not
be; `Stops` of the tiers of the part is the answer.

A tier that groups to the left is the one place where the parser and the derivation disagree about
the shape of the work. The derivation splits off its *last* operator, the loop reads the *first* one
first. `Folds` reconciles them: whatever the loop would give if it were entered after an expression
with the tree of that expression in hand, it gives from the beginning of the expression on.
-/

namespace SnippetTree

variable {α β : Type}

/-- The step gives `a`, leaves `rest` to be read, closes what it opens and notes nothing. -/
structure Step.Gives {c : Cursor} (s : Step α c) (a : α) (rest : List Lexeme) : Prop where
  value : s.value = a
  rest : s.cursor.rest = rest
  depth : s.cursor.depth = c.depth
  silent : s.problems = []

namespace Step

variable {c : Cursor}

theorem gives_stay (a : α) (c : Cursor) : (Step.stay a c).Gives a c.rest :=
  ⟨rfl, rfl, rfl, rfl⟩

theorem Gives.andThen {s : Step α c} {a : α} {b : β} {between rest : List Lexeme}
    {next : α → (c' : Cursor) → Step β c'} (hs : s.Gives a between)
    (hnext : ∀ deepest, (next a ⟨between, c.depth, deepest⟩).Gives b rest) :
    (s.andThen next).Gives b rest := by
  obtain ⟨value, ⟨left, depth, deepest⟩, problems, hsuffix⟩ := s
  obtain ⟨hvalue, hrest, hdepth, hsilent⟩ := hs
  dsimp only at hvalue hrest hdepth hsilent
  subst hvalue hrest hdepth hsilent
  have ht := hnext deepest
  exact ⟨ht.value, ht.rest, ht.depth, by simpa [Step.andThen] using ht.silent⟩

theorem Gives.mapNoting {s : Step α c} {a : α} {b : β} {rest : List Lexeme}
    {f : α → β × List Problem} (hs : s.Gives a rest) (hf : f a = (b, [])) :
    (s.mapNoting f).Gives b rest := by
  refine ⟨?_, hs.rest, hs.depth, ?_⟩
  · simp only [Step.mapNoting, hs.value, hf]
  · simp only [Step.mapNoting, hs.value, hf, hs.silent, List.append_nil]

theorem Gives.afterOne {lexeme : Lexeme} {left rest : List Lexeme} {depth deepest : Nat}
    {s : Step α ⟨left, depth, deepest⟩} {a : α} (hs : s.Gives a rest) :
    (s.afterOne : Step α ⟨lexeme :: left, depth, deepest⟩).Gives a rest :=
  ⟨hs.value, hs.rest, hs.depth, hs.silent⟩

end Step

namespace Grammar

variable {g : Grammar} {limit n : Nat} {tier : Tier} {tiers : List Tier} {operator lexeme : Lexeme}
  {lexemes before after rest : List Lexeme} {e l r : Expr} {list : List (List Lexeme × Expr)}

/-- With `n` nestings to go, the parser over `tiers` reads the lexemes as `e`, unless what follows
makes them longer. -/
def Reads (g : Grammar) (limit n : Nat) (tiers : List Tier) (lexemes : List Lexeme) (e : Expr) :
    Prop :=
  ∀ (depth deepest : Nat) (rest : List Lexeme), Stops tiers rest →
    (g.climb (g.nestedAt limit n) tiers ⟨lexemes ++ rest, depth, deepest⟩).Gives (some e) rest

/-- Reading the lexemes at a tier that groups to the left comes to the same as entering the loop of
the tier after them with the tree `e`. -/
def Folds (g : Grammar) (limit n : Nat) (tier : Tier) (tiers : List Tier) (lexemes : List Lexeme)
    (e : Expr) : Prop :=
  ∀ (depth deepest : Nat) (rest : List Lexeme) (e' : Expr) (rest' : List Lexeme), Stops tiers rest →
    (∀ deepest', (foldLeft tier.operators (g.climb (g.nestedAt limit n) tiers) (some e)
      ⟨rest, depth, deepest'⟩).Gives (some e') rest') →
    (g.climb (g.nestedAt limit n) (tier :: tiers) ⟨lexemes ++ rest, depth, deepest⟩).Gives
      (some e') rest'

theorem Stops.off (h : Stops (tier :: tiers) rest) : Off rest tier.operators :=
  fun next hnext => (h next hnext).2 tier (by simp)

/-- A part inside a nesting is read with one nesting fewer to go. -/
theorem Reads.nested (h : g.Reads limit n tiers lexemes e) {rest : List Lexeme}
    (hstops : Stops tiers rest) (depth deepest : Nat) :
    (g.nestedAt limit (n + 1) tiers ⟨lexemes ++ rest, depth, deepest⟩).Gives (some e) rest := by
  have hinner := h (depth + 1) (max deepest (depth + 1)) rest hstops
  refine ⟨hinner.value, hinner.rest, ?_, hinner.silent⟩
  show (g.climb (g.nestedAt limit n) tiers _).cursor.depth - 1 = depth
  rw [Cursor.enter, hinner.depth]
  rfl

/-! ## Operators -/

theorem Folds.reads (h : g.Folds limit n tier tiers lexemes e) :
    g.Reads limit n (tier :: tiers) lexemes e := by
  intro depth deepest rest hstops
  -- the loop that is entered after the whole expression ends at once
  refine h depth deepest rest e rest hstops.tail ?_
  intro deepest'
  rw [foldLeft_off hstops.off]
  exact Step.gives_stay _ _

theorem Reads.folds (hl : tier.rightAssociative = false) (h : g.Reads limit n tiers lexemes e) :
    g.Folds limit n tier tiers lexemes e := by
  intro depth deepest rest e' rest' hstops hloop
  rw [climb_left hl]
  exact (h depth deepest rest hstops).andThen hloop

/-- One round of the loop: the operator and its right operand are read, then the loop goes on. -/
theorem Folds.left (hc : Clear (tier :: tiers)) (ho : operator ∈ tier.operators)
    (hbefore : g.Folds limit n tier tiers before l) (hafter : g.Reads limit n tiers after r) :
    g.Folds limit n tier tiers (before ++ operator :: after) (.binary operator l r) := by
  intro depth deepest rest e' rest' hstops hloop
  rw [List.append_assoc, List.cons_append]
  refine hbefore depth deepest _ e' rest' (hc.stops_operator ho _) ?_
  intro deepest'
  rw [foldLeft_cons ho]
  have hround : (((g.climb (g.nestedAt limit n) tiers ⟨after ++ rest, depth, deepest'⟩).mapNoting
      (join operator (some l))).afterOne :
        Step (Option Expr) ⟨operator :: (after ++ rest), depth, deepest'⟩).Gives
      (some (.binary operator l r)) rest :=
    ((hafter depth deepest' rest hstops).mapNoting rfl).afterOne
  exact hround.andThen hloop

theorem Reads.tighter_right (hr : tier.rightAssociative = true)
    (h : g.Reads limit n tiers lexemes e) : g.Reads limit n (tier :: tiers) lexemes e := by
  intro depth deepest rest hstops
  rw [climb_right hr]
  refine (h depth deepest rest hstops.tail).andThen ?_
  intro deepest'
  rw [foldRight_off hstops.off]
  exact Step.gives_stay _ _

/-- The right operand of an operator that groups to the right is a nested part. -/
theorem Reads.right (hc : Clear (tier :: tiers)) (hr : tier.rightAssociative = true)
    (ho : operator ∈ tier.operators) (hbefore : g.Reads limit (n + 1) tiers before l)
    (hafter : g.Reads limit n (tier :: tiers) after r) :
    g.Reads limit (n + 1) (tier :: tiers) (before ++ operator :: after) (.binary operator l r) := by
  intro depth deepest rest hstops
  rw [List.append_assoc, List.cons_append, climb_right hr]
  refine (hbefore depth deepest _ (hc.stops_operator ho _)).andThen ?_
  intro deepest'
  rw [foldRight_cons ho]
  exact ((hafter.nested hstops depth deepest').mapNoting rfl).afterOne

/-! ## Prefix operators and primaries -/

theorem Reads.sign (ho : operator ∈ g.signs) (h : g.Reads limit n [] lexemes e) :
    g.Reads limit (n + 1) [] (operator :: lexemes) (.unary operator e) := by
  intro depth deepest rest hstops
  rw [List.cons_append, climb, unary_sign ho]
  exact ((h.nested hstops depth deepest).mapNoting rfl).afterOne

theorem reads_group (hg : g.Readable) (h : g.Reads limit n g.tiers lexemes e) :
    g.Reads limit (n + 1) [] ("(" :: (lexemes ++ [")"])) e := by
  intro depth deepest rest _
  rw [List.cons_append, List.append_assoc, List.singleton_append, climb,
    unary_off (off_cons (hg.no_mark_sign "(" opener_mem) _), primary_group]
  have hcloser : Stops g.tiers (")" :: rest) := hg.clear.stops_mark closer_mem (by decide) rest
  refine ((h.nested hcloser depth deepest).andThen ?_).afterOne
  intro deepest'
  rw [closeGroup_closer]
  exact (Step.gives_stay _ _).afterOne

theorem reads_constant (h : g.ConstantToken lexeme) :
    g.Reads limit n [] [lexeme] (.constant lexeme) := by
  intro depth deepest rest _
  rw [List.singleton_append, climb, unary_off (off_cons h.no_sign rest),
    primary_constant (isConstant_ne_mark h.constant opener_mem) h.constant]
  exact (Step.gives_stay _ _).afterOne

theorem reads_name (h : g.NameToken lexeme) :
    g.Reads limit n [] [lexeme] (g.nameLeaf lexeme) := by
  intro depth deepest rest hstops
  -- a parenthesis right after the name would make a call of it
  have hrest : rest.head? ≠ some "(" := fun hparen => (hstops "(" hparen).1 rfl
  rw [List.singleton_append, climb, unary_off (off_cons h.no_sign rest),
    primary_name (isIdentifier_ne_mark h.identifier opener_mem) h.no_constant h.identifier hrest]
  exact (Step.gives_stay _ _).afterOne

/-! ## Calls -/

/-- One round of the loop over the arguments: an argument and what ends it are read, then the loop
goes on. -/
theorem arguments_round {operand : ExprParser} {first mark : Lexeme} {others rest' : List Lexeme}
    {es : List Expr} {depth deepest : Nat} (left : List Lexeme) (hfirst : first ≠ ")")
    (hargument : (operand ⟨first :: (others ++ mark :: rest), depth, deepest⟩).Gives (some e)
      (mark :: rest))
    (hpass : ∀ deepest', (passComma ⟨first :: (others ++ mark :: rest), depth, deepest⟩
      ⟨mark :: rest, depth, deepest'⟩).Gives () left)
    (hmore : ∀ deepest', (arguments operand ⟨left, depth, deepest'⟩).Gives es rest') :
    (arguments operand ⟨first :: (others ++ mark :: rest), depth, deepest⟩).Gives (e :: es)
      rest' := by
  rw [arguments_cons hfirst]
  refine hargument.andThen ?_
  intro deepest'
  refine (hpass deepest').andThen ?_
  intro deepest''
  exact (hmore deepest'').mapNoting rfl

/-- The loop over the arguments reads them one by one up to the closing parenthesis. -/
theorem arguments_gives {operand : ExprParser} (rest : List Lexeme) (depth : Nat) :
    ∀ (list : List (List Lexeme × Expr)),
      (∀ argument ∈ list, ∀ (deepest : Nat) (mark : Lexeme) (rest : List Lexeme),
        mark ∈ punctuation → mark ≠ "(" →
        (operand ⟨argument.1 ++ mark :: rest, depth, deepest⟩).Gives (some argument.2)
          (mark :: rest)) →
      (∀ argument ∈ list, ∃ first others, argument.1 = first :: others ∧ first ≠ ")") →
      ∀ deepest, (arguments operand ⟨[","].intercalate (list.map (·.1)) ++ ")" :: rest, depth,
        deepest⟩).Gives (list.map (·.2)) rest
  | [], _, _, deepest => by
      show (arguments operand ⟨")" :: rest, depth, deepest⟩).Gives [] rest
      rw [arguments_closer]
      exact (Step.gives_stay _ _).afterOne
  | [argument], hread, hhead, deepest => by
      obtain ⟨first, others, heq, hfirst⟩ := hhead argument (by simp)
      have hargument := hread argument (by simp) deepest ")" rest closer_mem (by decide)
      rw [heq] at hargument
      have htext : [","].intercalate ([argument].map (·.1)) ++ ")" :: rest =
          first :: (others ++ ")" :: rest) := by
        simp only [List.map_cons, List.map_nil, List.intercalate_singleton, heq, List.cons_append]
      rw [htext]
      -- no comma follows the last argument, and what has been read of it is not given back
      refine arguments_round (")" :: rest) hfirst hargument ?_ ?_
      · intro deepest'
        rw [passComma_other (by decide) (by simp only [List.length_cons, List.length_append]; omega)]
        exact Step.gives_stay _ _
      · intro deepest'
        rw [arguments_closer]
        exact (Step.gives_stay _ _).afterOne
  | argument :: next :: list, hread, hhead, deepest => by
      obtain ⟨first, others, heq, hfirst⟩ := hhead argument (by simp)
      have hargument := hread argument (by simp) deepest ","
        ([","].intercalate ((next :: list).map (·.1)) ++ ")" :: rest) comma_mem (by decide)
      rw [heq] at hargument
      have htext : [","].intercalate ((argument :: next :: list).map (·.1)) ++ ")" :: rest =
          first :: (others ++ "," ::
            ([","].intercalate ((next :: list).map (·.1)) ++ ")" :: rest)) := by
        simp only [List.map_cons, List.intercalate_cons_cons, heq, List.cons_append,
          List.append_assoc, List.nil_append]
      rw [htext]
      refine arguments_round ([","].intercalate ((next :: list).map (·.1)) ++ ")" :: rest) hfirst
        hargument ?_ ?_
      · intro deepest'
        rw [passComma_comma]
        exact (Step.gives_stay _ _).afterOne
      · exact arguments_gives rest depth (next :: list)
          (fun a ha => hread a (List.mem_cons_of_mem _ ha))
          (fun a ha => hhead a (List.mem_cons_of_mem _ ha))

theorem reads_emptyCall (h : g.NameToken lexeme) :
    g.Reads limit n [] [lexeme, "(", ")"] (.call lexeme []) := by
  intro depth deepest rest _
  show (g.climb _ [] ⟨lexeme :: "(" :: ")" :: rest, depth, deepest⟩).Gives _ rest
  rw [climb, unary_off (off_cons h.no_sign _),
    primary_call (isIdentifier_ne_mark h.identifier opener_mem) h.no_constant h.identifier, call,
    arguments_closer]
  exact ((Step.gives_stay _ _).afterOne.mapNoting rfl).afterOne.afterOne

theorem reads_call (hg : g.Readable) (h : g.NameToken lexeme)
    (hread : ∀ argument ∈ list, g.Reads limit n g.tiers argument.1 argument.2)
    (hhead : ∀ argument ∈ list, ∃ first others, argument.1 = first :: others ∧ first ≠ ")") :
    g.Reads limit (n + 1) []
      (lexeme :: "(" :: ([","].intercalate (list.map (·.1)) ++ [")"]))
      (.call lexeme (list.map (·.2))) := by
  intro depth deepest rest _
  rw [List.cons_append, List.cons_append, List.append_assoc, List.singleton_append, climb,
    unary_off (off_cons h.no_sign _),
    primary_call (isIdentifier_ne_mark h.identifier opener_mem) h.no_constant h.identifier, call]
  have hargument : ∀ argument ∈ list, ∀ (deepest : Nat) (mark : Lexeme) (rest : List Lexeme),
      mark ∈ punctuation → mark ≠ "(" →
      (g.nestedAt limit (n + 1) g.tiers ⟨argument.1 ++ mark :: rest, depth, deepest⟩).Gives
        (some argument.2) (mark :: rest) :=
    fun argument ha deepest mark rest hmark hne =>
      (hread argument ha).nested (hg.clear.stops_mark hmark hne rest) depth deepest
  exact ((arguments_gives rest depth list hargument hhead deepest).mapNoting rfl).afterOne.afterOne

/-! ## Derivations -/

/-- What holds of every derivation: its lexemes are read, and at a tier that groups to the left the
loop may be entered after them. -/
structure Parsed (g : Grammar) (limit n : Nat) (tiers : List Tier) (lexemes : List Lexeme)
    (e : Expr) : Prop where
  reads : g.Reads limit n tiers lexemes e
  folds : ∀ tier tighter, tiers = tier :: tighter → tier.rightAssociative = false →
    g.Folds limit n tier tighter lexemes e

theorem Folds.parsed (h : g.Folds limit n tier tiers lexemes e) :
    g.Parsed limit n (tier :: tiers) lexemes e := by
  refine ⟨h.reads, ?_⟩
  intro tier' tighter heq _
  obtain ⟨rfl, rfl⟩ := List.cons.inj heq
  exact h

theorem Reads.parsed_right (hr : tier.rightAssociative = true)
    (h : g.Reads limit n (tier :: tiers) lexemes e) :
    g.Parsed limit n (tier :: tiers) lexemes e := by
  refine ⟨h, ?_⟩
  intro tier' tighter heq hl
  obtain ⟨rfl, rfl⟩ := List.cons.inj heq
  rw [hr] at hl
  exact Bool.noConfusion hl

theorem Reads.parsed_nil (h : g.Reads limit n [] lexemes e) : g.Parsed limit n [] lexemes e :=
  ⟨h, fun _ _ heq => absurd heq (List.cons_ne_nil _ _).symm⟩

/-- Every derivation is followed by the parser, part by part. -/
theorem Derives.parsed (hg : g.Readable) (h : g.Derives n tiers lexemes e) :
    Clear tiers → g.Parsed limit n tiers lexemes e := by
  induction h with
  | @tighter n tier tiers lexemes e _ ih =>
      intro hc
      have hread := (ih hc.tail).reads
      -- at a tier that groups to the left the loop is entered, and finds no operator of its own
      cases ha : tier.rightAssociative with
      | false => exact (hread.folds ha).parsed
      | true => exact (hread.tighter_right ha).parsed_right ha
  | left hl ho _ _ ihl ihr =>
      intro hc
      have hbefore := (ihl hc).folds _ _ rfl hl
      exact (hbefore.left hc ho (ihr hc.tail).reads).parsed
  | right hr ho _ _ ihl ihr =>
      intro hc
      exact ((ihl hc.tail).reads.right hc hr ho (ihr hc).reads).parsed_right hr
  | sign ho _ ih =>
      intro hc
      exact ((ih hc).reads.sign ho).parsed_nil
  | group _ ih => exact fun _ => (reads_group hg (ih hg.clear).reads).parsed_nil
  | constant h => exact fun _ => (reads_constant h).parsed_nil
  | name h => exact fun _ => (reads_name h).parsed_nil
  | emptyCall h => exact fun _ => (reads_emptyCall h).parsed_nil
  | call h _ hd ih =>
      intro _
      exact (reads_call hg h (fun a ha => (ih a ha hg.clear).reads)
        (fun a ha => (hd a ha).head hg)).parsed_nil

/--
**Completeness.** In a table whose operators are told apart, every expression that the grammar
derives with at most `limit` nestings on a path is parsed: all of its lexemes are read, the result
is the tree of the derivation, and nothing is noted. Whatever number is free, the nodes that are made
show that tree and take one number each.
-/
theorem parse_of_derives (hg : g.Readable) (h : g.Derives limit g.tiers lexemes e) :
    (g.parse limit lexemes).expr = some e ∧ (g.parse limit lexemes).problems = [] ∧
      (g.parse limit lexemes).cursor.rest = [] ∧ (g.parse limit lexemes).cursor.depth = 0 ∧
      ∀ first, ∃ t, Expr.numbered (g.parse limit lexemes).expr first =
        (some t, first + e.size) ∧ e.Shows t := by
  obtain ⟨first, others, heq, -⟩ := h.head hg
  have hne : lexemes ≠ [] := heq ▸ List.cons_ne_nil first others
  have hwhole := (h.parsed hg hg.clear : g.Parsed limit _ _ _ _).reads 0 0 [] (stops_nil g.tiers)
  rw [List.append_nil] at hwhole
  rw [parse_of_ne_nil hne]
  refine ⟨hwhole.value, ?_, hwhole.rest, hwhole.depth, Expr.numbered_shows hwhole.value⟩
  simp only [Cursor.start, hwhole.silent, hwhole.rest, List.isEmpty_nil, if_true, List.append_nil]

/-- The table of flat arithmetic with its prefix operators. -/
def arithmetic : Grammar := ⟨Tier.ofArithmetic, commonSigns, Lexeme.coreKeywords⟩

theorem arithmetic_readable : arithmetic.Readable :=
  ⟨⟨by decide, by decide⟩, by decide⟩

/-- In `( a - b ) ^ - f ( 1 , c )` the arguments are three nestings deep. -/
theorem parse_of_derives_power :
    arithmetic.Readable ∧
    arithmetic.Derives 3 arithmetic.tiers
      ["(", "a", "-", "b", ")", "^", "-", "f", "(", "1", ",", "c", ")"]
      (.binary "^" (.binary "-" (.identifier "a") (.identifier "b"))
        (.unary "-" (.call "f" [.constant "1", .identifier "c"]))) ∧
    (arithmetic.parse 3 ["(", "a", "-", "b", ")", "^", "-", "f", "(", "1", ",", "c", ")"]).expr =
      some (.binary "^" (.binary "-" (.identifier "a") (.identifier "b"))
        (.unary "-" (.call "f" [.constant "1", .identifier "c"]))) ∧
    (arithmetic.parse 3
      ["(", "a", "-", "b", ")", "^", "-", "f", "(", "1", ",", "c", ")"]).problems = [] ∧
    (arithmetic.parse 3
      ["(", "a", "-", "b", ")", "^", "-", "f", "(", "1", ",", "c", ")"]).cursor.rest = [] ∧
    (arithmetic.parse 3
      ["(", "a", "-", "b", ")", "^", "-", "f", "(", "1", ",", "c", ")"]).cursor.depth = 0 ∧
    ∀ first, ∃ t, Expr.numbered (arithmetic.parse 3
        ["(", "a", "-", "b", ")", "^", "-", "f", "(", "1", ",", "c", ")"]).expr first =
          (some t, first + 8) ∧
      (Expr.binary "^" (.binary "-" (.identifier "a") (.identifier "b"))
        (.unary "-" (.call "f" [.constant "1", .identifier "c"]))).Shows t := by
  have ha : ∀ n, arithmetic.Derives n [] ["a"] (.identifier "a") :=
    fun _ => .name ⟨by decide, by decide, by decide⟩
  have hb : ∀ n, arithmetic.Derives n [] ["b"] (.identifier "b") :=
    fun _ => .name ⟨by decide, by decide, by decide⟩
  have hc : ∀ n, arithmetic.Derives n [] ["c"] (.identifier "c") :=
    fun _ => .name ⟨by decide, by decide, by decide⟩
  have h1 : ∀ n, arithmetic.Derives n [] ["1"] (.constant "1") :=
    fun _ => .constant ⟨by decide, by decide⟩
  have hgroup : arithmetic.Derives 3 [] ["(", "a", "-", "b", ")"]
      (.binary "-" (.identifier "a") (.identifier "b")) :=
    .group (.left rfl (by decide) (.tighter (.tighter (.tighter (ha 2)))) (.tighter (.tighter (hb 2))))
  have hf : arithmetic.NameToken "f" := ⟨by decide, by decide, by decide⟩
  have harguments : ∀ argument ∈ [(["1"], Expr.constant "1"), (["c"], Expr.identifier "c")],
      arithmetic.Derives 0 arithmetic.tiers argument.1 argument.2 := by
    intro argument hmem
    simp only [List.mem_cons, List.not_mem_nil, or_false] at hmem
    rcases hmem with rfl | rfl
    · exact .tighter (.tighter (.tighter (h1 0)))
    · exact .tighter (.tighter (.tighter (hc 0)))
  have hcall := Derives.call hf (List.cons_ne_nil _ _) harguments
  have h : arithmetic.Derives 3 arithmetic.tiers
      ["(", "a", "-", "b", ")", "^", "-", "f", "(", "1", ",", "c", ")"]
      (.binary "^" (.binary "-" (.identifier "a") (.identifier "b"))
        (.unary "-" (.call "f" [.constant "1", .identifier "c"]))) :=
    .tighter (.tighter (.right rfl (by decide) hgroup (.tighter (.sign (by decide) hcall))))
  exact ⟨arithmetic_readable, h, parse_of_derives arithmetic_readable h⟩

end Grammar

end SnippetTree
