import SnippetTree.Proofs.ParserSteps

/-!
# The parser by positions

The parser of `Parse.lean` reads from a list that gets shorter, so it cannot ask for a lexeme that
is not there. A parser that keeps the lexemes in place and counts a position can: reading at a
position past the last lexeme is a fault. Here the parser is written once more in that way, with
loops that run as long as they find something to do, and it is shown that nothing goes wrong in it:

* every lexeme is read at a position where there is one, and
* no loop makes more rounds than there are lexemes left, and one to see that it is done.

Both follow from one statement. A scan *follows* a step of the parser if, from the position that
belongs to the cursor, it ends without a fault at the position that belongs to the new cursor, with
the value and the problems of the step. The four ways of making a step each keep this, so every
function follows the function of the same name.
-/

namespace SnippetTree

namespace Scan

/-- What can go wrong in a parser that counts positions. -/
inductive Fault where
  /-- A lexeme was read at a position where there is none. -/
  | overrun (position : Nat)
  /-- A loop did not end in the rounds that were allowed. -/
  | endless
  deriving DecidableEq, Repr

/-- Where a scan stands and the problems it has noted. -/
structure State where
  position : Nat
  problems : List Problem
  deriving DecidableEq, Repr

end Scan

/-- A parser that counts positions in lexemes that stay in place. -/
abbrev Scan := StateT Scan.State (Except Scan.Fault)

namespace Scan

section Parser

variable (lexemes : List Lexeme)

/-! ## Lexemes and problems -/

/-- The lexeme at the position, if there is one. -/
def peek? : Scan (Option Lexeme) :=
  fun s => .ok (lexemes[s.position]?, s)

/-- Reads the lexeme at the position. -/
def advance : Scan Lexeme :=
  fun s => match lexemes[s.position]? with
    | some lexeme => .ok (lexeme, { s with position := s.position + 1 })
    | none => .error (.overrun s.position)

/-- The position. -/
def position : Scan Nat :=
  fun s => .ok (s.position, s)

/-- Notes problems and goes on with the value that comes with them. -/
def noting {α : Type} (found : α × List Problem) : Scan α :=
  fun s => .ok (found.1, { s with problems := s.problems ++ found.2 })

/-! ## The functions of the parser -/

/-- Reads the operators of one tier that groups to the left, with their right operands. -/
def foldLeft (operators : List Lexeme) (operand : Scan (Option Expr)) :
    (rounds : Nat) → (left : Option Expr) → Scan (Option Expr)
  | 0, _ => throw .endless
  | rounds + 1, left => do
    match ← peek? lexemes with
    | none => return left
    | some next =>
      if operators.contains next then
        let operator ← advance lexemes
        let right ← operand
        match ← noting (Grammar.join operator left right) with
        | none => return none
        | some e => foldLeft operators operand rounds (some e)
      else return left

/-- Reads at most one operator of a tier that groups to the right, with its right operand. -/
def foldRight (operators : List Lexeme) (operand : Scan (Option Expr)) (left : Option Expr) :
    Scan (Option Expr) := do
  match ← peek? lexemes with
  | none => return left
  | some next =>
    if operators.contains next then
      let operator ← advance lexemes
      let right ← operand
      noting (Grammar.join operator left right)
    else return left

/-- Ends a group. -/
def closeGroup (inner : Option Expr) : Scan (Option Expr) := do
  match ← peek? lexemes with
  | none => noting (inner, [.unclosedGroup "("])
  | some next =>
    if next = ")" then
      let _ ← advance lexemes
      return inner
    else return inner

/-- Reads the comma after an argument, or passes over one lexeme if nothing has been read since
`start`. -/
def passComma (start : Nat) : Scan Unit := do
  let next ← peek? lexemes
  let here ← position
  if next = some "," ∨ here = start then
    let _ ← advance lexemes
    return ()
  else return ()

/-- Reads the arguments of a call up to the parenthesis that closes it. -/
def arguments (operand : Scan (Option Expr)) : (rounds : Nat) → Scan (List Expr)
  | 0 => throw .endless
  | rounds + 1 => do
    match ← peek? lexemes with
    | none => noting ([], [.unclosedGroup "("])
    | some next =>
      if next = ")" then
        let _ ← advance lexemes
        return []
      else
        let start ← position
        let argument ← operand
        let _ ← passComma lexemes start
        let more ← arguments operand rounds
        noting (argument.toList ++ more, [])

/-- Reads a group, a value, a name or a call. -/
def primary (g : Grammar) (nested : List Tier → Scan (Option Expr)) : Scan (Option Expr) := do
  match ← peek? lexemes with
  | none => return none
  | some lexeme =>
    if lexeme = "(" then
      let _ ← advance lexemes
      let inner ← nested g.tiers
      closeGroup lexemes inner
    else if lexeme.isConstant then
      let _ ← advance lexemes
      return some (.constant lexeme)
    else if lexeme.isIdentifier then
      let _ ← advance lexemes
      if (← peek? lexemes) = some "(" then
        let _ ← advance lexemes
        let es ← arguments lexemes (nested g.tiers) (lexemes.length + 1)
        noting (some (.call lexeme es), [])
      else return some (g.nameLeaf lexeme)
    else return none

/-- Reads prefix operators and the operand that they apply to. -/
def unary (g : Grammar) (nested : List Tier → Scan (Option Expr)) : Scan (Option Expr) := do
  match ← peek? lexemes with
  | none => primary lexemes g nested
  | some next =>
    if g.signs.contains next then
      let operator ← advance lexemes
      let operand ← nested []
      noting (Grammar.applySign operator operand)
    else primary lexemes g nested

/-- Reads an expression of the given tiers. -/
def climb (g : Grammar) (nested : List Tier → Scan (Option Expr)) :
    List Tier → Scan (Option Expr)
  | [] => unary lexemes g nested
  | tier :: tighter => do
    let left ← climb g nested tighter
    if tier.rightAssociative then
      foldRight lexemes tier.operators (nested (tier :: tighter)) left
    else foldLeft lexemes tier.operators (climb g nested tighter) (lexemes.length + 1) left

/-- Passes over lexemes up to the parenthesis that closes the enclosing group. -/
def skipNested : (rounds opened : Nat) → Scan Unit
  | 0, _ => throw .endless
  | rounds + 1, opened => do
    match ← peek? lexemes with
    | none => return ()
    | some next =>
      if next = ")" then
        match opened with
        | 0 => return ()
        | opened + 1 =>
          let _ ← advance lexemes
          skipNested rounds opened
      else
        let _ ← advance lexemes
        skipNested rounds (if next = "(" then opened + 1 else opened)

/-- Passes over a part that nests too deeply. -/
def skip (limit : Nat) : Scan (Option Expr) := do
  match ← peek? lexemes with
  | none => return none
  | some _ =>
    let _ ← skipNested lexemes (lexemes.length + 1) 0
    noting (some .placeholder, [.nestedTooDeep limit])

/-- Reads a part inside a nesting, when that many nestings may still be entered. -/
def nestedAt (g : Grammar) (limit : Nat) : (room : Nat) → List Tier → Scan (Option Expr)
  | 0, _ => skip lexemes limit
  | room + 1, tiers => climb lexemes g (nestedAt g limit room) tiers

/-- Parses the lexemes as one expression. -/
def parse (g : Grammar) (limit : Nat) : Scan (Option Expr) := do
  if lexemes.isEmpty then noting (some .placeholder, [.emptyExpression])
  else
    let e ← climb lexemes g (nestedAt lexemes g limit limit) g.tiers
    let rest := lexemes.drop (← position)
    noting (e, if rest.isEmpty then [] else [.trailingLexemes rest])

end Parser

/-! ## Following a step -/

/-- The scan that stands where the cursor stands. -/
def State.ofCursor (lexemes : List Lexeme) (c : Cursor) (problems : List Problem) : State :=
  ⟨lexemes.length - c.rest.length, problems⟩

/-- From the position of the cursor on, the scan does what the step does. -/
def Follows {α : Type} (lexemes : List Lexeme) (x : Scan α) {c : Cursor} (s : Step α c) : Prop :=
  c.rest <:+ lexemes → ∀ problems, x (State.ofCursor lexemes c problems) =
    .ok (s.value, State.ofCursor lexemes s.cursor (problems ++ s.problems))

variable {α β : Type} {lexemes : List Lexeme} {c : Cursor}

/-- The lexeme at the position of a cursor is the next one of the cursor. -/
theorem getElem?_of_suffix {rest : List Lexeme} (h : rest <:+ lexemes) :
    lexemes[lexemes.length - rest.length]? = rest.head? := by
  obtain ⟨before, rfl⟩ := h
  rw [List.length_append, Nat.add_sub_cancel, List.getElem?_append_right (Nat.le_refl _),
    Nat.sub_self, List.head?_eq_getElem?]

theorem bind_apply (x : Scan α) (f : α → Scan β) (s : State) :
    (x >>= f) s = (x s).bind fun (a, s) => f a s := rfl

/-- What is still to be read may be taken for a tail of the lexemes. -/
theorem Follows.of_suffix {x : Scan α} {s : Step α c}
    (h : c.rest <:+ lexemes → Follows lexemes x s) : Follows lexemes x s := by
  intro hc
  exact h hc hc

theorem follows_stay (a : α) (c : Cursor) : Follows lexemes (pure a) (Step.stay a c) := by
  intro _ problems
  show Except.ok (a, _) = _
  simp [Step.stay]

theorem Follows.andThen {x : Scan α} {f : α → Scan β} {s : Step α c}
    {k : α → (c' : Cursor) → Step β c'} (hx : Follows lexemes x s)
    (hf : Follows lexemes (f s.value) (k s.value s.cursor)) :
    Follows lexemes (x >>= f) (s.andThen k) := by
  intro hc problems
  have hnext := hf (s.suffix.trans hc) (problems ++ s.problems)
  rw [bind_apply, hx hc problems]
  simpa [Except.bind, Step.andThen] using hnext

theorem Follows.mapNoting {x : Scan α} {s : Step α c} (hx : Follows lexemes x s)
    (f : α → β × List Problem) :
    Follows lexemes (x >>= fun a => noting (f a)) (s.mapNoting f) := by
  intro hc problems
  rw [bind_apply, hx hc problems]
  simp [Except.bind, noting, Step.mapNoting, State.ofCursor]

/-- A look at the next lexeme changes nothing. -/
theorem Follows.peek {f : Option Lexeme → Scan α} {s : Step α c}
    (h : Follows lexemes (f c.rest.head?) s) : Follows lexemes (peek? lexemes >>= f) s := by
  intro hc problems
  have hhead : peek? lexemes (State.ofCursor lexemes c problems) =
      .ok (c.rest.head?, State.ofCursor lexemes c problems) := by
    rw [← getElem?_of_suffix hc]
    rfl
  rw [bind_apply, hhead]
  exact h hc problems

/-- A look at the position changes nothing. -/
theorem Follows.position {f : Nat → Scan α} {s : Step α c}
    (h : Follows lexemes (f (lexemes.length - c.rest.length)) s) :
    Follows lexemes (Scan.position >>= f) s := by
  intro hc problems
  exact h hc problems

/-- **Where there is a next lexeme, reading it is no fault.** -/
theorem Follows.afterOne {lexeme : Lexeme} {rest : List Lexeme} {depth deepest : Nat}
    {f : Lexeme → Scan α} {s : Step α ⟨rest, depth, deepest⟩}
    (h : Follows lexemes (f lexeme) s) :
    Follows lexemes (advance lexemes >>= f)
      (s.afterOne : Step α ⟨lexeme :: rest, depth, deepest⟩) := by
  intro hc problems
  have hrest : rest <:+ lexemes := (List.suffix_cons _ _).trans hc
  have hlength := hc.length_le
  rw [List.length_cons] at hlength
  have hhead := getElem?_of_suffix hc
  have hread : advance lexemes (State.ofCursor lexemes ⟨lexeme :: rest, depth, deepest⟩ problems) =
      .ok (lexeme, State.ofCursor lexemes ⟨rest, depth, deepest⟩ problems) := by
    simp only [advance, State.ofCursor, hhead, List.head?_cons]
    have hnext : lexemes.length - (lexeme :: rest).length + 1 = lexemes.length - rest.length := by
      rw [List.length_cons]
      omega
    rw [hnext]
  rw [bind_apply, hread]
  exact h hrest problems

/-! ## Every function follows the function of the same name -/

section Functions

variable {x : Scan (Option Expr)} {operand : ExprParser} {operators : List Lexeme}

theorem follows_foldLeft (hx : ∀ c, Follows lexemes x (operand c)) {rounds : Nat}
    (left : Option Expr) (c : Cursor) (hrounds : c.rest.length < rounds) :
    Follows lexemes (foldLeft lexemes operators x rounds left)
      (Grammar.foldLeft operators operand left c) := by
  induction rounds generalizing left c with
  | zero => omega
  | succ rounds ih =>
      unfold foldLeft
      refine Follows.peek ?_
      obtain ⟨rest, depth, deepest⟩ := c
      cases rest with
      | nil =>
          rw [Grammar.foldLeft_off (by intro next hnext; simp at hnext)]
          exact follows_stay left _
      | cons operator rest =>
          simp only [List.head?_cons]
          by_cases hmem : operator ∈ operators
          · rw [if_pos (by simpa using hmem), Grammar.foldLeft_cons hmem]
            have hjoined : Follows lexemes
                (advance lexemes >>= fun operator => x >>= fun right =>
                  noting (Grammar.join operator left right))
                ((operand ⟨rest, depth, deepest⟩).mapNoting
                  (Grammar.join operator left)).afterOne :=
              ((hx _).mapNoting (Grammar.join operator left)).afterOne
            -- the rounds that are left are enough, since an operator has been read
            have hshort : (operand ⟨rest, depth, deepest⟩).cursor.rest.length ≤ rest.length :=
              (operand ⟨rest, depth, deepest⟩).suffix.length_le
            have hlength : (operator :: rest).length = rest.length + 1 := List.length_cons
            have hleft : (operand ⟨rest, depth, deepest⟩).cursor.rest.length < rounds := by
              dsimp only at hrounds
              omega
            have hgoOn : ∀ joined : Option Expr, Follows lexemes
                (match joined with
                  | none => pure none
                  | some e => foldLeft lexemes operators x rounds (some e))
                (Grammar.goOn operators operand joined (operand ⟨rest, depth, deepest⟩).cursor) := by
              intro joined
              cases joined with
              | none => exact follows_stay none _
              | some e => exact ih (some e) _ hleft
            have hall := hjoined.andThen (f := fun
              | none => pure none
              | some e => foldLeft lexemes operators x rounds (some e)) (hgoOn _)
            simp only [bind_assoc] at hall
            exact hall
          · rw [if_neg (by simpa using hmem), Grammar.foldLeft_off (Grammar.off_cons hmem rest)]
            exact follows_stay left _

theorem follows_foldRight (hx : ∀ c, Follows lexemes x (operand c)) (left : Option Expr)
    (c : Cursor) : Follows lexemes (foldRight lexemes operators x left)
      (Grammar.foldRight operators operand left c) := by
  unfold foldRight
  refine Follows.peek ?_
  obtain ⟨rest, depth, deepest⟩ := c
  cases rest with
  | nil => exact follows_stay left _
  | cons operator rest =>
      simp only [List.head?_cons]
      by_cases hmem : operator ∈ operators
      · rw [if_pos (by simpa using hmem), Grammar.foldRight_cons hmem]
        exact ((hx _).mapNoting (Grammar.join operator left)).afterOne
      · rw [if_neg (by simpa using hmem), Grammar.foldRight_off (Grammar.off_cons hmem rest)]
        exact follows_stay left _

theorem follows_noting (a : α) (problems : List Problem) (c : Cursor) :
    Follows lexemes (noting (a, problems)) (⟨a, c, problems, List.suffix_refl _⟩ : Step α c) := by
  intro _ noted
  rfl

theorem follows_closeGroup (inner : Option Expr) (c : Cursor) :
    Follows lexemes (closeGroup lexemes inner) (Grammar.closeGroup inner c) := by
  unfold closeGroup
  refine Follows.peek ?_
  obtain ⟨rest, depth, deepest⟩ := c
  cases rest with
  | nil =>
      rw [Grammar.closeGroup_nil]
      exact follows_noting inner _ _
  | cons lexeme rest =>
      simp only [List.head?_cons]
      by_cases hcloser : lexeme = ")"
      · subst hcloser
        rw [if_pos rfl, Grammar.closeGroup_closer]
        exact (follows_stay inner _).afterOne
      · rw [if_neg hcloser, Grammar.closeGroup_other inner hcloser]
        exact follows_stay inner _

/-- Nothing is read past the end here: if no lexeme has been read since `before`, the one that was
next then is still there. -/
theorem follows_passComma {before : Cursor} (hbefore : before.rest <:+ lexemes)
    (hne : before.rest ≠ []) (c : Cursor) :
    Follows lexemes (passComma lexemes (lexemes.length - before.rest.length))
      (Grammar.passComma before c) := by
  have hpos : 0 < before.rest.length := List.length_pos_iff.mpr hne
  have hle := hbefore.length_le
  unfold passComma
  refine Follows.of_suffix fun hc => Follows.peek (Follows.position ?_)
  have hlength := hc.length_le
  obtain ⟨rest, depth, deepest⟩ := c
  cases rest with
  | nil =>
      have hmoved : lexemes.length - ([] : List Lexeme).length ≠
          lexemes.length - before.rest.length := by
        rw [List.length_nil]
        omega
      rw [if_neg (by simpa using hmoved)]
      exact follows_stay () _
  | cons lexeme rest =>
      rw [List.length_cons] at hlength
      by_cases hread : lexeme = "," ∨ before.rest.length = rest.length + 1
      · have hmodel : Grammar.passComma before ⟨lexeme :: rest, depth, deepest⟩ =
            (Step.stay () ⟨rest, depth, deepest⟩).afterOne := by
          simp [Grammar.passComma, hread]
        have hscan : (lexeme :: rest).head? = some "," ∨
            lexemes.length - (lexeme :: rest).length = lexemes.length - before.rest.length := by
          rcases hread with hcomma | hsame
          · exact .inl (by rw [hcomma]; rfl)
          · exact .inr (by rw [List.length_cons, hsame])
        rw [if_pos hscan, hmodel]
        exact (follows_stay () _).afterOne
      · have hmodel : Grammar.passComma before ⟨lexeme :: rest, depth, deepest⟩ =
            .stay () ⟨lexeme :: rest, depth, deepest⟩ := by
          simp [Grammar.passComma, hread]
        have hscan : ¬ ((lexeme :: rest).head? = some "," ∨
            lexemes.length - (lexeme :: rest).length = lexemes.length - before.rest.length) := by
          rintro (hcomma | hsame)
          · exact hread (.inl (by simpa using hcomma))
          · rw [List.length_cons] at hsame
            exact hread (.inr (by omega))
        rw [if_neg hscan, hmodel]
        exact follows_stay () _

theorem follows_arguments (hx : ∀ c, Follows lexemes x (operand c)) {rounds : Nat} (c : Cursor)
    (hrounds : c.rest.length < rounds) :
    Follows lexemes (arguments lexemes x rounds) (Grammar.arguments operand c) := by
  induction rounds generalizing c with
  | zero => omega
  | succ rounds ih =>
      unfold arguments
      refine Follows.of_suffix fun hc => Follows.peek ?_
      obtain ⟨rest, depth, deepest⟩ := c
      cases rest with
      | nil =>
          rw [Grammar.arguments_nil]
          exact follows_noting [] _ _
      | cons lexeme rest =>
          simp only [List.head?_cons]
          by_cases hcloser : lexeme = ")"
          · subst hcloser
            rw [if_pos rfl, Grammar.arguments_closer]
            exact (follows_stay [] _).afterOne
          · rw [if_neg hcloser, Grammar.arguments_cons hcloser]
            refine Follows.position ((hx _).andThen ?_)
            refine (follows_passComma hc (by simp) _).andThen ?_
            -- a round reads at least one lexeme, whatever the argument was
            have hless : (Grammar.passComma ⟨lexeme :: rest, depth, deepest⟩
                (operand ⟨lexeme :: rest, depth, deepest⟩).cursor).cursor.rest.length <
                (lexeme :: rest).length :=
              Grammar.passComma_lt (operand ⟨lexeme :: rest, depth, deepest⟩).suffix (by simp)
            exact (ih _ (by dsimp only at hrounds; omega)).mapNoting _

/-! ## Operands, tiers and nestings -/

variable {g : Grammar} {nested : List Tier → Scan (Option Expr)}
  {nestedParser : List Tier → ExprParser}

theorem follows_primary (h : ∀ tiers c, Follows lexemes (nested tiers) (nestedParser tiers c))
    (c : Cursor) : Follows lexemes (primary lexemes g nested) (g.primary nestedParser c) := by
  unfold primary
  refine Follows.of_suffix fun hc => Follows.peek ?_
  have hlength := hc.length_le
  obtain ⟨rest, depth, deepest⟩ := c
  cases rest with
  | nil => exact follows_stay none _
  | cons lexeme rest =>
      simp only [List.head?_cons]
      by_cases hparen : lexeme = "("
      · subst hparen
        rw [if_pos rfl, Grammar.primary_group]
        exact ((h g.tiers _).andThen (follows_closeGroup _ _)).afterOne
      rw [if_neg hparen]
      by_cases hconst : lexeme.isConstant = true
      · rw [if_pos hconst, Grammar.primary_constant hparen hconst]
        refine Follows.afterOne ?_
        exact follows_stay _ _
      rw [if_neg hconst]
      rw [Bool.not_eq_true] at hconst
      by_cases hname : lexeme.isIdentifier = true
      · rw [if_pos hname]
        by_cases hcall : rest.head? = some "("
        · cases rest with
          | nil => simp at hcall
          | cons next inside =>
              rw [List.head?_cons, Option.some.injEq] at hcall
              subst hcall
              rw [Grammar.primary_call hparen hconst hname]
              refine Follows.afterOne (Follows.peek ?_)
              rw [if_pos (by rfl)]
              refine Follows.afterOne ?_
              have hrounds : inside.length < lexemes.length + 1 := by
                simp only [List.length_cons] at hlength
                omega
              exact (follows_arguments (h g.tiers) _ hrounds).mapNoting _
        · rw [Grammar.primary_name hparen hconst hname hcall]
          refine Follows.afterOne (Follows.peek ?_)
          rw [if_neg hcall]
          exact follows_stay _ _
      · rw [if_neg hname, Grammar.primary_other hparen hconst (by simpa using hname)]
        exact follows_stay none _

theorem follows_unary (h : ∀ tiers c, Follows lexemes (nested tiers) (nestedParser tiers c))
    (c : Cursor) : Follows lexemes (unary lexemes g nested) (g.unary nestedParser c) := by
  unfold unary
  refine Follows.peek ?_
  obtain ⟨rest, depth, deepest⟩ := c
  cases rest with
  | nil => exact follows_primary h _
  | cons lexeme rest =>
      simp only [List.head?_cons]
      by_cases hsign : lexeme ∈ g.signs
      · rw [if_pos (by simpa using hsign), Grammar.unary_sign hsign]
        exact ((h [] _).mapNoting (Grammar.applySign lexeme)).afterOne
      · rw [if_neg (by simpa using hsign), Grammar.unary_off (Grammar.off_cons hsign rest)]
        exact follows_primary h _

theorem follows_climb (h : ∀ tiers c, Follows lexemes (nested tiers) (nestedParser tiers c))
    (tiers : List Tier) (c : Cursor) :
    Follows lexemes (climb lexemes g nested tiers) (g.climb nestedParser tiers c) := by
  induction tiers generalizing c with
  | nil => exact follows_unary h c
  | cons tier tighter ih =>
      unfold climb
      refine Follows.of_suffix fun hc => ?_
      have hlength := hc.length_le
      cases hright : tier.rightAssociative with
      | true =>
          rw [Grammar.climb_right hright]
          exact (ih c).andThen (follows_foldRight (h _) _ _)
      | false =>
          rw [Grammar.climb_left hright]
          have hrounds : (g.climb nestedParser tighter c).cursor.rest.length < lexemes.length + 1 :=
            Nat.lt_succ_of_le
              (Nat.le_trans (g.climb nestedParser tighter c).suffix.length_le hlength)
          exact (ih c).andThen (follows_foldLeft ih _ _ hrounds)

/-- What is left after passing over a nested part, as a step. -/
def dropped (opened : Nat) (c : Cursor) : Step Unit c :=
  ⟨(), { c with rest := Grammar.dropNested opened c.rest }, [], Grammar.dropNested_suffix _ _⟩

theorem follows_skipNested {rounds : Nat} (opened : Nat) (c : Cursor)
    (hrounds : c.rest.length < rounds) :
    Follows lexemes (skipNested lexemes rounds opened) (dropped opened c) := by
  induction rounds generalizing opened c with
  | zero => omega
  | succ rounds ih =>
      unfold skipNested
      refine Follows.peek ?_
      obtain ⟨rest, depth, deepest⟩ := c
      cases rest with
      | nil => exact follows_stay () _
      | cons lexeme rest =>
          have hless : rest.length < rounds := by
            dsimp only [List.length_cons] at hrounds
            omega
          -- one lexeme goes, and the rest is dropped with what is open after it
          have hdropped : ∀ inner, Grammar.dropNested opened (lexeme :: rest) =
              Grammar.dropNested inner rest →
              dropped opened ⟨lexeme :: rest, depth, deepest⟩ =
                (dropped inner ⟨rest, depth, deepest⟩).afterOne := by
            intro inner heq
            ext1
            · rfl
            · simp [dropped, Step.afterOne, heq]
            · rfl
          simp only [List.head?_cons]
          by_cases hcloser : lexeme = ")"
          · subst hcloser
            rw [if_pos rfl]
            cases opened with
            | zero => exact follows_stay () _
            | succ opened =>
                rw [hdropped opened (by simp [Grammar.dropNested])]
                exact (ih _ _ hless).afterOne
          · rw [if_neg hcloser]
            by_cases hopener : lexeme = "("
            · rw [if_pos hopener, hdropped (opened + 1) (by simp [Grammar.dropNested, hopener])]
              exact (ih _ _ hless).afterOne
            · rw [if_neg hopener, hdropped opened (by simp [Grammar.dropNested, hcloser, hopener])]
              exact (ih _ _ hless).afterOne

theorem follows_skip (limit : Nat) (c : Cursor) :
    Follows lexemes (skip lexemes limit) (Grammar.skip limit c) := by
  unfold skip
  refine Follows.of_suffix fun hc => Follows.peek ?_
  have hlength := hc.length_le
  obtain ⟨rest, depth, deepest⟩ := c
  cases rest with
  | nil => exact follows_stay none _
  | cons lexeme rest =>
      have hskip : Grammar.skip limit ⟨lexeme :: rest, depth, deepest⟩ =
          (dropped 0 ⟨lexeme :: rest, depth, deepest⟩).mapNoting fun _ =>
            (some .placeholder, [.nestedTooDeep limit]) := by
        ext1
        · rfl
        · rfl
        · rfl
      rw [hskip]
      exact (follows_skipNested 0 _ (Nat.lt_succ_of_le hlength)).mapNoting _

theorem follows_nestedAt (limit room : Nat) (tiers : List Tier) (c : Cursor) :
    Follows lexemes (nestedAt lexemes g limit room tiers) (g.nestedAt limit room tiers c) := by
  induction room generalizing tiers c with
  | zero => exact follows_skip limit c
  | succ room ih => exact follows_climb ih tiers c.enter

end Functions

/-- **Counting positions gives what the parser gives, and nothing goes wrong.** The scan ends
without a fault, with the expression and the problems of the parse, at the position that is the
number of lexemes read. -/
theorem parse_ok (g : Grammar) (limit : Nat) (lexemes : List Lexeme) :
    parse lexemes g limit ⟨0, []⟩ = .ok ((g.parse limit lexemes).expr,
      ⟨(g.parse limit lexemes).consumed lexemes, (g.parse limit lexemes).problems⟩) := by
  by_cases hnil : lexemes = []
  · subst hnil
    rfl
  · have hclimb : Follows lexemes (climb lexemes g (nestedAt lexemes g limit limit) g.tiers)
        (g.climb (g.nestedAt limit limit) g.tiers (.start lexemes)) :=
      follows_climb (follows_nestedAt limit limit) g.tiers _
    have hstart : State.ofCursor lexemes (.start lexemes) [] = ⟨0, []⟩ := by
      simp [State.ofCursor, Cursor.start]
    have hwhole := hclimb (List.suffix_refl lexemes) []
    have hsuffix := (g.climb (g.nestedAt limit limit) g.tiers (.start lexemes)).suffix
    have hdrop : ∀ rest, rest <:+ lexemes → lexemes.drop (lexemes.length - rest.length) = rest := by
      rintro rest ⟨before, rfl⟩
      simp
    rw [hstart] at hwhole
    rw [Grammar.parse_of_ne_nil hnil, parse, if_neg (by simpa using hnil), bind_apply, hwhole]
    simp only [Except.bind, bind_apply, position, noting, State.ofCursor, Parse.consumed,
      hdrop _ hsuffix, List.nil_append]

end Scan

end SnippetTree
