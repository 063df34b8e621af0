import Mathlib.Data.List.Forall2
import SnippetTree.Program

/-!
# What can become of a line

A line is classified by a chain of computations, each of which may end in a fault. This file takes
the chain apart once. What comes out of it is one of four things (`Reader.Classified`), and where a
statement comes out it was extracted from the line by a rule. All that is proved about the lines of
a snippet goes through these cases, so that no later proof opens the classification again.

The one thing that the type of a statement leaves open is which clauses a loop may have. The header
is cut in one of three ways, and each gives clauses with the roles of that way, in their order
(`Statement.Ordered`).
-/

namespace SnippetTree

/-! ## Computations that may end in a fault -/

theorem exists_of_bind_ok {α β ε : Type} {x : Except ε α} {f : α → Except ε β} {b : β}
    (h : x >>= f = .ok b) : ∃ a, x = .ok a ∧ f a = .ok b := by
  cases x with
  | error e => cases h
  | ok a => exact ⟨a, rfl, h⟩

/-- A list of computations ends well if each of them does, and gives what they give. -/
theorem forall₂_of_mapM_ok {α β ε : Type} {f : α → Except ε β} {as : List α} {bs : List β}
    (h : as.mapM f = .ok bs) : List.Forall₂ (fun a b => f a = .ok b) as bs := by
  induction as generalizing bs with
  | nil =>
      cases h
      exact .nil
  | cons a as ih =>
      rw [List.mapM_cons] at h
      obtain ⟨b, hb, hrest⟩ := exists_of_bind_ok h
      obtain ⟨bs, hbs, heq⟩ := exists_of_bind_ok hrest
      cases heq
      exact .cons hb (ih hbs)

theorem exists_of_mem_of_forall₂ {α β : Type} {R : α → β → Prop} {as : List α} {bs : List β}
    (h : List.Forall₂ R as bs) {b : β} (hb : b ∈ bs) : ∃ a ∈ as, R a b := by
  induction h with
  | nil => cases hb
  | cons hr _ ih =>
      rcases List.mem_cons.mp hb with rfl | hb
      · exact ⟨_, List.mem_cons_self .., hr⟩
      · obtain ⟨a, ha, hab⟩ := ih hb
        exact ⟨a, List.mem_cons_of_mem _ ha, hab⟩

theorem map_eq_of_forall₂ {α β γ : Type} {f : α → γ} {g : β → γ} {as : List α} {bs : List β}
    (h : List.Forall₂ (fun a b => g b = f a) as bs) : bs.map g = as.map f := by
  induction h with
  | nil => rfl
  | cons hr _ ih => rw [List.map_cons, List.map_cons, hr, ih]

theorem map_fst_zip_sublist {α β : Type} (as : List α) (bs : List β) :
    ((as.zip bs).map (·.1)).Sublist as := by
  induction as generalizing bs with
  | nil => exact List.nil_sublist _
  | cons a as ih =>
      cases bs with
      | nil => exact List.nil_sublist _
      | cons b bs => exact (ih bs).cons_cons a

/-! ## Reports -/

theorem Report.value_mapM {α β : Type} (f : α → Report β) (as : List α) :
    (as.mapM f).value = as.map fun a => (f a).value := by
  induction as with
  | nil => rfl
  | cons a as ih =>
      rw [List.mapM_cons, value_bind, value_bind, value_pure, ih]
      rfl

/-! ## Loops -/

/-- The clauses of a loop have the roles of one sort of header, in their order. -/
def Statement.Ordered : Statement → Prop
  | forLoop clauses =>
      (clauses.map Clause.role).Sublist [.init, .condition, .update] ∨
        (clauses.map Clause.role).Sublist [.target, .iterable]
  | _ => True

namespace Reader

variable {r : Reader} {text line : Text}

theorem role_of_clause {role : ClauseRole} {c : Report Clause} (h : r.clause role text = .ok c) :
    c.value.role = role := by
  unfold clause at h
  split at h
  · obtain ⟨d, -, heq⟩ := exists_of_bind_ok h
    cases heq
    rfl
  · split at h
    · obtain ⟨a, -, heq⟩ := exists_of_bind_ok h
      cases heq
      rfl
    · cases h
      rfl

/-- Trimming keeps the roles of the parts, and leaving out empty ones keeps their order. -/
theorem roles_kept (parts : List (ClauseRole × Text)) :
    (((parts.map fun (role, part) => (role, Text.trim part)).filter
      fun (_, part) => !part.isEmpty).map (·.1)).Sublist (parts.map (·.1)) := by
  have htrimmed : (parts.map fun (role, part) => (role, Text.trim part)).map (·.1) =
      parts.map (·.1) := by rw [List.map_map]; rfl
  rw [← htrimmed]
  exact List.filter_sublist.map _

/-- However a header is cut, its parts come in the order of their roles. -/
theorem roles_clauseTexts (r : Reader) (text : Text) :
    ((r.clauseTexts text).map (·.1)).Sublist [.init, .condition, .update] ∨
      ((r.clauseTexts text).map (·.1)).Sublist [.target, .iterable] := by
  unfold clauseTexts
  split
  · split
    · exact .inl (List.nil_sublist _)
    · exact .inr (List.Sublist.refl _)
  · dsimp only
    split
    · exact .inl ((roles_kept _).trans (map_fst_zip_sublist _ _))
    · split
      · exact .inr (roles_kept _)
      · exact .inl ((roles_kept _).trans (.cons _ (.cons_cons _ (.cons _ .slnil))))

theorem ordered_condition {s : Report Statement} (h : r.condition text = .ok s) :
    s.value.Ordered := by
  unfold condition at h
  split at h
  · cases h
  · cases h
    trivial

theorem expression_of_expressionStatement? {s : Statement}
    (h : (r.expressionStatement? text).value = some s) : ∃ text e, s = .expression text e := by
  unfold expressionStatement? at h
  dsimp only at h
  split at h
  · cases h
  · obtain ⟨e, -, heq⟩ := Option.map_eq_some_iff.mp h
    exact ⟨_, e, heq.symm⟩

theorem ordered_forLoop {s : Report Statement} (h : r.forLoop text = .ok s) : s.value.Ordered := by
  obtain ⟨clauses, hclauses, heq⟩ := exists_of_bind_ok h
  cases heq
  have hroles : (clauses.map fun c => c.value.role) = (r.clauseTexts text).map (·.1) :=
    map_eq_of_forall₂ ((forall₂_of_mapM_ok hclauses).imp fun _ _ hclause => role_of_clause hclause)
  show ((clauses.mapM fun clause => clause).value.map Clause.role).Sublist _ ∨
    ((clauses.mapM fun clause => clause).value.map Clause.role).Sublist _
  rw [Report.value_mapM, List.map_map]
  show (clauses.map fun c => c.value.role).Sublist _ ∨ (clauses.map fun c => c.value.role).Sublist _
  rw [hroles]
  exact r.roles_clauseTexts text

end Reader

/-! ## Lines -/

/-- A rule extracts loops from headers only. -/
theorem Rule.ordered_extract {rule : Rule} {r : Reader} {text : Text}
    {found : Report (Option Statement)} (h : rule.extract r text = .ok found) {s : Statement}
    (hs : found.value = some s) : s.Ordered := by
  cases rule with
  | variableDeclaration =>
      obtain ⟨d, -, heq⟩ := exists_of_bind_ok h
      cases heq
      obtain rfl : .declaration d.value = s := Option.some.inj hs
      trivial
  | functionDeclaration =>
      obtain ⟨f, -, heq⟩ := exists_of_bind_ok h
      cases heq
      obtain rfl : .function f = s := Option.some.inj hs
      trivial
  | condition =>
      obtain ⟨found, hfound, heq⟩ := exists_of_bind_ok h
      cases heq
      obtain rfl : found.value = s := Option.some.inj hs
      exact Reader.ordered_condition hfound
  | forHeader =>
      obtain ⟨found, hfound, heq⟩ := exists_of_bind_ok h
      cases heq
      obtain rfl : found.value = s := Option.some.inj hs
      exact Reader.ordered_forLoop hfound
  | returning =>
      cases h
      obtain rfl : (r.returning text).value = s := Option.some.inj hs
      trivial
  | assignment =>
      obtain ⟨a, -, heq⟩ := exists_of_bind_ok h
      cases heq
      obtain rfl : .assignment a.value = s := Option.some.inj hs
      trivial
  | expression =>
      cases h
      obtain ⟨text, e, rfl⟩ := Reader.expression_of_expressionStatement? hs
      trivial

namespace Reader

variable {r : Reader} {rules : List Rule} {line : Text}

/-- What can become of a line under a table of rules. -/
inductive Classified (r : Reader) (rules : List Rule) (line : Text) : Outcome → Prop where
  | blank : Text.normalize line = [] → Classified r rules line .blank
  | structural : Text.normalize line ≠ [] → (Text.normalize line).all Text.isStructural = true →
      Classified r rules line .structural
  | kept {rule : Rule} {s : Statement} {problems : List Problem} :
      (Text.normalize line).all Text.isStructural = false →
      Rule.choose rules r.spec (Text.normalize line) = .ok rule →
      rule.extract r (Text.normalize line) = .ok ⟨some s, problems⟩ →
      Classified r rules line (.kept rule s problems)
  | dropped {rule : Rule} {problems : List Problem} :
      (Text.normalize line).all Text.isStructural = false →
      Rule.choose rules r.spec (Text.normalize line) = .ok rule →
      rule.extract r (Text.normalize line) = .ok ⟨none, problems⟩ →
      Classified r rules line (.dropped rule (String.ofList (Text.normalize line)) problems)

/-- **A line that is classified is nothing, is structure, or went through a rule.** -/
theorem classified_of_classify {outcome : Outcome} (h : r.classify rules line = .ok outcome) :
    r.Classified rules line outcome := by
  unfold classify at h
  dsimp only at h
  split at h
  · rename_i hempty
    cases h
    exact .blank (List.isEmpty_iff.mp hempty)
  · rename_i hempty
    split at h
    · rename_i hstructural
      cases h
      exact .structural (fun heq => hempty (List.isEmpty_iff.mpr heq)) hstructural
    · rename_i hstructural
      obtain ⟨rule, hchoose, hrest⟩ := exists_of_bind_ok h
      obtain ⟨⟨value, problems⟩, hextract, hfound⟩ := exists_of_bind_ok hrest
      have hfalse := Bool.eq_false_iff.mpr hstructural
      cases value with
      | some s =>
          cases hfound
          exact .kept hfalse hchoose hextract
      | none =>
          cases hfound
          exact .dropped hfalse hchoose hextract

/-- The statement of a line was extracted from it. -/
theorem ordered_of_classify {outcome : Outcome} (h : r.classify rules line = .ok outcome) :
    ∀ s ∈ outcome.statement?, s.Ordered := by
  cases classified_of_classify h with
  | blank _ => simp [Outcome.statement?]
  | structural _ _ => simp [Outcome.statement?]
  | kept _ _ hextract =>
      intro s hs
      exact Rule.ordered_extract hextract hs
  | dropped _ _ _ => simp [Outcome.statement?]

/-- All statements of a snippet of lines were extracted from one of its lines. -/
theorem ordered_of_outcomes {settings : Settings} {text : Text} {outcomes : List (Int × Outcome)}
    (h : r.outcomes settings text = .ok outcomes) {s : Statement}
    (hs : s ∈ outcomes.filterMap fun (_, outcome) => outcome.statement?) : s.Ordered := by
  obtain ⟨⟨number, outcome⟩, hmem, hstatement⟩ := List.mem_filterMap.mp hs
  obtain ⟨⟨number', line⟩, -, hline⟩ := exists_of_mem_of_forall₂ (forall₂_of_mapM_ok h) hmem
  obtain ⟨outcome', hclassify, heq⟩ := exists_of_bind_ok hline
  cases heq
  exact ordered_of_classify hclassify s hstatement

end Reader

end SnippetTree
