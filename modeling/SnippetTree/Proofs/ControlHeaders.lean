import SnippetTree.Proofs.Clauses
import SnippetTree.Proofs.NoFault

/-!
# Lines that open with a control word

The rules for headers stand third to fifth in the table, after two that look at the whole line and
are easily satisfied. What keeps those two off a header is its first word alone: both of them look
it up, folded to lower case, the one among the types and the other among the control words. The
headers are recognised in another way, by an exact word that no character of any script goes on
with.

The two ways agree. `Rule.Opens` says how a header begins, in terms of its characters; a line that
begins so leads with a control word (`Opens.leads`), which is no type. So whatever follows, none of
the first two rules accepts it, and of the three rules for headers only one does.
-/

namespace SnippetTree

open SnippetTree.Text

/-! ## Keywords at the beginning of a line -/

namespace Text

variable {text rest : Text}

/-- No name goes on where no word does. -/
theorem not_isNameChar_of_atWordEnd (h : atWordEnd rest = true) :
    ∀ c ∈ rest.head?, isNameChar c = false := by
  intro c hc
  obtain ⟨tail, rfl⟩ := List.head?_eq_some_iff.mp hc
  rw [Bool.eq_false_iff]
  intro hname
  rw [atWordEnd, isWordChar_of_isNameChar hname] at h
  cases h

theorem isSome_conditionHeader?_iff :
    (conditionHeader? text).isSome = true ↔
      (afterKeyword? "if" text).isSome = true ∨ (afterKeyword? "while" text).isSome = true ∨
        (afterKeyword? "elif" text).isSome = true ∨ (afterElseIf? text).isSome = true := by
  simp only [conditionHeader?, Option.isSome_or, Option.isSome_map, Bool.or_eq_true]

end Text

/-! ## How headers begin -/

namespace Rule

/-- The single words that open a header, and the rule that each belongs to. -/
def openers : List (Lexeme × Rule) :=
  [("if", .condition), ("while", .condition), ("elif", .condition), ("for", .forHeader),
   ("return", .returning)]

/-- A text begins like a header of the rule: with its word, or with `else`, white space and `if`,
where no word character of any script follows. -/
inductive Opens : Text → Rule → Prop where
  | word {word : Lexeme} {rule : Rule} {rest : Text} :
      (word, rule) ∈ openers → atWordEnd rest = true → Opens (word.toList ++ rest) rule
  | elseIf {gap rest : Text} :
      gap ≠ [] → (∀ c ∈ gap, isBlank c = true) → atWordEnd rest = true →
      Opens ("else".toList ++ gap ++ "if".toList ++ rest) .condition

/-- The rules for headers. -/
def headers : List Rule :=
  [.condition, .forHeader, .returning]

variable {spec : Dialect.Spec} {text : Text} {rule other : Rule}

/-- A rule is chosen if it accepts the line and none before it in the table does. -/
theorem choose_eq {rules before after : List Rule} {rule : Rule}
    (hrules : rules = before ++ rule :: after)
    (hbefore : ∀ other ∈ before, other.accepts spec text = false)
    (h : rule.accepts spec text = true) : choose rules spec text = .ok rule := by
  have hfind : rules.find? (fun rule => rule.accepts spec text) = some rule := by
    rw [List.find?_eq_some_iff_append]
    refine ⟨h, before, after, hrules, ?_⟩
    intro other hother
    rw [hbefore other hother]
    rfl
  rw [choose, hfind]
  rfl

/-- **A rule for headers accepts the texts that begin like its headers.** -/
theorem accepts_iff_opens (h : rule ∈ headers) :
    rule.accepts spec text = true ↔ Opens text rule := by
  have hopens : ∀ {word : Lexeme}, (word, rule) ∈ openers →
      (afterKeyword? word text).isSome = true → Opens text rule := by
    intro word hopener hsome
    obtain ⟨rest, hrest⟩ := Option.isSome_iff_exists.mp hsome
    obtain ⟨rfl, hend⟩ := afterKeyword?_eq_some_iff.mp hrest
    exact .word hopener hend
  refine ⟨fun haccepts => ?_, fun hopen => ?_⟩
  · simp only [headers, List.mem_cons, List.not_mem_nil, or_false] at h
    rcases h with rfl | rfl | rfl
    · rcases isSome_conditionHeader?_iff.mp haccepts with hif | hwhile | helif | helse
      · exact hopens (by decide) hif
      · exact hopens (by decide) hwhile
      · exact hopens (by decide) helif
      · obtain ⟨rest, hrest⟩ := Option.isSome_iff_exists.mp helse
        obtain ⟨gap, hne, hgap, rfl, hend⟩ := afterElseIf?_eq_some_iff.mp hrest
        exact .elseIf hne hgap hend
    · exact hopens (by decide) haccepts
    · exact hopens (by decide) haccepts
  · cases hopen with
    | @word word _ rest hopener hend =>
        have hself : (afterKeyword? word (word.toList ++ rest)).isSome = true :=
          Option.isSome_iff_exists.mpr ⟨rest, afterKeyword?_eq_some_iff.mpr ⟨rfl, hend⟩⟩
        simp only [openers, List.mem_cons, List.not_mem_nil, or_false, Prod.mk.injEq] at hopener
        rcases hopener with ⟨rfl, rfl⟩ | ⟨rfl, rfl⟩ | ⟨rfl, rfl⟩ | ⟨rfl, rfl⟩ | ⟨rfl, rfl⟩
        · exact isSome_conditionHeader?_iff.mpr (.inl hself)
        · exact isSome_conditionHeader?_iff.mpr (.inr (.inl hself))
        · exact isSome_conditionHeader?_iff.mpr (.inr (.inr (.inl hself)))
        · exact hself
        · exact hself
    | @elseIf gap rest hne hgap hend =>
        have helse := afterElseIf?_eq_some_iff.mpr ⟨gap, hne, hgap, rfl, hend⟩
        refine isSome_conditionHeader?_iff.mpr (.inr (.inr (.inr ?_)))
        exact Option.isSome_iff_exists.mpr ⟨rest, helse⟩

/-! ## The first word decides -/

/-- The first words of headers, and the rule that each belongs to. -/
def leaders : List (Lexeme × Rule) :=
  ("else", .condition) :: openers

/-- **A header leads with a word of its rule.** -/
theorem Opens.exists_leader (h : Opens text rule) :
    ∃ word, (word, rule) ∈ leaders ∧ leadingWord text = word.toList := by
  have hnames : ∀ leader ∈ leaders, isName leader.1.toList = true ∧
      lower leader.1.toList = leader.1.toList := by decide +kernel
  -- the word ends where it does, so nothing of what follows is taken for a part of it
  have hleads : ∀ {word : Lexeme} {rest : Text}, (word, rule) ∈ leaders →
      (∀ c ∈ rest.head?, isNameChar c = false) →
      leadingWord (word.toList ++ rest) = word.toList := by
    intro word rest hword hrest
    obtain ⟨hname, hlower⟩ := hnames _ hword
    rw [leadingWord_append (ne_nil_of_isName hname) (solid_of_isName hname).first hrest,
      leadingWord_of_isName hname]
    exact hlower
  cases h with
  | word hopener hend =>
      have hleader : (_, rule) ∈ leaders := List.mem_cons_of_mem _ hopener
      exact ⟨_, hleader, hleads hleader (not_isNameChar_of_atWordEnd hend)⟩
  | @elseIf gap rest hne hgap hend =>
      have hleader : ("else", Rule.condition) ∈ leaders := by decide
      refine ⟨_, hleader, ?_⟩
      rw [List.append_assoc, List.append_assoc]
      refine hleads hleader fun c hc => ?_
      rw [List.head?_append_of_ne_nil _ hne] at hc
      have hblank := hgap c (List.mem_of_head? hc)
      rw [Bool.eq_false_iff]
      intro hname
      rw [not_isBlank_of_isNameChar hname] at hblank
      cases hblank

/-- A text begins like the headers of one rule at most. -/
theorem Opens.unique (h : Opens text rule) (h' : Opens text other) : other = rule := by
  have hfunctional : ∀ x ∈ leaders, ∀ y ∈ leaders, x.1 = y.1 → x.2 = y.2 := by decide
  obtain ⟨word, hword, hleads⟩ := h.exists_leader
  obtain ⟨word', hword', hleads'⟩ := h'.exists_leader
  exact hfunctional _ hword' _ hword (String.toList_injective (hleads'.symm.trans hleads))

/-- A header leads with a control word, and with no type. -/
theorem Opens.leads (h : Opens text rule) : leadsWith controlKeywords text = true ∧
    ∀ dialect : Dialect, leadsWith dialect.spec.typeKeywords text = false := by
  have hcontrol : ∀ leader ∈ leaders, leader.1 ∈ controlKeywords := by decide
  have htype : ∀ dialect : Dialect, ∀ leader ∈ leaders,
      leader.1 ∉ dialect.spec.typeKeywords := by
    intro dialect
    cases dialect <;> decide
  obtain ⟨word, hword, hleads⟩ := h.exists_leader
  have hleadsWith : ∀ keywords : List Lexeme,
      leadsWith keywords text = keywords.contains word := by
    intro keywords
    rw [leadsWith, hleads, String.ofList_toList]
  refine ⟨?_, fun dialect => ?_⟩
  · rw [hleadsWith]
    exact List.contains_iff_mem.mpr (hcontrol _ hword)
  · rw [hleadsWith, Bool.eq_false_iff]
    exact fun hmem => htype dialect _ hword (List.contains_iff_mem.mp hmem)

/-- A header declares nothing, and is no head of a function, whatever follows its first word. -/
theorem Opens.rejects (h : Opens text rule) (dialect : Dialect) :
    ∀ other ∈ [Rule.variableDeclaration, .functionDeclaration],
      other.accepts dialect.spec text = false := by
  rw [List.forall_mem_cons, List.forall_mem_singleton]
  refine ⟨?_, ?_⟩
  · rw [accepts, Declaration.isDeclaration, h.leads.2 dialect, Bool.false_and, Bool.false_and]
  · rw [accepts, FunctionHead.isHead, h.leads.1]
    simp only [Bool.not_true, Bool.and_false, Bool.false_and]

/-- A line that leads with no control word is no header. -/
theorem rejects_headers (h : leadsWith controlKeywords text = false) :
    ∀ other ∈ headers, other.accepts spec text = false := by
  intro other hother
  rw [Bool.eq_false_iff]
  intro haccepts
  have hleads := ((accepts_iff_opens hother).mp haccepts).leads.1
  rw [h] at hleads
  cases hleads

/-- Of the rules for headers only one accepts a header. -/
theorem Opens.rejects_header (h : Opens text rule) (hother : other ∈ headers) (hne : other ≠ rule) :
    other.accepts spec text = false := by
  rw [Bool.eq_false_iff]
  intro haccepts
  exact hne (h.unique ((accepts_iff_opens hother).mp haccepts))

theorem Opens.mem_headers (h : Opens text rule) : rule ∈ headers := by
  have hopeners : ∀ opener ∈ openers, opener.2 ∈ headers := by decide
  cases h with
  | word hopener _ => exact hopeners _ hopener
  | elseIf _ _ _ => decide

/-- **A header is taken by its own rule**, whatever follows its first word. -/
theorem Opens.choose (h : Opens text rule) (dialect : Dialect) :
    Rule.choose standard dialect.spec text = .ok rule := by
  have htable : ∀ rule ∈ headers,
      standard = standard.takeWhile (· != rule) ++ rule :: (standard.dropWhile (· != rule)).tail ∧
      ∀ other ∈ standard.takeWhile (· != rule),
        other ∈ [Rule.variableDeclaration, .functionDeclaration] ∨
          other ∈ headers ∧ other ≠ rule := by decide
  obtain ⟨hsplit, hearlier⟩ := htable rule h.mem_headers
  refine choose_eq hsplit (fun other hother => ?_) ((accepts_iff_opens h.mem_headers).mpr h)
  rcases hearlier other hother with hgeneral | ⟨hheader, hne⟩
  · exact h.rejects dialect other hgeneral
  · exact h.rejects_header hheader hne

/-- The rule that is chosen from the standard table accepts the line. -/
theorem accepts_of_choose_standard (h : Rule.choose standard spec text = .ok rule) :
    rule.accepts spec text = true := by
  obtain ⟨chosen, hchosen, haccepts⟩ := choose_standard spec text
  obtain rfl : chosen = rule := Except.ok.inj (hchosen.symm.trans h)
  exact haccepts

/-- **Headers keep their own rule, and it takes nothing else.** In every dialect the rules for
conditions, loops and returned values are chosen for the lines that begin like their headers,
whatever follows, and for no others. -/
theorem choose_header_iff_opens (dialect : Dialect) (text : Text) (rule : Rule) :
    (Rule.choose standard dialect.spec text = .ok rule ∧ rule ∈ headers) ↔ Opens text rule := by
  refine ⟨fun ⟨hchoose, hheader⟩ => ?_, fun hopen => ⟨hopen.choose dialect, hopen.mem_headers⟩⟩
  exact (accepts_iff_opens hheader).mp (accepts_of_choose_standard hchoose)

/-- The two words stand apart by a no-break space, and what follows them looks like a declaration
and like the head of a function. -/
example : choose standard Dialect.java.spec "else\u00a0if(int f(x) = \x7b".toList =
    .ok .condition := rfl

end Rule

end SnippetTree
