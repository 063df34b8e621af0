import Mathlib.Data.List.DropRight
import SnippetTree.Statement.Outcome
import SnippetTree.Proofs.Names

/-!
# Closing braces in front of a statement

A line may begin with the closing braces of the blocks that end there. `Text.normalize` takes them
away in one sweep: white space, then braces, then white space. Whether that is enough is a matter of
the line alone: the braces have to stand together (`Text.ClosersTogether`). If they do, what is
left begins with neither, and further white space and braces in front make no difference to the
rule that claims the line. If they do not, a brace stays in front of the statement.

What holds of every line is that a sweep drops nothing but white space and closing braces. So the
text without *all* of those in front is the same before and after (`Text.dropWhile_normalize`),
and two lines are compared by it.
-/

namespace SnippetTree

namespace Text

/-- What may stand in front of a statement: white space and closing braces. -/
def isLeading (c : Char) : Bool :=
  isBlank c || c == '\x7d'

/-- The text holds no statement, or a statement begins where the text begins. -/
def IsCleared (text : Text) : Prop :=
  text.all isStructural = true ∨ ∀ c ∈ text.head?, isLeading c = false

instance (text : Text) : Decidable (IsCleared text) :=
  decidable_of_iff (text.all isStructural = true ∨ (text.head?.all fun c => !isLeading c) = true)
    (by simp [IsCleared, Option.all_eq_true])

/-- The closing braces in front of the line stand together: there may be white space before and
after them, but none between them. -/
def ClosersTogether (line : Text) : Prop :=
  ∃ before closers between rest,
    line = before ++ (closers ++ (between ++ rest)) ∧ (∀ c ∈ before, isBlank c = true) ∧
      (∀ c ∈ closers, c = '\x7d') ∧ (∀ c ∈ between, isBlank c = true) ∧ IsCleared (trimEnd rest)

theorem isLeading_of_isBlank {c : Char} (h : isBlank c = true) : isLeading c = true := by
  rw [isLeading, h, Bool.true_or]

theorem isLeading_of_beq {c : Char} (h : (c == '\x7d') = true) : isLeading c = true := by
  rw [isLeading, h, Bool.or_true]

/-! ## Dropping from both ends -/

theorem dropWhile_of_head {p : Char → Bool} {text : Text} (h : ∀ c ∈ text.head?, p c = false) :
    text.dropWhile p = text := by
  cases text with
  | nil => rfl
  | cons c rest => exact List.dropWhile_cons_of_neg (Bool.eq_false_iff.mp (h c rfl))

/-- What is dropped in front and what is dropped at the end do not meddle with each other. -/
theorem dropWhile_dropEndWhile (p q : Char → Bool) (text : Text) :
    (dropEndWhile q text).dropWhile p = dropEndWhile q (text.dropWhile p) := by
  induction text using List.reverseRecOn with
  | nil => rfl
  | append_singleton rest d ih =>
      by_cases hd : q d = true
      · have hsingle : ∀ c ∈ [d], q c = true := List.forall_mem_singleton.mpr hd
        rw [dropEndWhile_append hsingle, ih, List.dropWhile_append]
        by_cases hrest : (rest.dropWhile p).isEmpty = true
        · -- nothing of `rest` is left, and `d` goes at one end or at the other
          rw [if_pos hrest, List.isEmpty_iff.mp hrest]
          by_cases hp : p d = true
          · rw [List.dropWhile_cons_of_pos hp]
            rfl
          · rw [List.dropWhile_cons_of_neg hp]
            exact (dropEndWhile_append hsingle []).symm
        · rw [if_neg hrest, dropEndWhile_append hsingle]
      · have hlast : ∀ c ∈ (rest ++ [d]).getLast?, q c = false := by
          intro c hc
          rw [List.getLast?_concat] at hc
          rw [← Option.some.inj hc]
          exact Bool.eq_false_iff.mpr hd
        have hlastOf : ∀ c ∈ ((rest ++ [d]).dropWhile p).getLast?, q c = false := by
          intro c hc
          obtain ⟨dropped, hsuffix⟩ := List.dropWhile_suffix (l := rest ++ [d]) p
          refine hlast c ?_
          rw [← hsuffix, List.getLast?_append, Option.mem_def.mp hc]
          rfl
        rw [dropEndWhile_of_last hlast, dropEndWhile_of_last hlastOf]

theorem dropEndWhile_dropEndWhile (q : Char → Bool) (text : Text) :
    dropEndWhile q (dropEndWhile q text) = dropEndWhile q text :=
  List.rdropWhile_idempotent q text

theorem trim_eq_trimStart (text : Text) : trim text = trimStart (trimEnd text) :=
  (dropWhile_dropEndWhile isBlank isBlank text).symm

theorem trim_trim (text : Text) : trim (trim text) = trim text := by
  have hend : trimEnd (trim text) = trim text := dropEndWhile_dropEndWhile isBlank (trimStart text)
  rw [trim_eq_trimStart (trim text), hend, trim_eq_trimStart text, trimStart, trimStart,
    List.dropWhile_idempotent]

/-! ## What is uncovered in front -/

/-- The second text is the first one without some of the white space and closing braces that it
begins with. -/
def Uncovers (x y : Text) : Prop :=
  ∃ dropped, x = dropped ++ y ∧ ∀ c ∈ dropped, isLeading c = true

namespace Uncovers

variable {x y z : Text}

theorem trans (hxy : Uncovers x y) (hyz : Uncovers y z) : Uncovers x z := by
  obtain ⟨first, rfl, hfirst⟩ := hxy
  obtain ⟨second, rfl, hsecond⟩ := hyz
  exact ⟨first ++ second, (List.append_assoc first second z).symm,
    List.forall_mem_append.mpr ⟨hfirst, hsecond⟩⟩

theorem dropWhile {p : Char → Bool} (hp : ∀ c, p c = true → isLeading c = true) (x : Text) :
    Uncovers x (x.dropWhile p) := by
  refine ⟨x.takeWhile p, List.takeWhile_append_dropWhile.symm, ?_⟩
  intro c hc
  exact hp c (List.mem_takeWhile_imp hc)

theorem trimStart (x : Text) : Uncovers x (Text.trimStart x) :=
  dropWhile (fun _ => isLeading_of_isBlank) x

theorem dropClosers (x : Text) : Uncovers x (x.dropWhile (· == '\x7d')) :=
  dropWhile (fun _ => isLeading_of_beq) x

/-- The text without all that may stand in front stays the same. -/
theorem dropWhile_eq (h : Uncovers x y) : x.dropWhile isLeading = y.dropWhile isLeading := by
  obtain ⟨dropped, rfl, hdropped⟩ := h
  exact List.dropWhile_append_of_pos hdropped

end Uncovers

/-- A text of which something is left at its end keeps its first character. -/
theorem dropEndWhile_cons_of_ne_nil {q : Char → Bool} {rest : Text} (h : dropEndWhile q rest ≠ [])
    (c : Char) : dropEndWhile q (c :: rest) = c :: dropEndWhile q rest := by
  have hrest : ¬ (rest.reverse.dropWhile q).isEmpty = true := by
    intro hempty
    refine h ?_
    rw [dropEndWhile, List.isEmpty_iff.mp hempty]
    rfl
  rw [dropEndWhile, List.reverse_cons, List.dropWhile_append, if_neg hrest, List.reverse_concat,
    dropEndWhile]

namespace IsCleared

variable {c : Char} {x y rest : Text}

theorem of_cons (hc : isLeading c = true) (h : IsCleared (trimEnd (c :: rest))) :
    IsCleared (trimEnd rest) := by
  by_cases hrest : trimEnd rest = []
  · rw [hrest]
    exact .inl rfl
  · have hcons : trimEnd (c :: rest) = c :: trimEnd rest := dropEndWhile_cons_of_ne_nil hrest c
    rw [hcons] at h
    rcases h with hall | hhead
    · rw [List.all_cons, Bool.and_eq_true] at hall
      exact .inl hall.2
    · exact absurd hc (Bool.eq_false_iff.mp (hhead c rfl))

/-- A cleared text stays so when more of what may stand in front is taken away. -/
theorem of_uncovers (hxy : Uncovers x y) (h : IsCleared (trimEnd x)) : IsCleared (trimEnd y) := by
  obtain ⟨dropped, rfl, hdropped⟩ := hxy
  induction dropped with
  | nil => exact h
  | cons c dropped ih =>
      rw [List.forall_mem_cons] at hdropped
      exact ih hdropped.2 (h.of_cons hdropped.1)

/-- Two cleared texts that differ only in what may stand in front are the same, or hold no
statement. -/
theorem eq_or (hx : IsCleared x) (hy : IsCleared y)
    (heq : x.dropWhile isLeading = y.dropWhile isLeading) :
    x = y ∨ x.all isStructural = true ∧ y.all isStructural = true := by
  have hpart : ∀ {z : Text}, z.all isStructural = true →
      (z.dropWhile isLeading).all isStructural = true := by
    intro z hz
    rw [List.all_eq_true] at hz ⊢
    exact fun c hc => hz c ((List.dropWhile_sublist isLeading).subset hc)
  rcases hx with hx | hx
  · rcases hy with hy | hy
    · exact .inr ⟨hx, hy⟩
    · refine .inr ⟨hx, ?_⟩
      rw [← dropWhile_of_head hy, ← heq]
      exact hpart hx
  · rcases hy with hy | hy
    · refine .inr ⟨?_, hy⟩
      rw [← dropWhile_of_head hx, heq]
      exact hpart hy
    · rw [dropWhile_of_head hx, dropWhile_of_head hy] at heq
      exact .inl heq

end IsCleared

/-! ## One sweep -/

/-- What a line becomes without white space, closing braces and white space in front. -/
def sweep (line : Text) : Text :=
  trimStart ((trimStart line).dropWhile (· == '\x7d'))

theorem uncovers_sweep (line : Text) : Uncovers line (sweep line) :=
  ((Uncovers.trimStart line).trans (Uncovers.dropClosers _)).trans (Uncovers.trimStart _)

theorem trim_dropClosers (line : Text) :
    trim ((trim line).dropWhile (· == '\x7d')) = trimEnd (sweep line) := by
  have hinner : (trim line).dropWhile (· == '\x7d') =
      trimEnd ((trimStart line).dropWhile (· == '\x7d')) := dropWhile_dropEndWhile _ _ _
  rw [hinner, trim_eq_trimStart, trimEnd, trimEnd, dropEndWhile_dropEndWhile]
  exact dropWhile_dropEndWhile isBlank isBlank ((trimStart line).dropWhile (· == '\x7d'))

/-- A line is swept unless it is cleared as it stands. -/
theorem sweeps_iff (line : Text) :
    ((trim line).head? == some '\x7d' && !(trim line).all isStructural) = true ↔
      ¬ IsCleared (trim line) := by
  rw [Bool.and_eq_true, beq_iff_eq, Bool.not_eq_true', IsCleared, not_or, Bool.not_eq_true]
  refine ⟨?_, ?_⟩
  · rintro ⟨hhead, hall⟩
    refine ⟨hall, fun hnone => ?_⟩
    exact Bool.noConfusion (hnone '\x7d' hhead)
  · rintro ⟨hall, hsome⟩
    refine ⟨?_, hall⟩
    by_contra hhead
    refine hsome fun c hc => ?_
    have hblank : isBlank c = false := by
      rw [trim_eq_trimStart, trimStart] at hc
      have hnot := List.head?_dropWhile_not isBlank (trimEnd line)
      rw [Option.mem_def.mp hc] at hnot
      exact hnot
    rw [isLeading, hblank, Bool.false_or, beq_eq_false_iff_ne]
    rintro rfl
    exact hhead hc

theorem normalize_of_isCleared {line : Text} (h : IsCleared (trim line)) :
    normalize line = trim line :=
  if_neg fun hsweep => (sweeps_iff line).mp hsweep h

theorem normalize_of_not_isCleared {line : Text} (h : ¬ IsCleared (trim line)) :
    normalize line = trimEnd (sweep line) :=
  (if_pos ((sweeps_iff line).mpr h)).trans (trim_dropClosers line)

/-- A sweep drops nothing but white space and closing braces. -/
theorem dropWhile_normalize (line : Text) :
    (normalize line).dropWhile isLeading = trimEnd (line.dropWhile isLeading) := by
  by_cases h : IsCleared (trim line)
  · rw [normalize_of_isCleared h, (Uncovers.trimStart line).dropWhile_eq]
    exact dropWhile_dropEndWhile isLeading isBlank (trimStart line)
  · rw [normalize_of_not_isCleared h, (uncovers_sweep line).dropWhile_eq]
    exact dropWhile_dropEndWhile isLeading isBlank (sweep line)

theorem trim_normalize (line : Text) : trim (normalize line) = normalize line := by
  by_cases h : IsCleared (trim line)
  · rw [normalize_of_isCleared h, trim_trim]
  · rw [normalize_of_not_isCleared h, ← trim_dropClosers, trim_trim]

theorem length_trim_le (text : Text) : (trim text).length ≤ text.length :=
  (List.rdropWhile_prefix isBlank _).length_le.trans (List.dropWhile_sublist isBlank).length_le

/-- A second sweep changes nothing exactly if the text was cleared by the first. -/
theorem normalize_normalize_iff (line : Text) :
    normalize (normalize line) = normalize line ↔ IsCleared (normalize line) := by
  have htrim := trim_normalize line
  generalize normalize line = text at htrim
  refine ⟨fun hself => ?_, fun hcleared => ?_⟩
  · by_contra hcleared
    have hnot : ¬ IsCleared (trim text) := by rwa [htrim]
    have hhead : text.head? = some '\x7d' := by
      have hsweep := (sweeps_iff text).mpr hnot
      rw [htrim, Bool.and_eq_true, beq_iff_eq] at hsweep
      exact hsweep.1
    have hswept : trim (text.dropWhile (· == '\x7d')) = text := by
      have hdropped := trim_dropClosers text
      rw [htrim] at hdropped
      rw [hdropped, ← normalize_of_not_isCleared hnot, hself]
    -- the brace in front is dropped, so the text would get shorter
    obtain ⟨more, rfl⟩ := List.head?_eq_some_iff.mp hhead
    rw [List.dropWhile_cons_of_pos rfl] at hswept
    have hshort : ('\x7d' :: more).length ≤ more.length := by
      rw [← hswept]
      exact (length_trim_le _).trans (List.dropWhile_sublist _).length_le
    rw [List.length_cons] at hshort
    omega
  · have hcleared : IsCleared (trim text) := by rwa [htrim]
    rw [normalize_of_isCleared hcleared, htrim]

/-! ## Braces that stand together -/

theorem ClosersTogether.of_cons {c : Char} {line : Text} (hc : isLeading c = true)
    (h : ClosersTogether (c :: line)) : ClosersTogether line := by
  obtain ⟨before, closers, between, rest, hline, hbefore, hclosers, hbetween, hcleared⟩ := h
  -- the character is taken from the first of the four parts that is not empty
  cases before with
  | cons d before =>
      rw [List.forall_mem_cons] at hbefore
      exact ⟨before, closers, between, rest, (List.cons.inj hline).2, hbefore.2, hclosers, hbetween,
        hcleared⟩
  | nil =>
  cases closers with
  | cons d closers =>
      rw [List.forall_mem_cons] at hclosers
      exact ⟨[], closers, between, rest, (List.cons.inj hline).2, hbefore, hclosers.2, hbetween,
        hcleared⟩
  | nil =>
  cases between with
  | cons d between =>
      rw [List.forall_mem_cons] at hbetween
      exact ⟨[], [], between, rest, (List.cons.inj hline).2, hbefore, hclosers, hbetween.2,
        hcleared⟩
  | nil =>
      rw [List.nil_append, List.nil_append, List.nil_append] at hline
      rw [← hline] at hcleared
      exact ⟨[], [], [], line, rfl, hbefore, hclosers, hbetween, hcleared.of_cons hc⟩

/-- What stands in front of a line can only tear its closing braces apart. -/
theorem ClosersTogether.of_append {front line : Text} (hfront : ∀ c ∈ front, isLeading c = true)
    (h : ClosersTogether (front ++ line)) : ClosersTogether line := by
  induction front with
  | nil => exact h
  | cons c front ih =>
      rw [List.forall_mem_cons] at hfront
      exact ih hfront.2 (h.of_cons hfront.1)

/-- A sweep goes at least to the end of the white space behind the first braces. -/
theorem uncovers_sweep_append {before closers between rest : Text}
    (hbefore : ∀ c ∈ before, isBlank c = true) (hclosers : ∀ c ∈ closers, c = '\x7d')
    (hbetween : ∀ c ∈ between, isBlank c = true) :
    Uncovers rest (sweep (before ++ (closers ++ (between ++ rest)))) := by
  rw [sweep, trimStart, trimStart, List.dropWhile_append_of_pos hbefore]
  cases closers with
  | nil =>
      rw [List.nil_append, List.dropWhile_append_of_pos hbetween]
      exact ((Uncovers.trimStart rest).trans (Uncovers.dropClosers _)).trans (Uncovers.trimStart _)
  | cons d closers =>
      have hbraces : ∀ c ∈ d :: closers, (c == '\x7d') = true := by
        intro c hc
        rw [hclosers c hc]
        rfl
      have hd : ¬ isBlank d = true := by
        rw [hclosers d (by simp)]
        decide
      rw [List.cons_append, List.dropWhile_cons_of_neg hd, ← List.cons_append,
        List.dropWhile_append_of_pos hbraces]
      cases between with
      | nil => exact (Uncovers.dropClosers rest).trans (Uncovers.trimStart _)
      | cons b between =>
          have hb : ¬ (b == '\x7d') = true := by
            intro heq
            rw [beq_iff_eq.mp heq] at hbetween
            exact Bool.noConfusion (hbetween '\x7d' (by simp))
          have hstop : (b :: (between ++ rest)).dropWhile (· == '\x7d') = b :: (between ++ rest) :=
            List.dropWhile_cons_of_neg hb
          rw [List.cons_append, hstop, ← List.cons_append, List.dropWhile_append_of_pos hbetween]
          exact Uncovers.trimStart rest

/-- **The line is cleared in one sweep exactly if its closing braces stand together.** -/
theorem isCleared_normalize_iff (line : Text) :
    IsCleared (normalize line) ↔ ClosersTogether line := by
  have hblank : ∀ {text : Text}, ∀ c ∈ text.takeWhile isBlank, isBlank c = true :=
    fun c hc => List.mem_takeWhile_imp hc
  refine ⟨fun hcleared => ?_, fun htogether => ?_⟩
  · by_cases h : IsCleared (trim line)
    · exact ⟨line.takeWhile isBlank, [], [], trimStart line,
        List.takeWhile_append_dropWhile.symm, hblank, by simp, by simp, h⟩
    · rw [normalize_of_not_isCleared h] at hcleared
      refine ⟨line.takeWhile isBlank, (trimStart line).takeWhile (· == '\x7d'),
        ((trimStart line).dropWhile (· == '\x7d')).takeWhile isBlank, sweep line, ?_, hblank, ?_,
        hblank, hcleared⟩
      · rw [sweep, trimStart, trimStart, List.takeWhile_append_dropWhile,
          List.takeWhile_append_dropWhile, List.takeWhile_append_dropWhile]
      · intro c hc
        have hbrace : (c == '\x7d') = true := List.mem_takeWhile_imp (p := (· == '\x7d')) hc
        exact beq_iff_eq.mp hbrace
  · by_cases h : IsCleared (trim line)
    · rw [normalize_of_isCleared h]
      exact h
    · obtain ⟨before, closers, between, rest, rfl, hbefore, hclosers, hbetween, hcleared⟩ :=
        htogether
      rw [normalize_of_not_isCleared h]
      exact hcleared.of_uncovers (uncovers_sweep_append hbefore hclosers hbetween)

end Text

/-! ## The rule that claims a line -/

namespace Outcome

/-- The rule that claims the line, if any is asked. -/
def rule? : Outcome → Option Rule
  | blank | structural => none
  | kept rule _ _ | dropped rule _ _ => some rule

end Outcome

namespace Reader

/-- A line that comes out of the sweep as structure is claimed by no rule. -/
theorem rule?_of_structural {r : Reader} {rules : List Rule} {line : Text}
    (h : (Text.normalize line).all Text.isStructural = true) :
    (r.classify rules line).map Outcome.rule? = .ok none := by
  by_cases hempty : (Text.normalize line).isEmpty = true
  · rw [classify, if_pos hempty]
    rfl
  · rw [classify, if_neg hempty, if_pos h]
    rfl

/-- **What stands in front of a line has no say in the rule that claims it.** -/
theorem closersTogether_iff (line : Text) :
    (line.normalize.IsCleared ↔ line.ClosersTogether) ∧
      (line.normalize.normalize = line.normalize ↔ line.ClosersTogether) ∧
        ∀ front, (∀ c ∈ front, Text.isLeading c = true) → Text.ClosersTogether (front ++ line) →
          ∀ (r : Reader) (rules : List Rule),
            (r.classify rules (front ++ line)).map Outcome.rule? =
              (r.classify rules line).map Outcome.rule? := by
  refine ⟨Text.isCleared_normalize_iff line,
    (Text.normalize_normalize_iff line).trans (Text.isCleared_normalize_iff line), ?_⟩
  intro front hfront htogether r rules
  have hwhole := (Text.isCleared_normalize_iff (front ++ line)).mpr htogether
  have hline := (Text.isCleared_normalize_iff line).mpr (htogether.of_append hfront)
  have hcommon : (Text.normalize (front ++ line)).dropWhile Text.isLeading =
      line.normalize.dropWhile Text.isLeading := by
    rw [Text.dropWhile_normalize, Text.dropWhile_normalize, List.dropWhile_append_of_pos hfront]
  rcases hwhole.eq_or hline hcommon with hsame | ⟨hfirst, hsecond⟩
  · unfold classify
    rw [hsame]
  · rw [rule?_of_structural hfirst, rule?_of_structural hsecond]

/-- White space and a brace before an else-if. -/
theorem closersTogether_elseIf :
    Text.IsCleared (Text.normalize "else if (x) \x7b".toList) ∧
      (∀ c ∈ " \x7d".toList, Text.isLeading c = true) ∧
      Text.ClosersTogether (" \x7d".toList ++ " else if (x) \x7b".toList) ∧
      (classify ⟨Dialect.c.spec, 62⟩ Rule.standard
          (" \x7d".toList ++ " else if (x) \x7b".toList)).map Outcome.rule? =
        (classify ⟨Dialect.c.spec, 62⟩ Rule.standard " else if (x) \x7b".toList).map
          Outcome.rule? := by
  have hfront : ∀ c ∈ " \x7d".toList, Text.isLeading c = true := List.all_eq_true.mp rfl
  have htogether : Text.ClosersTogether (" \x7d".toList ++ " else if (x) \x7b".toList) :=
    ⟨" ".toList, "\x7d".toList, " ".toList, "else if (x) \x7b".toList, rfl,
      List.all_eq_true.mp rfl, by simp, List.all_eq_true.mp rfl, by decide⟩
  exact ⟨by decide, hfront, htogether,
    (closersTogether_iff " else if (x) \x7b".toList).2.2 _ hfront htogether _ _⟩

/-- Where white space stands between two braces, one is left in front of the statement, a second
sweep takes it away, and the header of a condition is taken for the head of a function. -/
theorem not_closersTogether_apart :
    ¬ Text.IsCleared (Text.normalize "\x7d \x7d x".toList) ∧
      Text.normalize (Text.normalize "\x7d \x7d x".toList) ≠ Text.normalize "\x7d \x7d x".toList ∧
      (classify ⟨Dialect.c.spec, 62⟩ Rule.standard "if (x) \x7b".toList).map Outcome.rule? =
        .ok (some .condition) ∧
      (classify ⟨Dialect.c.spec, 62⟩ Rule.standard
          ("\x7d \x7d ".toList ++ "if (x) \x7b".toList)).map Outcome.rule? =
        .ok (some .functionDeclaration) := by
  refine ⟨by decide, by decide, ?_, ?_⟩
  · rfl
  · rfl

end Reader

end SnippetTree
