import Mathlib.Data.List.Infix
import SnippetTree.Proofs.Cuts

/-!
# The first group of a text

The content of the first group is taken out by a scan that counts the groups it is in. What it takes
out is described here by counts of parentheses alone. The content begins after the first opening
parenthesis; at no place in it have more groups been closed than opened (`Within`); and it stops
before the closing parenthesis that would be one too many, or at the end of the text if there is
none (`FirstGroup`).

Two facts about the scan lead there. What stays within the open groups is passed over, and moves the
count by what it opens and closes (`Within.untilClosed`). And what is passed over does stay within
them, up to a closing parenthesis that would not, or up to the end (`scansTo_untilClosed`). It
follows that the two ways to say that a text closes what it opens are the same: that the scan does
not stop in it (`Closed`), and that its counts agree (`Balanced`).
-/

namespace SnippetTree.Text

/-! ## Balanced parentheses -/

/-- At no place in the text have more groups been closed than were opened in it and `opened` groups
before it. -/
def Within (opened : Nat) (x : Text) : Prop :=
  ∀ y, y <+: x → y.count ')' ≤ y.count '(' + opened

/-- As many groups are closed in the text as are opened, and at no place in it more. -/
structure Balanced (x : Text) : Prop where
  within : Within 0 x
  count_eq : x.count '(' = x.count ')'

instance (opened : Nat) (x : Text) : Decidable (Within opened x) :=
  decidable_of_iff (∀ y ∈ x.inits, y.count ')' ≤ y.count '(' + opened) (by simp [Within])

instance (x : Text) : Decidable (Balanced x) :=
  decidable_of_iff (Within 0 x ∧ x.count '(' = x.count ')')
    ⟨fun h => ⟨h.1, h.2⟩, fun h => ⟨h.within, h.count_eq⟩⟩

/-- The opening parenthesis that stands after `before` has a matching one: a closing parenthesis
with balanced text between the two. -/
def Matched (text before : Text) : Prop :=
  ∃ x y, text = before ++ '(' :: (x ++ ')' :: y) ∧ Balanced x

/-- The text is `before`, its first opening parenthesis, the content `inside` of the group that it
opens, and `after`. That begins with the matching parenthesis; if there is none, the content reaches
to the end of the text. -/
structure FirstGroup (text before inside after : Text) : Prop where
  eq : text = before ++ '(' :: (inside ++ after)
  first : '(' ∉ before
  within : Within 0 inside
  stops : (inside.count '(' = inside.count ')' ∧ after.head? = some ')') ∨
    (after = [] ∧ ¬ Matched text before)

variable {c : Char} {opened left : Nat} {text before inside after rest x y : Text}

/-! ## Within the open groups -/

theorem within_nil : Within opened [] := by
  intro y hy
  rw [List.prefix_nil.mp hy]
  exact Nat.zero_le _

/-- The prefixes that count are those that hold the first character. -/
theorem within_cons :
    Within opened (c :: x) ↔
      ∀ y, y <+: x → (c :: y).count ')' ≤ (c :: y).count '(' + opened := by
  constructor
  · intro h y hy
    exact h (c :: y) ((List.prefix_cons_inj c).mpr hy)
  · intro h y hy
    rcases List.prefix_cons_iff.mp hy with rfl | ⟨z, rfl, hz⟩
    · exact Nat.zero_le _
    · exact h z hz

theorem within_opener : Within opened ('(' :: x) ↔ Within (opened + 1) x := by
  rw [within_cons]
  refine forall₂_congr fun y _ => ?_
  rw [List.count_cons_of_ne (by decide), List.count_cons_self]
  omega

theorem within_closer : Within (opened + 1) (')' :: x) ↔ Within opened x := by
  rw [within_cons]
  refine forall₂_congr fun y _ => ?_
  rw [List.count_cons_self, List.count_cons_of_ne (by decide)]
  omega

theorem not_within_closer : ¬ Within 0 (')' :: x) := by
  intro h
  have hone := h [')'] ⟨x, rfl⟩
  exact absurd hone (by decide)

theorem within_other (hopener : c ≠ '(') (hcloser : c ≠ ')') :
    Within opened (c :: x) ↔ Within opened x := by
  rw [within_cons]
  refine forall₂_congr fun y _ => ?_
  rw [List.count_cons_of_ne hcloser, List.count_cons_of_ne hopener]

theorem Within.mono (h : Within opened x) (hle : opened ≤ left) : Within left x :=
  fun y hy => (h y hy).trans (Nat.add_le_add_left hle _)

/-- A closing parenthesis after balanced text is one too many. -/
theorem Balanced.not_within (h : Balanced x) : ¬ Within 0 (x ++ ')' :: y) := by
  intro hwithin
  have hprefix : x ++ [')'] <+: x ++ ')' :: y := ⟨y, by simp⟩
  have hle := hwithin _ hprefix
  rw [List.count_append, List.count_append, h.count_eq] at hle
  have hcloser : [')'].count ')' = 1 := rfl
  have hopener : [')'].count '(' = 0 := rfl
  omega

/-! ## The scan -/

/-- **What stays within the open groups is passed over**, and leaves open what it does not close. -/
theorem Within.untilClosed (h : Within opened x)
    (hcount : x.count '(' + opened = x.count ')' + left) (rest : Text) :
    untilClosed opened (x ++ rest) = x ++ untilClosed left rest := by
  -- each parenthesis moves the count, while the one that is left in the end stays the same
  induction x generalizing opened with
  | nil =>
      have hsame : opened = left := by simpa using hcount
      rw [hsame, List.nil_append, List.nil_append]
  | cons c x ih =>
      rw [List.cons_append, List.cons_append]
      by_cases hopener : c = '('
      · subst hopener
        rw [List.count_cons_self, List.count_cons_of_ne (by decide)] at hcount
        rw [untilClosed_opener, ih (within_opener.mp h) (by omega)]
      · by_cases hcloser : c = ')'
        · subst hcloser
          cases opened with
          | zero => exact absurd h not_within_closer
          | succ opened =>
              rw [List.count_cons_self, List.count_cons_of_ne (by decide)] at hcount
              rw [untilClosed_closer, ih (within_closer.mp h) (by omega)]
        · rw [List.count_cons_of_ne hopener, List.count_cons_of_ne hcloser] at hcount
          rw [untilClosed_other hopener hcloser, ih ((within_other hopener hcloser).mp h) hcount]

/-- With `opened` groups open inside the first one, the text is `inside`, the rest of what the first
group holds, and `after`, which begins with the parenthesis that closes the first group or is
empty. -/
structure ScansTo (opened : Nat) (text inside after : Text) : Prop where
  eq : text = inside ++ after
  within : Within opened inside
  stops : (inside.count '(' + opened = inside.count ')' ∧ after.head? = some ')') ∨ after = []

namespace ScansTo

theorem opener (h : ScansTo (opened + 1) text inside after) :
    ScansTo opened ('(' :: text) ('(' :: inside) after where
  eq := by rw [h.eq, List.cons_append]
  within := within_opener.mpr h.within
  stops := by
    rw [List.count_cons_self, List.count_cons_of_ne (by decide)]
    exact h.stops.imp_left fun hstop => ⟨by omega, hstop.2⟩

theorem closer (h : ScansTo opened text inside after) :
    ScansTo (opened + 1) (')' :: text) (')' :: inside) after where
  eq := by rw [h.eq, List.cons_append]
  within := within_closer.mpr h.within
  stops := by
    rw [List.count_cons_self, List.count_cons_of_ne (by decide)]
    exact h.stops.imp_left fun hstop => ⟨by omega, hstop.2⟩

theorem other (hopener : c ≠ '(') (hcloser : c ≠ ')') (h : ScansTo opened text inside after) :
    ScansTo opened (c :: text) (c :: inside) after where
  eq := by rw [h.eq, List.cons_append]
  within := (within_other hopener hcloser).mpr h.within
  stops := by
    rw [List.count_cons_of_ne hopener, List.count_cons_of_ne hcloser]
    exact h.stops

/-- Of a text that is cut at the end of the first group, the scan takes the part before the cut. -/
theorem untilClosed_eq (h : ScansTo opened text inside after) :
    untilClosed opened text = inside := by
  rw [h.eq]
  rcases h.stops with ⟨hcount, hhead⟩ | rfl
  · obtain ⟨tail, rfl⟩ := List.head?_eq_some_iff.mp hhead
    have hnone : inside.count '(' + opened = inside.count ')' + 0 := hcount
    have hend : untilClosed 0 (')' :: tail) = [] := rfl
    rw [h.within.untilClosed hnone, hend, List.append_nil]
  · -- at the end of the text it does not matter how many groups are left open
    obtain ⟨left, hcount⟩ := Nat.exists_eq_add_of_le (h.within inside (List.prefix_refl inside))
    have hend : untilClosed left [] = [] := rfl
    rw [h.within.untilClosed hcount, hend, List.append_nil]

end ScansTo

/-- **The scan reads up to the end of the first group.** -/
theorem scansTo_untilClosed (opened : Nat) (text : Text) :
    ∃ after, ScansTo opened text (untilClosed opened text) after := by
  induction text generalizing opened with
  | nil => exact ⟨[], rfl, within_nil, .inr rfl⟩
  | cons c text ih =>
      by_cases hopener : c = '('
      · subst hopener
        obtain ⟨after, h⟩ := ih (opened + 1)
        rw [untilClosed_opener]
        exact ⟨after, h.opener⟩
      · by_cases hcloser : c = ')'
        · subst hcloser
          cases opened with
          | zero => exact ⟨')' :: text, rfl, within_nil, .inl ⟨rfl, rfl⟩⟩
          | succ opened =>
              obtain ⟨after, h⟩ := ih opened
              rw [untilClosed_closer]
              exact ⟨after, h.closer⟩
        · obtain ⟨after, h⟩ := ih opened
          rw [untilClosed_other hopener hcloser]
          exact ⟨after, h.other hopener hcloser⟩

/-- **The scan does not stop in a text exactly if its parentheses are balanced.** -/
theorem closed_iff_balanced : Closed x ↔ Balanced x := by
  constructor
  · intro h
    have hx : untilClosed 0 (x ++ [')']) = x := by
      rw [h]
      exact List.append_nil x
    obtain ⟨after, hscan⟩ := scansTo_untilClosed 0 (x ++ [')'])
    rw [hx] at hscan
    refine ⟨hscan.within, ?_⟩
    obtain rfl : [')'] = after := List.append_cancel_left hscan.eq
    rcases hscan.stops with ⟨hcount, -⟩ | hnone
    · exact hcount
    · cases hnone
  · intro h opened rest
    have hcount : x.count '(' + opened = x.count ')' + opened := by rw [h.count_eq]
    exact (h.within.mono (Nat.zero_le opened)).untilClosed hcount rest

/-! ## The first group -/

theorem parenthesized?_eq_none_iff : parenthesized? text = none ↔ '(' ∉ text := by
  rw [parenthesized?, Option.map_eq_none_iff, cutAt?_eq_none_iff]

theorem ScansTo.firstGroup (h : ScansTo 0 rest inside after) (hfirst : '(' ∉ before) :
    FirstGroup (before ++ '(' :: rest) before inside after where
  eq := by rw [h.eq]
  first := hfirst
  within := h.within
  stops := by
    refine h.stops.imp_right ?_
    rintro rfl
    refine ⟨rfl, ?_⟩
    rintro ⟨x, y, htext, hx⟩
    have hrest : rest = x ++ ')' :: y := (List.cons.inj (List.append_cancel_left htext)).2
    rw [h.eq, List.append_nil] at hrest
    exact hx.not_within (hrest ▸ h.within)

namespace FirstGroup

theorem cutAt? (h : FirstGroup text before inside after) :
    cutAt? '(' text = some (before, inside ++ after) := by
  rw [h.eq]
  exact cutAt?_append h.first _

theorem parenthesized? (h : FirstGroup text before inside after) :
    parenthesized? text = some inside := by
  have hscan : ScansTo 0 (inside ++ after) inside after :=
    ⟨rfl, h.within, h.stops.imp_right And.left⟩
  rw [Text.parenthesized?, h.cutAt?]
  exact congrArg some hscan.untilClosed_eq

/-- A text has one first group at most. -/
theorem unique {before' inside' after' : Text} (h : FirstGroup text before inside after)
    (h' : FirstGroup text before' inside' after') :
    before = before' ∧ inside = inside' ∧ after = after' := by
  have hcut := h.cutAt?.symm.trans h'.cutAt?
  obtain ⟨hbefore, hrest⟩ := Prod.mk.inj (Option.some.inj hcut)
  obtain rfl : inside = inside' :=
    Option.some.inj (h.parenthesized?.symm.trans h'.parenthesized?)
  exact ⟨hbefore, rfl, List.append_cancel_left hrest⟩

end FirstGroup

theorem parenthesized?_eq_some_iff :
    parenthesized? text = some inside ↔ ∃ before after, FirstGroup text before inside after := by
  refine ⟨fun h => ?_, fun ⟨before, after, hgroup⟩ => hgroup.parenthesized?⟩
  have hopener : '(' ∈ text := by
    by_contra hnone
    rw [parenthesized?_eq_none_iff.mpr hnone] at h
    cases h
  obtain ⟨before, rest, rfl, hfirst⟩ := List.eq_append_cons_of_mem hopener
  obtain ⟨after, hscan⟩ := scansTo_untilClosed 0 rest
  have hgroup := hscan.firstGroup hfirst
  obtain rfl : untilClosed 0 rest = inside := Option.some.inj (hgroup.parenthesized?.symm.trans h)
  exact ⟨before, after, hgroup⟩

/-- **The content of the first group is taken out.** There is none exactly if no group is opened.
Otherwise it is the content of the one first group that the text has, up to the matching parenthesis
or up to the end; so balanced text is taken out of the parentheses around it, whatever stands behind
them, and in front of them if no group is opened there. -/
theorem extracts_first_group (text : Text) :
    (parenthesized? text = none ↔ '(' ∉ text) ∧
      (∀ inside, parenthesized? text = some inside ↔
        ∃ before after, FirstGroup text before inside after) ∧
      (∀ before inside after before' inside' after', FirstGroup text before inside after →
        FirstGroup text before' inside' after' →
          before = before' ∧ inside = inside' ∧ after = after') ∧
      ∀ before inside after, text = before ++ '(' :: (inside ++ ')' :: after) → '(' ∉ before →
        Balanced inside → parenthesized? text = some inside := by
  refine ⟨parenthesized?_eq_none_iff, fun _ => parenthesized?_eq_some_iff, ?_, ?_⟩
  · intro _ _ _ _ _ _ h h'
    exact h.unique h'
  · rintro before inside after rfl hfirst hbalanced
    exact parenthesized?_append hfirst (closed_iff_balanced.mpr hbalanced) after

/-- A parenthesis is closed before the first one is opened, and another group is left open behind
the first. -/
theorem extracts_first_group_of_several : '(' ∉ ") a".toList ∧ Balanced "b(c)()".toList ∧
    FirstGroup ") a(b(c)())(d".toList ") a".toList "b(c)()".toList ")(d".toList ∧
      parenthesized? ") a(b(c)())(d".toList = some "b(c)()".toList := by
  have hfirst : '(' ∉ ") a".toList := by decide
  have hbalanced : Balanced "b(c)()".toList := by decide
  have hgroup : FirstGroup ") a(b(c)())(d".toList ") a".toList "b(c)()".toList ")(d".toList :=
    ⟨rfl, hfirst, hbalanced.within, .inl ⟨hbalanced.count_eq, rfl⟩⟩
  refine ⟨hfirst, hbalanced, hgroup, ?_⟩
  exact (extracts_first_group _).2.2.2 ") a".toList "b(c)()".toList "(d".toList rfl hfirst hbalanced

/-- The inner groups are closed, but not the first. -/
example : parenthesized? "if (a(b)(c)".toList = some "a(b)(c)".toList := by decide

end SnippetTree.Text
