import SnippetTree.Proofs.Outline
import SnippetTree.Proofs.Traversals
import Mathlib.Data.List.Forall2

/-!
# Equal trees

Two trees are compared pair by pair, the last children first, and a pair that is found to be one and
the same is not looked into. Whatever is found to be the same, the answer is whether the trees agree
everywhere (`Tree.same_iff_agrees`).

The stack alone says what the answer will be: it is yes exactly if the trees of every pair on it are
equal (`sameAll_iff`). For a pair that is taken apart this needs the numbers of children, since
children without a partner are not put on the stack.
-/

namespace SnippetTree

namespace Rose

variable {α : Type}

/-- Trees are equal if their roots are, and if they have as many children, which are equal in pairs. -/
theorem eq_iff_zip (t u : Rose α) : t = u ↔
    (t.value = u.value ∧ t.children.length = u.children.length) ∧
      ∀ pair ∈ t.children.zip u.children, pair.1 = pair.2 := by
  have hchildren : t.children = u.children ↔ t.children.length = u.children.length ∧
      ∀ pair ∈ t.children.zip u.children, pair.1 = pair.2 := by
    rw [← List.forall₂_eq_eq_eq, List.forall₂_iff_zip]
    exact and_congr_right fun _ => ⟨fun h pair hpair => h hpair, fun h => h _⟩
  obtain ⟨v, xs⟩ := t
  obtain ⟨w, ys⟩ := u
  rw [node.injEq, and_assoc, ← hchildren]
  rfl

variable [DecidableEq α]

/-- **What is on the stack decides the answer.** -/
theorem sameAll_iff (identity : Identity α) (comparison : Nat) (stack : List (Rose α × Rose α)) :
    sameAll identity comparison stack = true ↔ ∀ pair ∈ stack, pair.1 = pair.2 := by
  induction comparison, stack using sameAll.induct identity with
  | case1 comparison => simp [sameAll]
  | case2 comparison t u stack hsame ih =>
      rw [sameAll, if_pos hsame, ih, List.forall_mem_cons]
      exact (and_iff_right (identity.eq_of_is comparison t u hsame)).symm
  | case3 comparison t u stack hsame hroots ih =>
      rw [sameAll, if_neg hsame, if_pos hroots, ih, pushAll_eq, List.forall_mem_append,
        List.forall_mem_cons, eq_iff_zip t u, and_iff_right hroots]
      simp only [List.mem_reverse]
  | case4 comparison t u stack hsame hroots =>
      rw [sameAll, if_neg hsame, if_neg hroots, List.forall_mem_cons, eq_iff_zip t u]
      simp [hroots]

theorem sameBy_iff (identity : Identity α) (t u : Rose α) : t.sameBy identity u = true ↔ t = u := by
  rw [sameBy, sameAll_iff, List.forall_mem_singleton]

end Rose

/-- The plain data of a node tell all that is known of it. -/
theorem Label.fields_injective {label label' : Label} (h : label.fields = label'.fields) :
    label = label' := by
  obtain ⟨hid, hkind, hlexeme, hcategory, hsynthetic⟩ := Fields.mk.inj h
  exact Label.ext hid (Kind.label_injective hkind) hlexeme (Category.label_injective hcategory)
    hsynthetic

namespace Tree

/-- Two trees agree: in all that is known of their roots, in the number of children, and in the
children, the first with the first and so on. -/
inductive Agrees : Tree → Tree → Prop where
  | node {label label' : Label} {children children' : List Tree} :
      label.id = label'.id → label.kind = label'.kind → label.lexeme = label'.lexeme →
      label.category = label'.category → label.synthetic = label'.synthetic →
      children.length = children'.length →
      (∀ (i : Nat) (t t' : Tree), children[i]? = some t → children'[i]? = some t' → Agrees t t') →
      Agrees (.node label children) (.node label' children')

theorem Agrees.eq {t u : Tree} (h : Agrees t u) : t = u := by
  induction h with
  | @node label label' children children' hid hkind hlexeme hcategory hsynthetic hlength _ ih =>
      have hlabel : label = label' := Label.ext hid hkind hlexeme hcategory hsynthetic
      have hchildren : children = children' := by
        refine List.ext_getElem hlength fun i hi hi' => ?_
        exact ih i _ _ (List.getElem?_eq_getElem hi) (List.getElem?_eq_getElem hi')
      rw [hlabel, hchildren]

theorem Agrees.refl (t : Tree) : Agrees t t := by
  induction t using Rose.induct with
  | node label children ih =>
      refine .node rfl rfl rfl rfl rfl rfl fun i t t' ht ht' => ?_
      cases ht.symm.trans ht'
      exact ih t (List.mem_of_getElem? ht)

theorem agrees_iff_eq {t u : Tree} : Agrees t u ↔ t = u :=
  ⟨Agrees.eq, fun h => h ▸ Agrees.refl t⟩

/-- The plain data of a tree tell all that is known of it. -/
theorem record_injective {t u : Tree} (h : t.record = u.record) : t = u := by
  have hentry : Function.Injective fun entry : Nat × Label => (entry.1, entry.2.fields) := by
    rintro ⟨depth, label⟩ ⟨depth', label'⟩ h
    obtain ⟨hdepth, hfields⟩ := Prod.mk.inj h
    exact Prod.ext hdepth (Label.fields_injective hfields)
  have hlistings := congrArg (Rose.listing 0) h
  rw [record, record, Rose.mapWith_eq_map, Rose.mapWith_eq_map, Rose.listing_map,
    Rose.listing_map] at hlistings
  exact Rose.listing_injective (hentry.list_map hlistings)

/-- **Comparing pair by pair is comparing everywhere.** Whichever trees are found to be one and the
same, the answer is that two trees agree or that they do not. It is an equivalence; trees that are
equal have one key and the same plain data; and trees with the same plain data are equal. -/
theorem same_iff_agrees (identity : Rose.Identity Label) :
    (∀ t u : Tree, t.sameBy identity u = true ↔ Agrees t u) ∧
      Equivalence (fun t u : Tree => t.sameBy identity u = true) ∧
        (∀ t u : Tree, t.sameBy identity u = true → t.lookupKey = u.lookupKey) ∧
          ∀ t u : Tree, t.sameBy identity u = true ↔ t.record = u.record := by
  have heq : ∀ t u : Tree, t.sameBy identity u = true ↔ t = u := Rose.sameBy_iff identity
  refine ⟨fun t u => (heq t u).trans agrees_iff_eq.symm, ?_, fun t u h => ?_, fun t u => ?_⟩
  · simp only [heq]
    exact eq_equivalence
  · rw [(heq t u).mp h]
  · rw [heq]
    exact ⟨fun h => h ▸ rfl, record_injective⟩

end Tree

end SnippetTree
