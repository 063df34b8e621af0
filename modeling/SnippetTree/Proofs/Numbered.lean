import SnippetTree.Tree.Numbering
import SnippetTree.Proofs.Visit

/-!
# Trees that are numbered without gaps

Numbers are given out one after the other, and a tree that was made keeps its numbers for good. What
is true at every moment is therefore a statement about the trees that are held so far: their nodes
have exactly the numbers from the first one given out up to the next free one, each once
(`Numbered`). A tree that is made and then forgotten would leave a gap in this, and no later step
could fill it.

The order of the trees plays no part, since the nodes of a program are regrouped after they are
numbered. So the laws are few: nothing is held at the beginning, what is made later is held in
addition, the held trees may be rearranged, and some of them may be gathered under a new node.
-/

namespace SnippetTree

open SnippetTree.Rose

/-- The numbers of all nodes of a tree. -/
def Tree.ids (t : Tree) : List Int :=
  t.walk.map Tree.id

/-- Every node has a greater number than its children. -/
def Tree.ChildrenFirst (t : Tree) : Prop :=
  ∀ u ∈ t.walk, ∀ child ∈ u.children, Tree.id child < Tree.id u

/-- That many numbers, from the first on. -/
def numbersFrom (first : Int) (count : Nat) : List Int :=
  (List.range count).map fun (i : Nat) => first + (i : Int)

/-- The nodes of the trees have the numbers from `first` up to, but not including, `next`. -/
structure Numbered (first : Int) (ts : List Tree) (next : Int) : Prop where
  /-- As many numbers have been given out as there are nodes. -/
  count : next = first + (sizeAll ts : Int)
  /-- Each number is the number of one node. -/
  ids : (ts.flatMap Tree.ids).Perm (numbersFrom first (sizeAll ts))
  /-- Children have been numbered before the nodes above them. -/
  below : ∀ t ∈ ts, t.ChildrenFirst

/-! ## Numbers -/

theorem numbersFrom_add (first : Int) (m n : Nat) :
    numbersFrom first (m + n) = numbersFrom first m ++ numbersFrom (first + m) n := by
  unfold numbersFrom
  rw [List.range_add, List.map_append, List.map_map]
  congr 1
  refine List.map_congr_left ?_
  intro i _
  simp only [Function.comp_apply]
  omega

theorem numbersFrom_one (first : Int) : numbersFrom first 1 = [first] := by
  simp [numbersFrom, List.range_succ]

theorem mem_numbersFrom {first n : Int} {count : Nat} (h : n ∈ numbersFrom first count) :
    first ≤ n ∧ n < first + count := by
  obtain ⟨i, hi, rfl⟩ := List.mem_map.mp h
  have := List.mem_range.mp hi
  omega

/-! ## Nodes -/

theorem Tree.ids_mk (id : Int) (kind : Kind) (lexeme : Lexeme) (category : Category)
    (children : List Tree) (synthetic : Bool) :
    (Tree.mk id kind lexeme category children synthetic).ids = id :: children.flatMap Tree.ids := by
  rw [Tree.mk, Tree.ids, walk_node, List.map_cons, List.map_flatMap]
  rfl

theorem Tree.id_mem_ids (t : Tree) : t.id ∈ t.ids := by
  obtain ⟨value, children⟩ := t
  rw [Tree.ids, walk_node]
  exact List.mem_cons_self ..

/-- A new node above some trees keeps the order if it has a number that is greater than theirs. -/
theorem Tree.childrenFirst_mk {id : Int} {kind : Kind} {lexeme : Lexeme} {category : Category}
    {children : List Tree} {synthetic : Bool} (hbelow : ∀ t ∈ children, t.ChildrenFirst)
    (hid : ∀ t ∈ children, t.id < id) :
    (Tree.mk id kind lexeme category children synthetic).ChildrenFirst := by
  intro u hu child hchild
  rw [Tree.mk, walk_node, List.mem_cons] at hu
  rcases hu with rfl | hu
  · exact hid child hchild
  · obtain ⟨t, ht, hut⟩ := List.mem_flatMap.mp hu
    exact hbelow t ht u hut child hchild

/-! ## The laws -/

namespace Numbered

variable {first mid next : Int} {ts us : List Tree}

/-- Nothing is held at the beginning. -/
theorem nil (first : Int) : Numbered first [] first where
  count := by simp [sizeAll]
  ids := by simp [numbersFrom, sizeAll]
  below := by simp

/-- What is made later is held in addition. -/
theorem append (hts : Numbered first ts mid) (hus : Numbered mid us next) :
    Numbered first (ts ++ us) next where
  count := by
    have hmid := hts.count
    have hnext := hus.count
    rw [sizeAll_append]
    omega
  ids := by
    rw [List.flatMap_append, sizeAll_append, numbersFrom_add, ← hts.count]
    exact hts.ids.append hus.ids
  below := by
    intro t ht
    rcases List.mem_append.mp ht with ht | ht
    · exact hts.below t ht
    · exact hus.below t ht

theorem sizeAll_perm (h : ts.Perm us) : sizeAll ts = sizeAll us := by
  induction h with
  | nil => rfl
  | cons t _ ih => simp only [sizeAll, ih]
  | swap t u rest =>
      simp only [sizeAll]
      omega
  | trans _ _ ih ih' => rw [ih, ih']

/-- The held trees may be rearranged. -/
theorem perm (h : Numbered first ts next) (hperm : ts.Perm us) : Numbered first us next where
  count := by
    rw [← sizeAll_perm hperm]
    exact h.count
  ids := by
    rw [← sizeAll_perm hperm]
    exact (hperm.symm.flatMap_right Tree.ids).trans h.ids
  below := by
    intro t ht
    exact h.below t (hperm.mem_iff.mpr ht)

/-- The next free number is greater than all that have been given out. -/
theorem id_lt (h : Numbered first ts next) {t : Tree} (ht : t ∈ ts) : t.id < next := by
  have hmem : t.id ∈ ts.flatMap Tree.ids := List.mem_flatMap.mpr ⟨t, ht, t.id_mem_ids⟩
  have hbounds := mem_numbersFrom (h.ids.mem_iff.mp hmem)
  have hcount := h.count
  omega

/-- **Some of the held trees may be gathered under a new node**, which takes the next number. -/
theorem gather (h : Numbered first (us ++ ts) next) (kind : Kind) (lexeme : Lexeme)
    (category : Category) (synthetic : Bool) :
    Numbered first (us ++ [.mk next kind lexeme category ts synthetic]) (next + 1) := by
  have hsize : sizeAll (us ++ [Tree.mk next kind lexeme category ts synthetic]) =
      sizeAll (us ++ ts) + 1 := by
    rw [sizeAll_append, sizeAll_append, sizeAll, sizeAll, Tree.mk, size]
    omega
  have hcount := h.count
  refine ⟨?_, ?_, ?_⟩
  · rw [hsize]
    omega
  · -- the new number goes to the end, where it is the one that follows all others
    rw [hsize, numbersFrom_add, numbersFrom_one, ← hcount, List.flatMap_append,
      List.flatMap_cons, List.flatMap_nil, List.append_nil, Tree.ids_mk]
    have hlast : (next :: ts.flatMap Tree.ids).Perm (ts.flatMap Tree.ids ++ [next]) :=
      (List.perm_append_singleton next _).symm
    refine (hlast.append_left (us.flatMap Tree.ids)).trans ?_
    rw [← List.append_assoc, ← List.flatMap_append]
    exact h.ids.append_right [next]
  · intro t ht
    rcases List.mem_append.mp ht with ht | ht
    · exact h.below t (List.mem_append_left _ ht)
    · rw [List.mem_singleton] at ht
      subst ht
      refine Tree.childrenFirst_mk ?_ ?_
      · intro t ht
        exact h.below t (List.mem_append_right _ ht)
      · intro t ht
        exact h.id_lt (List.mem_append_right _ ht)

/-- All held trees may be gathered. -/
theorem node (h : Numbered first ts next) (kind : Kind) (lexeme : Lexeme) (category : Category)
    (synthetic : Bool) :
    Numbered first [.mk next kind lexeme category ts synthetic] (next + 1) := by
  have hheld : Numbered first ([] ++ ts) next := h
  exact hheld.gather kind lexeme category synthetic

end Numbered

end SnippetTree
