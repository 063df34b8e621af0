/-!
# Rose trees and how they are visited

A rose tree has a value at each node and any number of children. Operator chains of thousands of
lexemes give trees as deep as they are long, so every visit here works off a stack of what is still
to be seen, instead of calling itself below each node:

* `visit` lists the subtrees with their depth, each before its children;
* `mapWith` builds a tree of the same shape from the values. A node is made before its children are,
  and is told of them one by one;
* `sameBy` compares two trees pair by pair.

Each loop ends because the number of nodes that are still to be seen goes down. The functions of
the same meaning that follow the shape of the tree (`preorderAt`, `map`) stand beside them.
-/

namespace SnippetTree

/-- A tree with a value at each node and its children in order. -/
inductive Rose (α : Type) where
  | node (value : α) (children : List (Rose α))

namespace Rose

variable {α β : Type}

/-- The value at the root. -/
def value : Rose α → α
  | node value _ => value

/-- The trees below the root. -/
def children : Rose α → List (Rose α)
  | node _ children => children

/-- A tree of one node. -/
def isLeaf (t : Rose α) : Bool :=
  t.children.isEmpty

/-! ## Along the shape of the tree -/

mutual

/-- The number of nodes. -/
def size : Rose α → Nat
  | node _ children => 1 + sizeAll children

/-- The number of nodes of several trees. -/
def sizeAll : List (Rose α) → Nat
  | [] => 0
  | t :: rest => size t + sizeAll rest

end

mutual

/-- The number of edges on the longest way down from the root. -/
def height : Rose α → Nat
  | node _ children => heightBelow children

/-- The height of a node with the given children. -/
def heightBelow : List (Rose α) → Nat
  | [] => 0
  | t :: rest => max (height t + 1) (heightBelow rest)

end

mutual

/-- The subtrees of a tree at a given depth, each with its depth and before its children. -/
def preorderAt (depth : Nat) : Rose α → List (Nat × Rose α)
  | node value children => (depth, node value children) :: preorderAllAt (depth + 1) children

/-- The subtrees of several trees at one depth, tree after tree. -/
def preorderAllAt (depth : Nat) : List (Rose α) → List (Nat × Rose α)
  | [] => []
  | t :: rest => preorderAt depth t ++ preorderAllAt depth rest

end

mutual

/-- The tree with every value replaced. -/
def map (f : α → β) : Rose α → Rose β
  | node value children => node (f value) (mapAll f children)

/-- Several trees with every value replaced. -/
def mapAll (f : α → β) : List (Rose α) → List (Rose β)
  | [] => []
  | t :: rest => map f t :: mapAll f rest

end

theorem size_pos (t : Rose α) : 0 < t.size := by
  cases t
  simp only [size]
  omega

theorem sizeAll_append (xs ys : List (Rose α)) : sizeAll (xs ++ ys) = sizeAll xs + sizeAll ys := by
  induction xs with
  | nil => simp [sizeAll]
  | cons t rest ih => simp [sizeAll, ih]; omega

theorem sizeAll_reverse (ts : List (Rose α)) : sizeAll ts.reverse = sizeAll ts := by
  induction ts with
  | nil => rfl
  | cons t rest ih => simp [sizeAll_append, sizeAll, ih]; omega

/-! ## Stacks -/

/-- The stack after the entries have been put on it, one after the other. Its first entry is the
topmost one. -/
def pushAll {ε : Type} (entries stack : List ε) : List ε :=
  entries.foldl (fun stack entry => entry :: stack) stack

theorem pushAll_eq {ε : Type} (entries stack : List ε) :
    pushAll entries stack = entries.reverse ++ stack := by
  induction entries generalizing stack with
  | nil => rfl
  | cons entry rest ih =>
    rw [pushAll, List.foldl_cons, ← pushAll, ih, List.reverse_cons, List.append_assoc]
    rfl

/-- The stack after an entry for each child has been put on it, the last child first. -/
def pushChildren {ε : Type} (entry : Rose α → ε) (children : List (Rose α)) (stack : List ε) :
    List ε :=
  pushAll (children.reverse.map entry) stack

/-- The entry of the first child comes to lie on top. -/
theorem pushChildren_eq {ε : Type} (entry : Rose α → ε) (children : List (Rose α))
    (stack : List ε) : pushChildren entry children stack = children.map entry ++ stack := by
  rw [pushChildren, pushAll_eq, ← List.map_reverse, List.reverse_reverse]

/-- The number of nodes of the trees that entries of a stack are for. -/
def pendingSize {ε : Type} (tree : ε → Rose α) (stack : List ε) : Nat :=
  sizeAll (stack.map tree)

theorem pendingSize_pushAll {ε : Type} (tree : ε → Rose α) (entries stack : List ε) :
    pendingSize tree (pushAll entries stack) =
      pendingSize tree entries + pendingSize tree stack := by
  simp only [pendingSize, pushAll_eq, List.map_append, List.map_reverse, sizeAll_append,
    sizeAll_reverse]

theorem pendingSize_pushChildren {ε : Type} {tree : ε → Rose α} {entry : Rose α → ε}
    (h : ∀ t, tree (entry t) = t) (children : List (Rose α)) (stack : List ε) :
    pendingSize tree (pushChildren entry children stack) =
      sizeAll children + pendingSize tree stack := by
  have hentries : pendingSize tree (children.reverse.map entry) = sizeAll children := by
    simp [pendingSize, Function.comp_def, h, sizeAll_reverse]
  rw [pushChildren, pendingSize_pushAll, hentries]

/-! ## Visiting -/

/-- The subtrees of the waiting trees: the topmost of them is taken, and its children are put on the
stack. -/
def visitAll : (stack : List (Nat × Rose α)) → List (Nat × Rose α)
  | [] => []
  | (depth, node value children) :: stack =>
    (depth, node value children) :: visitAll (pushChildren (depth + 1, ·) children stack)
termination_by stack => pendingSize (·.2) stack
decreasing_by
  rw [pendingSize_pushChildren fun _ => rfl]
  simp only [pendingSize, List.map_cons, sizeAll, size]
  omega

/-- The subtrees of a tree with their depths, each before its children. -/
def visit (t : Rose α) : List (Nat × Rose α) :=
  visitAll [(0, t)]

/-- The subtrees of a tree, each before its children. -/
def walk (t : Rose α) : List (Rose α) :=
  t.visit.map (·.2)

/-! ## Building -/

/-- A node that has been made. Its children are told by their places, and more can be added. -/
structure Cell (β : Type) where
  value : β
  children : Array Nat

/-- The node with one more child, after the others. -/
def Cell.adopt (cell : Cell β) (child : Nat) : Cell β :=
  { cell with children := cell.children.push child }

/-- The nodes, of which the one at `parent`, if there is one, has been told of a child. -/
def adopt (cells : Array (Cell β)) (parent : Option Nat) (child : Nat) : Array (Cell β) :=
  match parent with
  | none => cells
  | some place => cells.modify place (·.adopt child)

theorem size_adopt (cells : Array (Cell β)) (parent : Option Nat) (child : Nat) :
    (adopt cells parent child).size = cells.size := by
  cases parent with
  | none => rfl
  | some place => exact Array.size_modify

theorem getElem?_adopt (cells : Array (Cell β)) (parent : Option Nat) (child place : Nat) :
    (adopt cells parent child)[place]? =
      cells[place]?.map fun cell => if parent = some place then cell.adopt child else cell := by
  cases parent with
  | none => simp [adopt]
  | some other =>
    rw [adopt, Array.getElem?_modify]
    by_cases h : other = place
    · simp [h]
    · simp [h]

/-- The nodes that have been made, each at its place. A node is made before its children are. -/
structure Store (β : Type) where
  cells : Array (Cell β)
  later : ∀ place cell, cells[place]? = some cell →
    ∀ child ∈ cell.children.toList, place < child ∧ child < cells.size

namespace Store

/-- No node has been made. -/
def empty : Store β :=
  ⟨#[], by simp⟩

/-- Makes a node without children, and makes it a child of the node at `parent`. -/
def add (store : Store β) (value : β) (parent : Option Nat) : Store β where
  cells := (adopt store.cells parent store.cells.size).push ⟨value, #[]⟩
  later := by
    intro place cell hcell child hchild
    rw [Array.size_push, size_adopt]
    rw [Array.getElem?_push, size_adopt, getElem?_adopt] at hcell
    split at hcell
    next =>
      cases hcell
      cases hchild
    next =>
      obtain ⟨old, hold, rfl⟩ := Option.map_eq_some_iff.mp hcell
      have hplace : place < store.cells.size := (Array.getElem?_eq_some_iff.mp hold).1
      have hlater := store.later place old hold
      split at hchild
      next =>
        rw [Cell.adopt, Array.toList_push, List.mem_append, List.mem_singleton] at hchild
        rcases hchild with hchild | rfl
        · exact ⟨(hlater child hchild).1, Nat.lt_succ_of_lt (hlater child hchild).2⟩
        · exact ⟨hplace, Nat.lt_succ_self _⟩
      next => exact ⟨(hlater child hchild).1, Nat.lt_succ_of_lt (hlater child hchild).2⟩

theorem size_add (store : Store β) (value : β) (parent : Option Nat) :
    (store.add value parent).cells.size = store.cells.size + 1 := by
  rw [add, Array.size_push, size_adopt]

/-- The tree at a place: the node there, with the trees at the places of its children. -/
def read (store : Store β) (place : Nat) (h : place < store.cells.size) : Rose β :=
  let cell := store.cells[place]
  node cell.value (cell.children.toList.attach.map fun child =>
    have hchild := store.later place cell (Array.getElem?_eq_getElem h) child.1 child.2
    store.read child.1 hchild.2)
termination_by store.cells.size - place
decreasing_by omega

end Store

/-- Makes a node for the topmost tree, as a child of the node that is told with it, and puts the
children of the tree on the stack with the place of the new node. -/
def fill (f : α → β) (store : Store β) : (stack : List (Rose α × Option Nat)) → Store β
  | [] => store
  | (node value children, parent) :: stack =>
    fill f (store.add (f value) parent)
      (pushChildren (·, some store.cells.size) children stack)
termination_by stack => pendingSize (·.1) stack
decreasing_by
  rw [pendingSize_pushChildren fun _ => rfl]
  simp only [pendingSize, List.map_cons, sizeAll, size]
  omega

/-- No node is taken away. -/
theorem le_size_fill (f : α → β) (store : Store β) (stack : List (Rose α × Option Nat)) :
    store.cells.size ≤ (fill f store stack).cells.size := by
  induction store, stack using fill.induct f with
  | case1 store => exact Nat.le_of_eq (by rw [fill])
  | case2 store value children parent stack ih =>
    rw [fill]
    rw [Store.size_add] at ih
    exact Nat.le_of_succ_le ih

theorem size_fill_pos (f : α → β) (t : Rose α) : 0 < (fill f .empty [(t, none)]).cells.size := by
  cases t
  rw [fill]
  refine Nat.lt_of_lt_of_le ?_ (le_size_fill f _ _)
  rw [Store.size_add]
  exact Nat.succ_pos _

/-- The tree with every value replaced. The node that is a child of no other is made first, and it is
the root. -/
def mapWith (f : α → β) (t : Rose α) : Rose β :=
  (fill f .empty [(t, none)]).read 0 (size_fill_pos f t)

/-! ## Comparing -/

/-- A test whether two trees are one and the same, without a look at their nodes. Equal trees need not
be the same, and may be so in one comparison and not in another one; but what is the same is equal. -/
structure Identity (α : Type) where
  is : (comparison : Nat) → Rose α → Rose α → Bool
  eq_of_is : ∀ comparison t u, is comparison t u = true → t = u

/-- No tree is the same as another one. -/
def Identity.none : Identity α :=
  ⟨fun _ _ _ => false, fun _ _ _ => Bool.noConfusion⟩

private theorem pendingSize_zip_le (xs ys : List (Rose α)) :
    pendingSize (·.1) (xs.zip ys) ≤ sizeAll xs := by
  induction xs generalizing ys with
  | nil => simp [pendingSize, sizeAll]
  | cons x xs ih =>
    cases ys with
    | nil => simp [pendingSize, sizeAll]
    | cons y ys =>
      have := ih ys
      simp only [pendingSize, List.zip_cons_cons, List.map_cons, sizeAll] at this ⊢
      omega

/-- All waiting pairs are equal: the trees of a pair are one and the same, or the values and the
numbers of children agree, and so do the children, pair by pair. The pair of the last children is
compared first. -/
def sameAll [DecidableEq α] (identity : Identity α) (comparison : Nat) :
    (stack : List (Rose α × Rose α)) → Bool
  | [] => true
  | (t, u) :: stack =>
    if identity.is comparison t u then sameAll identity (comparison + 1) stack
    else if t.value = u.value ∧ t.children.length = u.children.length then
      sameAll identity (comparison + 1) (pushAll (t.children.zip u.children) stack)
    else false
termination_by stack => pendingSize (·.1) stack
decreasing_by
  · have := size_pos t
    simp only [pendingSize, List.map_cons, sizeAll]
    omega
  · have := pendingSize_zip_le t.children u.children
    rw [pendingSize_pushAll]
    cases t
    simp only [pendingSize, List.map_cons, sizeAll, size, children] at this ⊢
    omega

/-- The two trees are equal, where trees that are the same need no further look. -/
def sameBy [DecidableEq α] (identity : Identity α) (t u : Rose α) : Bool :=
  sameAll identity 0 [(t, u)]

/-- The two trees are equal. -/
def same [DecidableEq α] (t u : Rose α) : Bool :=
  t.sameBy .none u

end Rose

end SnippetTree
