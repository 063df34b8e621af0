import SnippetTree.Proofs.Visit
import Mathlib.Logic.Function.Basic

/-!
# Stacks in place of recursion

Trees are visited with a stack, so that deep ones are no trouble. What comes of it is what a
recursion along the shape of the tree gives (`Tree.stacks_follow_shape`).

For the two visits this is read off `visitAll_eq`. Plain data take more, since a node is made before
its children are and is told of them when their turn comes: in between it is not the node that it
will be. What can be said all along is which tree each node will be when the stack has been worked
off: its value, then the trees of the children it has been told of, then those that wait on the stack
for it, in their order there (`Promises`). No step changes that (`Promises.add`), and in the end
nothing waits.
-/

namespace SnippetTree

namespace Rose

variable {α β : Type} {f : α → β} {store : Store β} {stack : List (Rose α × Option Nat)}
  {tree : Nat → Rose β}

/-! ## Subtrees in their order -/

mutual

/-- The subtrees of a tree, each before its children. -/
def preorder : Rose α → List (Rose α)
  | node value children => node value children :: preorderAll children

/-- The subtrees of several trees, tree after tree. -/
def preorderAll : List (Rose α) → List (Rose α)
  | [] => []
  | t :: rest => preorder t ++ preorderAll rest

end

theorem preorderAll_eq (ts : List (Rose α)) : preorderAll ts = ts.flatMap preorder := by
  induction ts with
  | nil => rfl
  | cons t ts ih => rw [preorderAll, ih, List.flatMap_cons]

/-- **A walk goes along the shape of the tree.** -/
theorem walk_eq_preorder (t : Rose α) : t.walk = t.preorder := by
  induction t using induct with
  | node value children ih =>
      rw [walk_node, preorder, preorderAll_eq, List.flatMap_def, List.flatMap_def,
        List.map_congr_left ih]

/-! ## Nodes that are told of their children later -/

theorem Store.getElem?_add (store : Store β) (value : β) (parent : Option Nat) (place : Nat) :
    (store.add value parent).cells[place]? =
      if place = store.cells.size then some ⟨value, #[]⟩
      else store.cells[place]?.map fun cell =>
        if parent = some place then cell.adopt store.cells.size else cell := by
  rw [Store.add, Array.getElem?_push, size_adopt, getElem?_adopt]

/-- The trees that wait on the stack to become children of the node at a place. -/
def waiting (f : α → β) (stack : List (Rose α × Option Nat)) (place : Nat) : List (Rose β) :=
  (stack.filter (·.2 == some place)).map (·.1.map f)

theorem waiting_cons (t : Rose α) (parent : Option Nat) (stack : List (Rose α × Option Nat))
    (place : Nat) : waiting f ((t, parent) :: stack) place =
      (if parent = some place then [t.map f] else []) ++ waiting f stack place := by
  by_cases h : parent = some place
  · rw [waiting, List.filter_cons_of_pos (by simpa using h), if_pos h]
    rfl
  · rw [waiting, List.filter_cons_of_neg (by simpa using h), if_neg h]
    rfl

theorem waiting_pushChildren (children : List (Rose α)) (stack : List (Rose α × Option Nat))
    (parent place : Nat) : waiting f (pushChildren (·, some parent) children stack) place =
      (if parent = place then children.map (map f) else []) ++ waiting f stack place := by
  rw [pushChildren_eq]
  induction children with
  | nil => simp
  | cons t children ih =>
      rw [List.map_cons, List.cons_append, waiting_cons, ih]
      by_cases h : parent = place
      · simp [h]
      · simp [h]

/-- The trees on the stack wait for nodes that have been made. -/
def Placed (store : Store β) (stack : List (Rose α × Option Nat)) : Prop :=
  ∀ entry ∈ stack, ∀ place ∈ entry.2, place < store.cells.size

theorem Placed.waiting_size (h : Placed store stack) : waiting f stack store.cells.size = [] := by
  rw [waiting, List.map_eq_nil_iff, List.filter_eq_nil_iff]
  intro entry hentry hplace
  exact Nat.lt_irrefl _ (h entry hentry _ (by simpa using hplace))

theorem Placed.add {top : Rose α} {parent : Option Nat} {value : β} {children : List (Rose α)}
    (h : Placed store ((top, parent) :: stack)) :
    Placed (store.add value parent) (pushChildren (·, some store.cells.size) children stack) := by
  intro entry hentry place hplace
  rw [Store.size_add]
  rw [pushChildren_eq, List.mem_append, List.mem_map] at hentry
  rcases hentry with ⟨t, -, rfl⟩ | hentry
  · cases hplace
    exact Nat.lt_succ_self _
  · exact Nat.lt_succ_of_lt (h entry (List.mem_cons_of_mem _ hentry) place hplace)

/-- Each node will be the tree that `tree` tells for its place when the stack has been worked off. -/
def Promises (f : α → β) (store : Store β) (stack : List (Rose α × Option Nat))
    (tree : Nat → Rose β) : Prop :=
  ∀ place cell, store.cells[place]? = some cell →
    tree place = node cell.value (cell.children.toList.map tree ++ waiting f stack place)

/-- **A step keeps the promises**, and the new node will be the tree that it was made for. -/
theorem Promises.add {value : α} {children : List (Rose α)} {parent : Option Nat}
    (h : Promises f store ((node value children, parent) :: stack) tree)
    (hplaced : Placed store ((node value children, parent) :: stack)) :
    Promises f (store.add (f value) parent) (pushChildren (·, some store.cells.size) children stack)
      (Function.update tree store.cells.size (map f (node value children))) := by
  intro place cell hcell
  rw [Store.getElem?_add] at hcell
  rw [waiting_pushChildren]
  split at hcell
  next hnew =>
    cases hcell
    have hbelow : Placed store stack := fun entry hentry =>
      hplaced entry (List.mem_cons_of_mem _ hentry)
    rw [hnew, Function.update_self, if_pos rfl, hbelow.waiting_size, List.append_nil, map_node]
    rfl
  next hold =>
    obtain ⟨old, hfound, rfl⟩ := Option.map_eq_some_iff.mp hcell
    have hkept : old.children.toList.map
        (Function.update tree store.cells.size (map f (node value children))) =
          old.children.toList.map tree := by
      refine List.map_congr_left fun child hchild => ?_
      exact Function.update_of_ne (Nat.ne_of_lt (store.later place old hfound child hchild).2) _ _
    rw [Function.update_of_ne hold, h place old hfound, waiting_cons, if_neg (Ne.symm hold),
      List.nil_append]
    by_cases hparent : parent = some place
    · rw [if_pos hparent, if_pos hparent, Cell.adopt, Array.toList_push, List.map_append, hkept,
        List.map_singleton, Function.update_self, List.append_assoc]
    · rw [if_neg hparent, if_neg hparent, hkept, List.nil_append]

/-- All promises are kept to the end, and none is made anew. -/
theorem Promises.fill (h : Promises f store stack tree) (hplaced : Placed store stack) :
    ∃ tree', Promises f (Rose.fill f store stack) [] tree' ∧
      ∀ place < store.cells.size, tree' place = tree place := by
  induction store, stack using fill.induct f generalizing tree with
  | case1 store =>
      rw [Rose.fill]
      exact ⟨tree, h, fun _ _ => rfl⟩
  | case2 store value children parent stack ih =>
      obtain ⟨tree', hpromises, hsame⟩ := ih (h.add hplaced) hplaced.add
      rw [Rose.fill]
      refine ⟨tree', hpromises, fun other hother => ?_⟩
      rw [hsame other (by rw [Store.size_add]; exact Nat.lt_succ_of_lt hother)]
      exact Function.update_of_ne (Nat.ne_of_lt hother) _ _

/-- When nothing waits, the nodes are the trees that were promised. -/
theorem Promises.read_eq (h : Promises f store [] tree) (place : Nat)
    (hplace : place < store.cells.size) : store.read place hplace = tree place := by
  -- children are made later, so there is less and less room for them
  induction place, hplace using Store.read.induct store with
  | case1 place hplace cell ih =>
      have hchildren : (cell.children.toList.attach.map fun child =>
          store.read child.1 (store.later place cell (Array.getElem?_eq_getElem hplace) child.1
            child.2).2) = cell.children.toList.map tree := by
        rw [List.map_congr_left fun child _ => ih child]
        exact List.attach_map_val
      rw [Store.read, h place cell (Array.getElem?_eq_getElem hplace), waiting, List.filter_nil,
        List.map_nil, List.append_nil, ← hchildren]

/-- **A tree that is built node by node follows the shape of the tree it is built from.** -/
theorem mapWith_eq_map (f : α → β) (t : Rose α) : t.mapWith f = t.map f := by
  obtain ⟨value, children⟩ := t
  have hstart : Promises f .empty [(node value children, none)]
      fun _ => map f (node value children) := by
    intro place cell hcell
    cases hcell
  have hplaced : Placed (.empty : Store β) [(node value children, none)] := by
    intro entry hentry place hplace
    rw [List.mem_singleton.mp hentry] at hplace
    cases hplace
  obtain ⟨tree, hpromises, hkept⟩ := (hstart.add hplaced).fill hplaced.add
  rw [← Rose.fill] at hpromises
  rw [mapWith, hpromises.read_eq, hkept 0 (by rw [Store.size_add]; exact Nat.succ_pos _)]
  exact Function.update_self _ _ _

end Rose

/-! ## Outlines -/

namespace Tree

mutual

/-- The lines of a tree at a given depth: that of its root, indented as often as the root is deep,
and those of its children. -/
def linesAt (indent : String) (depth : Nat) : Tree → List String
  | .node label children =>
    (String.join (List.replicate depth indent) ++ outlineLine label) ::
      linesAllAt indent (depth + 1) children

/-- The lines of several trees at one depth, tree after tree. -/
def linesAllAt (indent : String) (depth : Nat) : List Tree → List String
  | [] => []
  | t :: rest => linesAt indent depth t ++ linesAllAt indent depth rest

end

theorem linesAllAt_eq (indent : String) (depth : Nat) (ts : List Tree) :
    linesAllAt indent depth ts = ts.flatMap (linesAt indent depth) := by
  induction ts with
  | nil => rfl
  | cons t ts ih => rw [linesAllAt, ih, List.flatMap_cons]

/-- The lines of an outline go along the shape of the tree. -/
theorem outlineLines_eq_linesAt (t : Tree) (indent : String) :
    t.outlineLines indent = t.linesAt indent 0 := by
  have hlines : ∀ depth, (t.preorderAt depth).map (fun entry =>
      String.join (List.replicate entry.1 indent) ++ outlineLine entry.2.value) =
        t.linesAt indent depth := by
    induction t using Rose.induct with
    | node label children ih =>
        intro depth
        rw [Rose.preorderAt, Rose.preorderAllAt_eq, linesAt, linesAllAt_eq, List.map_cons,
          List.map_flatMap, List.flatMap_def, List.flatMap_def,
          List.map_congr_left fun t ht => ih t ht (depth + 1)]
        rfl
  rw [outlineLines, Rose.visit_eq]
  exact hlines 0

/-- **Working off a stack is recursion along the shape of the tree.** A walk lists the subtrees, each
before its children; a search for a kind leaves those of the kind, in the same order; the plain data
of a tree are those of its root around those of its children, in their order; and an outline is the
line of the root and then those of its children, which are indented once more. -/
theorem stacks_follow_shape (t : Tree) :
    t.walk = t.preorder ∧ (∀ kind, t.findAll kind = t.preorder.filter (·.value.kind == kind)) ∧
      t.record = t.map Label.fields ∧
        ∀ indent, t.outline indent = "\n".intercalate (t.linesAt indent 0) := by
  refine ⟨t.walk_eq_preorder, fun kind => ?_, t.mapWith_eq_map Label.fields, fun indent => ?_⟩
  · rw [findAll, t.walk_eq_preorder]
  · rw [outline, outlineLines_eq_linesAt]

end Tree

end SnippetTree
