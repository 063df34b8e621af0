import SnippetTree.Tree.Basic

/-!
# What a visit sees

A visit works off a stack of waiting trees; what it sees is what a walk along the shape of the trees
sees. Every fact about all nodes of a tree is read off two equations: a visit of waiting trees is
the one tree's subtrees after the other's (`visitAll_eq`), and the subtrees of a node are the node
and the subtrees of its children (`walk_node`).
-/

namespace SnippetTree

namespace Rose

variable {α β : Type}

/-- What holds of a node if it holds of its children holds of every tree. -/
theorem induct {motive : Rose α → Prop}
    (node : ∀ value children, (∀ t ∈ children, motive t) → motive (.node value children)) :
    ∀ t, motive t
  | .node value children => node value children fun t _ => induct node t

theorem preorderAllAt_eq (depth : Nat) (ts : List (Rose α)) :
    preorderAllAt depth ts = ts.flatMap (preorderAt depth) := by
  induction ts with
  | nil => rfl
  | cons t ts ih => rw [preorderAllAt, ih, List.flatMap_cons]

/-- **Working off a stack of trees sees what walking along their shape sees.** -/
theorem visitAll_eq (stack : List (Nat × Rose α)) :
    visitAll stack = stack.flatMap fun (depth, t) => preorderAt depth t := by
  induction stack using visitAll.induct with
  | case1 => rw [visitAll, List.flatMap_nil]
  | case2 depth value children stack ih =>
      have hchildren : (children.map (depth + 1, ·)).flatMap
          (fun (depth, t) => preorderAt depth t) = preorderAllAt (depth + 1) children := by
        rw [preorderAllAt_eq, List.flatMap_map]
      rw [visitAll, ih, pushChildren_eq, List.flatMap_append, hchildren, List.flatMap_cons]
      show _ = preorderAt depth (node value children) ++ _
      rw [preorderAt, List.cons_append]

theorem visit_eq (t : Rose α) : t.visit = preorderAt 0 t := by
  rw [visit, visitAll_eq, List.flatMap_cons, List.flatMap_nil, List.append_nil]

/-- The subtrees are the same from whatever depth they are counted. -/
theorem map_snd_preorderAt (t : Rose α) :
    ∀ depth, (preorderAt depth t).map (·.2) = t.walk := by
  have hdepths : ∀ depth other,
      (preorderAt depth t).map (·.2) = (preorderAt other t).map (·.2) := by
    induction t using induct with
    | node value children ih =>
        intro depth other
        rw [preorderAt, preorderAt, preorderAllAt_eq, preorderAllAt_eq, List.map_cons,
          List.map_cons, List.map_flatMap, List.map_flatMap, List.flatMap_def, List.flatMap_def,
          List.map_congr_left fun t ht => ih t ht (depth + 1) (other + 1)]
  intro depth
  rw [walk, visit_eq]
  exact hdepths depth 0

/-- **A walk sees a node and then what walks of its children see.** -/
theorem walk_node (value : α) (children : List (Rose α)) :
    (node value children).walk = node value children :: children.flatMap walk := by
  rw [← map_snd_preorderAt _ 0, preorderAt, preorderAllAt_eq, List.map_cons, List.map_flatMap,
    List.flatMap_def, List.flatMap_def, List.map_congr_left fun t _ => map_snd_preorderAt t 1]

/-- A walk sees as many subtrees as there are nodes. -/
theorem length_walk (t : Rose α) : t.walk.length = t.size := by
  induction t using induct with
  | node value children ih =>
      have hall : ∀ ts : List (Rose α), (∀ t ∈ ts, t.walk.length = t.size) →
          (ts.flatMap walk).length = sizeAll ts := by
        intro ts hts
        induction ts with
        | nil => rfl
        | cons t ts ihts =>
            rw [List.flatMap_cons, List.length_append, sizeAll, hts t (by simp),
              ihts fun u hu => hts u (List.mem_cons_of_mem _ hu)]
      rw [walk_node, List.length_cons, hall children ih, size, Nat.add_comm]

/-! ## Trees with other values -/

theorem mapAll_eq (f : α → β) (ts : List (Rose α)) : mapAll f ts = ts.map (map f) := by
  induction ts with
  | nil => rfl
  | cons t ts ih => rw [mapAll, ih, List.map_cons]

theorem map_node (f : α → β) (value : α) (children : List (Rose α)) :
    map f (node value children) = node (f value) (children.map (map f)) := by
  rw [map, mapAll_eq]

theorem value_map (f : α → β) (t : Rose α) : (map f t).value = f t.value := by
  obtain ⟨value, children⟩ := t
  rw [map_node, Rose.value, Rose.value]

end Rose

end SnippetTree
