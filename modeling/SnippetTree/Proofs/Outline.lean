import SnippetTree.Proofs.Cuts
import SnippetTree.Proofs.Shift
import SnippetTree.Proofs.Unquoting

/-!
# An outline shows the whole tree

Of a tree everything but its numbers can be read off its outline (`outline_shows`).

A line of an outline is taken apart from both ends. Blanks stand in front of the mark, and there are
twice as many of them as the node is deep; the name of a kind holds no blank and that of a category
no bracket, so what is left between them is the lexeme in its quotes, which is read back. This gives
the nodes in their order, each with its depth (`Rose.listing`). Where the depth goes down, the
children of a node have ended; so a listing is that of one tree only (`Rose.listing_injective`).
-/

namespace SnippetTree

/-! ## Listings -/

namespace Rose

variable {α β : Type} {depth : Nat}

/-- The values of a tree with their depths, each before those of its children. -/
def listing (depth : Nat) (t : Rose α) : List (Nat × α) :=
  (preorderAt depth t).map fun (depth, subtree) => (depth, subtree.value)

theorem listing_node (depth : Nat) (value : α) (children : List (Rose α)) :
    listing depth (node value children) =
      (depth, value) :: children.flatMap (listing (depth + 1)) := by
  rw [listing, preorderAt, preorderAllAt_eq, List.map_cons, List.map_flatMap]
  rfl

theorem listing_map (f : α → β) (t : Rose α) :
    ∀ depth, listing depth (t.map f) =
      (listing depth t).map fun (depth, value) => (depth, f value) := by
  induction t using induct with
  | node value children ih =>
      intro depth
      rw [map_node, listing_node, listing_node, List.map_cons, List.map_flatMap, List.flatMap_map,
        List.flatMap_def, List.flatMap_def, List.map_congr_left fun t ht => ih t ht (depth + 1)]

/-- Nothing in the list belongs below a node of this depth: its first entry, if it has one, is no
deeper. -/
def Leaves (depth : Nat) (rest : List (Nat × α)) : Prop :=
  ∀ entry ∈ rest.head?, entry.1 ≤ depth

theorem leaves_flatMap_listing {ts : List (Rose α)} {rest : List (Nat × α)}
    (h : Leaves depth rest) : Leaves depth (ts.flatMap (listing depth) ++ rest) := by
  cases ts with
  | nil => exact h
  | cons t ts =>
      obtain ⟨value, children⟩ := t
      rw [List.flatMap_cons, listing_node]
      intro entry hentry
      cases hentry
      exact Nat.le_refl depth

mutual

/-- A tree and what is listed after it are told from the list, if nothing after it belongs below
its root. -/
theorem eq_of_listing_append : ∀ (t u : Rose α) {depth : Nat} {rest rest' : List (Nat × α)},
    Leaves depth rest → Leaves depth rest' →
    listing depth t ++ rest = listing depth u ++ rest' → t = u ∧ rest = rest'
  | node value children, node value' children', depth, rest, rest', hrest, hrest', h => by
      rw [listing_node, listing_node, List.cons_append, List.cons_append, List.cons.injEq] at h
      obtain ⟨hvalue, hbelow⟩ := h
      have hless : ∀ {rest : List (Nat × α)}, Leaves depth rest →
          ∀ entry ∈ rest.head?, entry.1 < depth + 1 :=
        fun h entry hentry => Nat.lt_succ_of_le (h entry hentry)
      obtain ⟨rfl, rfl⟩ := eq_of_listings_append children children' (hless hrest) (hless hrest')
        hbelow
      rw [(Prod.mk.inj hvalue).2]
      exact ⟨rfl, rfl⟩

/-- So are several trees of one depth, if what is listed after them is less deep. -/
theorem eq_of_listings_append : ∀ (ts us : List (Rose α)) {depth : Nat}
    {rest rest' : List (Nat × α)},
    (∀ entry ∈ rest.head?, entry.1 < depth) → (∀ entry ∈ rest'.head?, entry.1 < depth) →
    ts.flatMap (listing depth) ++ rest = us.flatMap (listing depth) ++ rest' →
    ts = us ∧ rest = rest'
  | [], [], _, _, _, _, _, h => ⟨rfl, h⟩
  | [], node value children :: us, depth, rest, rest', hrest, _, h => by
      rw [List.flatMap_nil, List.nil_append, List.flatMap_cons, listing_node] at h
      rw [h] at hrest
      exact absurd (hrest _ rfl) (Nat.lt_irrefl depth)
  | node value children :: ts, [], depth, rest, rest', _, hrest', h => by
      rw [List.flatMap_nil, List.nil_append, List.flatMap_cons, listing_node] at h
      rw [← h] at hrest'
      exact absurd (hrest' _ rfl) (Nat.lt_irrefl depth)
  | t :: ts, u :: us, depth, rest, rest', hrest, hrest', h => by
      rw [List.flatMap_cons, List.flatMap_cons, List.append_assoc, List.append_assoc] at h
      have hleaves : ∀ {ts : List (Rose α)} {rest : List (Nat × α)},
          (∀ entry ∈ rest.head?, entry.1 < depth) →
          Leaves depth (ts.flatMap (listing depth) ++ rest) :=
        fun h => leaves_flatMap_listing fun entry hentry => Nat.le_of_lt (h entry hentry)
      obtain ⟨rfl, hmore⟩ := eq_of_listing_append t u (hleaves hrest) (hleaves hrest') h
      obtain ⟨rfl, rfl⟩ := eq_of_listings_append ts us hrest hrest' hmore
      exact ⟨rfl, rfl⟩

end

/-- **A listing is that of one tree only.** -/
theorem listing_injective {t u : Rose α} (h : listing depth t = listing depth u) : t = u := by
  have hnone : Leaves depth ([] : List (Nat × α)) := nofun
  exact (eq_of_listing_append t u hnone hnone (by rw [h])).1

end Rose

/-! ## Lines -/

/-- If a search for the image of a value finds the value, images tell values apart. -/
theorem eq_of_find? {α β : Type} [BEq β] {f : α → β} {all : List α}
    (hfind : ∀ a, all.find? (f · == f a) = some a) {a b : α} (h : f a = f b) : a = b :=
  Option.some.inj (by rw [← hfind a, ← hfind b, h])

/-- How kinds are written tells them apart. -/
theorem Kind.label_injective {a b : Kind} (h : a.label = b.label) : a = b := by
  have hfind : ∀ kind : Kind, Kind.all.find? (Kind.label · == kind.label) = some kind := by
    intro kind
    cases kind <;> decide
  exact eq_of_find? hfind h

theorem Category.label_injective {a b : Category} (h : a.label = b.label) : a = b := by
  have hfind : ∀ category : Category,
      Category.all.find? (Category.label · == category.label) = some category := by
    intro category
    cases category <;> decide
  exact eq_of_find? hfind h

/-- The text has visible characters only, and the mark is not among them. -/
def Text.keepsOff (mark : Char) (text : Text) : Bool :=
  text.all fun c => 0x20 ≤ c.toNat && c.toNat < 0x7F && c != mark

theorem Text.isPrintable_of_keepsOff {mark c : Char} {text : Text}
    (h : text.keepsOff mark = true) (hmem : c ∈ text) : isPrintable c = true ∧ c ≠ mark := by
  have hc := List.all_eq_true.mp h c hmem
  simp only [Bool.and_eq_true, decide_eq_true_eq, bne_iff_ne] at hc
  exact ⟨isPrintable_of_ascii hc.1.1 hc.1.2, hc.2⟩

theorem Kind.keepsOff_label (kind : Kind) : Text.keepsOff ' ' kind.label.toList = true := by
  cases kind <;> decide

theorem Category.keepsOff_label (category : Category) :
    Text.keepsOff '[' category.label.toList = true := by
  cases category <;> decide

/-- The label without its number. -/
def Label.unnumbered (label : Label) : Label :=
  { label with id := 0 }

namespace Tree

/-- The line that an outline has for a node. -/
def outlineEntry (depth : Nat) (label : Label) : String :=
  String.join (List.replicate depth standardIndent) ++ outlineLine label

/-- The mark that a line begins with. -/
def outlineMark (label : Label) : Char :=
  if label.synthetic then '+' else '-'

/-- What follows the mark. -/
def outlineBody (label : Label) : Text :=
  label.kind.label.toList ++ ' ' :: (Text.quote label.lexeme.toList ++ [' '] ++
    '[' :: (label.category.label.toList ++ [']']))

variable {depth depth' : Nat} {a b : Label}

theorem toList_indentation (depth : Nat) :
    (String.join (List.replicate depth standardIndent)).toList =
      List.replicate (2 * depth) ' ' := by
  rw [String.toList_join]
  induction depth with
  | zero => rfl
  | succ depth ih => rw [List.replicate_succ, List.flatMap_cons, ih, Nat.mul_succ]; rfl

theorem toList_outlineLine (label : Label) :
    (outlineLine label).toList = outlineMark label :: ' ' :: outlineBody label := by
  simp only [outlineLine, quoted, String.toList_append, String.toList_ofList, outlineMark,
    outlineBody]
  cases label.synthetic <;> simp

theorem toList_outlineEntry (depth : Nat) (label : Label) : (outlineEntry depth label).toList =
    List.replicate (2 * depth) ' ' ++ outlineMark label :: ' ' :: outlineBody label := by
  rw [outlineEntry, String.toList_append, toList_indentation, toList_outlineLine]

/-- Every character of a line can be seen, so it holds no line feed. -/
theorem isPrintable_of_mem_outlineEntry {c : Char} (h : c ∈ (outlineEntry depth a).toList) :
    Text.isPrintable c = true := by
  have hmark : Text.isPrintable (outlineMark a) = true := by
    rw [outlineMark]
    cases a.synthetic <;> decide
  rw [toList_outlineEntry, outlineBody] at h
  simp only [List.mem_append, List.mem_cons, List.mem_replicate, List.not_mem_nil, or_false] at h
  rcases h with ⟨-, rfl⟩ | rfl | rfl | hkind | rfl | (hquote | rfl) | rfl | hcategory | rfl
  · decide
  · exact hmark
  · decide
  · exact (Text.isPrintable_of_keepsOff a.kind.keepsOff_label hkind).1
  · decide
  · exact Text.isPrintable_of_mem_quote hquote
  · decide
  · decide
  · exact (Text.isPrintable_of_keepsOff a.category.keepsOff_label hcategory).1
  · decide

/-- What stands before and after the last occurrence of a mark. -/
theorem eq_of_append_mark {mark : Char} {u u' v v' : Text} (hv : mark ∉ v) (hv' : mark ∉ v')
    (h : u ++ mark :: v = u' ++ mark :: v') : u = u' ∧ v = v' := by
  have hback := congrArg (Text.cutAt? mark) (congrArg List.reverse h)
  simp only [List.reverse_append, List.reverse_cons, List.append_assoc, List.singleton_append]
    at hback
  rw [Text.cutAt?_append (mt List.mem_reverse.mp hv),
    Text.cutAt?_append (mt List.mem_reverse.mp hv'), Option.some.injEq, Prod.mk.injEq,
    List.reverse_inj, List.reverse_inj] at hback
  exact hback.symm

/-- Kind, lexeme and category are read off what follows the mark. -/
theorem eq_of_outlineBody (h : outlineBody a = outlineBody b) :
    a.kind = b.kind ∧ a.lexeme = b.lexeme ∧ a.category = b.category := by
  have hblank : ∀ kind : Kind, ' ' ∉ kind.label.toList :=
    fun kind hmem => (Text.isPrintable_of_keepsOff kind.keepsOff_label hmem).2 rfl
  have hbracket : ∀ category : Category, '[' ∉ category.label.toList ++ [']'] := by
    intro category hmem
    rcases List.mem_append.mp hmem with hmem | hmem
    · exact (Text.isPrintable_of_keepsOff category.keepsOff_label hmem).2 rfl
    · exact absurd hmem (by decide)
  have hcut := congrArg (Text.cutAt? ' ') h
  rw [outlineBody, outlineBody, Text.cutAt?_append (hblank a.kind),
    Text.cutAt?_append (hblank b.kind), Option.some.injEq, Prod.mk.injEq] at hcut
  obtain ⟨hkind, hrest⟩ := hcut
  -- the lexeme may hold brackets of its own, so the category is looked for from behind
  obtain ⟨hquote, hcategory⟩ := eq_of_append_mark (hbracket a.category) (hbracket b.category) hrest
  rw [List.append_left_inj] at hquote hcategory
  exact ⟨Kind.label_injective (String.toList_inj.mp hkind),
    String.toList_inj.mp (Text.quote_injective hquote),
    Category.label_injective (String.toList_inj.mp hcategory)⟩

/-- Blanks in front of something else are counted. -/
theorem eq_of_replicate_append {m n : Nat} {c d : Char} {u v : Text} (hc : c ≠ ' ') (hd : d ≠ ' ')
    (h : List.replicate m ' ' ++ c :: u = List.replicate n ' ' ++ d :: v) :
    m = n ∧ c = d ∧ u = v := by
  induction m generalizing n with
  | zero =>
      cases n with
      | zero => exact ⟨rfl, List.cons.inj h⟩
      | succ n => exact absurd (List.cons.inj h).1 hc
  | succ m ih =>
      cases n with
      | zero => exact absurd (List.cons.inj h).1.symm hd
      | succ n =>
          obtain ⟨hmn, hrest⟩ := ih (List.cons.inj h).2
          exact ⟨congrArg (· + 1) hmn, hrest⟩

/-- **A line shows how deep a node is, and all that is known of it but its number.** -/
theorem eq_of_outlineEntry (h : outlineEntry depth a = outlineEntry depth' b) :
    depth = depth' ∧ a.unnumbered = b.unnumbered := by
  have hmark : ∀ label : Label, outlineMark label ≠ ' ' := by
    intro label
    rw [outlineMark]
    cases label.synthetic <;> decide
  have hchars := congrArg String.toList h
  rw [toList_outlineEntry, toList_outlineEntry] at hchars
  obtain ⟨hdepth, hsame, hbody⟩ := eq_of_replicate_append (hmark a) (hmark b) hchars
  obtain ⟨hkind, hlexeme, hcategory⟩ := eq_of_outlineBody (List.cons.inj hbody).2
  have hsynthetic : a.synthetic = b.synthetic := by
    rw [outlineMark, outlineMark] at hsame
    cases ha : a.synthetic <;> cases hb : b.synthetic <;> simp [ha, hb] at hsame <;> rfl
  refine ⟨by omega, ?_⟩
  rw [Label.unnumbered, Label.unnumbered, hkind, hlexeme, hcategory, hsynthetic]

/-! ## Outlines -/

theorem outlineLines_eq (t : Tree) :
    t.outlineLines standardIndent =
      (Rose.listing 0 t).map fun (depth, label) => outlineEntry depth label := by
  rw [outlineLines, Rose.visit_eq, Rose.listing, List.map_map]
  rfl

/-- The lines of an outline are those that it was put together from. -/
theorem lines_outline (t : Tree) : Text.lines (t.outline standardIndent).toList =
    (t.outlineLines standardIndent).map String.toList := by
  rw [outline, String.toList_intercalate]
  refine Text.splitAt_join ?_ ?_
  · obtain ⟨label, children⟩ := t
    rw [outlineLines_eq, Rose.listing_node, List.map_cons, List.map_cons]
    exact List.cons_ne_nil _ _
  · intro line hline hfeed
    rw [outlineLines_eq, List.map_map, List.mem_map] at hline
    obtain ⟨⟨depth, label⟩, -, rfl⟩ := hline
    exact absurd (isPrintable_of_mem_outlineEntry hfeed) (by decide)

/-- What the values of a function tell apart no more than those of another one is the same wherever
the latter are. -/
theorem map_eq_of_map_eq {α β γ : Type} {f : α → β} {g : α → γ}
    (hfg : ∀ x y, f x = f y → g x = g y) {xs ys : List α} (h : xs.map f = ys.map f) :
    xs.map g = ys.map g := by
  induction xs generalizing ys with
  | nil =>
      cases ys with
      | nil => rfl
      | cons y ys => exact absurd h.symm (List.cons_ne_nil _ _)
  | cons x xs ih =>
      cases ys with
      | nil => exact absurd h (List.cons_ne_nil _ _)
      | cons y ys =>
          obtain ⟨hfirst, hrest⟩ := List.cons.inj h
          rw [List.map_cons, List.map_cons, hfg x y hfirst, ih hrest]

/-- The lines of an outline are enough to list the tree without its numbers, and the other way
round. -/
theorem outlineLines_eq_iff {t u : Tree} :
    t.outlineLines standardIndent = u.outlineLines standardIndent ↔
      Rose.listing 0 (t.map Label.unnumbered) = Rose.listing 0 (u.map Label.unnumbered) := by
  rw [outlineLines_eq, outlineLines_eq, Rose.listing_map, Rose.listing_map]
  constructor
  · refine map_eq_of_map_eq ?_
    rintro ⟨depth, a⟩ ⟨depth', b⟩ h
    obtain ⟨hdepth, hlabel⟩ := eq_of_outlineEntry h
    exact Prod.ext hdepth hlabel
  · refine map_eq_of_map_eq ?_
    rintro ⟨depth, a⟩ ⟨depth', b⟩ h
    obtain ⟨rfl, hlabel⟩ := Prod.mk.inj h
    -- a line says nothing about the number
    have hsame : outlineLine a.unnumbered = outlineLine b.unnumbered := by rw [hlabel]
    exact congrArg (_ ++ ·) hsame

theorem outline_eq_iff {t u : Tree} : t.outline standardIndent = u.outline standardIndent ↔
    t.outlineLines standardIndent = u.outlineLines standardIndent := by
  refine ⟨fun h => ?_, fun h => by rw [outline, outline, h]⟩
  have hlines : (t.outlineLines standardIndent).map String.toList =
      (u.outlineLines standardIndent).map String.toList := by
    rw [← lines_outline, ← lines_outline, h]
  exact List.map_inj_right (fun _ _ => String.toList_inj.mp) |>.mp hlines

/-- **An outline shows the whole tree.** It has one line for each node, each before those of its
children; and trees have the same outline if and only if they are the same but for the numbers of
their nodes, whatever is in their lexemes. -/
theorem outline_shows (t u : Tree) :
    Text.lines (t.outline standardIndent).toList =
      (Rose.preorderAt 0 t).map (fun (depth, subtree) =>
        (outlineEntry depth subtree.value).toList) ∧
    (Rose.preorderAt 0 t).length = t.size ∧
    (t.outline standardIndent = u.outline standardIndent ↔
      t.map Label.unnumbered = u.map Label.unnumbered) := by
  refine ⟨?_, ?_, ?_⟩
  · rw [lines_outline, outlineLines, Rose.visit_eq, List.map_map]
    rfl
  · rw [← Rose.length_walk, Rose.walk, Rose.visit_eq, List.length_map]
  · rw [outline_eq_iff, outlineLines_eq_iff]
    exact ⟨Rose.listing_injective, fun h => by rw [h]⟩

end Tree

end SnippetTree
