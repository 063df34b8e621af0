import SnippetTree.Proofs.BuildNumbered
import SnippetTree.Proofs.Cuts
import SnippetTree.Proofs.Shares
import SnippetTree.Proofs.Shift

/-!
# Lines do not know of each other

If one snippet is put after another, with a line feed between them, the tree of the two is put
together from the trees of each: every place holds what it holds for the first snippet, and then
what it holds for the second one with greater numbers. The warnings follow each other in the same
way.

The shares of the second snippet start where those of the first one end (`shares_append`), and
shares that start later are the same shares moved (`shares_move`). It remains to see where the first
ones end. All numbers of a build belong to nodes, so this is known from the number of the nodes
below the root; the groups do not count, since they are numbered after all lines. Here it matters
that no line makes a group of that kind by itself (`Tree.Plain`), which the schema tells.
-/

namespace SnippetTree

open SnippetTree.Numbering SnippetTree.Rose

/-! ## Texts -/

namespace Text

theorem lines_append (x y : Text) : lines (x ++ '\n' :: y) = lines x ++ lines y :=
  splitAt_append_cons '\n' x y

/-- There is one line more than there are line feeds. -/
theorem length_lines (x : Text) : (lines x).length = x.count '\n' + 1 :=
  length_splitWhere _ x

end Text

/-! ## Shares -/

/-- The warning about a later line. -/
def Warning.move (k : Int) (w : Warning) : Warning :=
  { w with line := w.line + k }

/-- The remark about a later line. -/
def Diagnostic.move (k : Int) (d : Diagnostic) : Diagnostic :=
  { d with line := d.line + k }

/-- The share of a line that comes `k` lines and `m` numbers later. -/
def Share.move (k m : Int) (share : Share) : Share where
  number := share.number + k
  first := share.first + m
  trees := share.trees.map (Tree.shift m)
  next := share.next + m
  warnings := share.warnings.map (Warning.move k)

theorem Outcome.moves_toTree (m : Int) (outcome : Outcome) :
    outcome.toTree.Moves m (Option.map (Tree.shift m)) outcome.toTree := by
  unfold toTree
  cases outcome.statement? with
  | none => exact moves_pure m _ none
  | some s => exact (s.movesTree m).bind fun t => moves_pure m _ (some t)

theorem Outcome.share_move (k m number first : Int) (outcome : Outcome) :
    outcome.share (number + k) (first + m) = (outcome.share number first).move k m := by
  have htree := outcome.moves_toTree m first
  have hwarnings : outcome.warnings (number + k) =
      (outcome.warnings number).map (Warning.move k) := by
    rw [warnings, warnings, List.map_map]
    rfl
  rw [share, share, Share.move, htree, hwarnings, Option.toList_map]

/-- **Shares that start later are the same shares, moved.** -/
theorem shares_move (k m number first : Int) (outcomes : List Outcome) :
    shares (number + k) (first + m) outcomes =
      (shares number first outcomes).map (Share.move k m) := by
  induction outcomes generalizing number first with
  | nil => rfl
  | cons outcome outcomes ih =>
      have hnext : (outcome.share (number + k) (first + m)).next =
          (outcome.share number first).next + m := by rw [Outcome.share_move]; rfl
      have hnumber : number + k + 1 = number + 1 + k := by omega
      rw [shares, shares, List.map_cons, hnext, hnumber, ih, Outcome.share_move]

/-- **The shares of more lines start where those of the lines before them end.** -/
theorem shares_append (number first : Int) (before after : List Outcome) :
    shares number first (before ++ after) = shares number first before ++
      shares (number + before.length) (freeAfter first (shares number first before)) after := by
  -- both numbers move on with every line, so they are general in the induction
  induction before generalizing number first with
  | nil =>
      show shares number first after = shares (number + ((0 : Nat) : Int)) first after
      have hnumber : number + ((0 : Nat) : Int) = number := by omega
      rw [hnumber]
  | cons outcome before ih =>
      have hnumber : number + 1 + (before.length : Int) =
          number + ((outcome :: before).length : Int) := by
        rw [List.length_cons]
        omega
      rw [List.cons_append, shares, ih, hnumber]
      rfl

/-- The numbers that shares take are those of their nodes. -/
theorem numbered_shares (number first : Int) (outcomes : List Outcome) :
    Numbered first ((shares number first outcomes).flatMap Share.trees)
      (freeAfter first (shares number first outcomes)) := by
  have hnumbered := makesTrees_mapM Statement.makesTree
    (outcomes.filterMap Outcome.statement?) first
  rw [run_mapM_statements number first outcomes] at hnumbered
  exact hnumbered

/-! ## Trees without groups of a program -/

/-- The kinds of the two groups below the root of a program. -/
def Kind.isProgramGroup : Kind → Bool
  | declarationsGroup | statementsGroup => true
  | _ => false

namespace Tree

/-- The root is no group of a program. -/
def isMember (t : Tree) : Bool :=
  !t.kind.isProgramGroup

/-- The number of nodes below the root that are no group of a program. -/
def memberCount (t : Tree) : Nat :=
  t.walk.tail.countP isMember

/-- No node of the tree is a group of a program. -/
def Plain (t : Tree) : Prop :=
  ∀ u ∈ t.walk, isMember u = true

theorem plain_mk {kind : Kind} (hkind : (!kind.isProgramGroup) = true) {children : List Tree}
    (hchildren : ∀ t ∈ children, t.Plain) (id : Int) (lexeme : Lexeme) (category : Category)
    (synthetic : Bool) : (Tree.mk id kind lexeme category children synthetic).Plain := by
  intro u hu
  rw [Tree.mk, walk_node, List.mem_cons] at hu
  rcases hu with rfl | hu
  · exact hkind
  · obtain ⟨t, ht, hut⟩ := List.mem_flatMap.mp hu
    exact hchildren t ht u hut

theorem plain_leaf {kind : Kind} (hkind : (!kind.isProgramGroup) = true) (id : Int)
    (lexeme : Lexeme) (category : Category) (synthetic : Bool) :
    (Tree.mk id kind lexeme category [] synthetic).Plain :=
  plain_mk hkind (fun _ h => absurd h List.not_mem_nil) id lexeme category synthetic

theorem IsParsed.plain {t : Tree} (h : t.IsParsed) : t.Plain := by
  induction h with
  | identifier id name => exact plain_leaf rfl id name _ _
  | keyword id word => exact plain_leaf rfl id word _ _
  | constant id text => exact plain_leaf rfl id text _ _
  | unary id operator _ ih => exact plain_mk rfl (List.forall_mem_singleton.mpr ih) id _ _ _
  | binary id operator _ _ ihl ihr =>
      have hboth := List.forall_mem_cons.mpr ⟨ihl, List.forall_mem_singleton.mpr ihr⟩
      exact plain_mk rfl hboth id _ _ _
  | oneSided id operator _ ih => exact plain_mk rfl (List.forall_mem_singleton.mpr ih) id _ _ _
  | call id callee _ ih => exact plain_mk rfl ih id _ _ _

theorem IsExpression.plain {t : Tree} (h : t.IsExpression) : t.Plain := by
  cases h with
  | parsed h => exact h.plain
  | raw id text => exact plain_leaf rfl id text _ _

theorem AtMostOneExpression.plain {ts : List Tree} (h : AtMostOneExpression ts) :
    ∀ t ∈ ts, t.Plain := by
  intro t ht
  exact (h.expressions t ht).plain

theorem IsAssignment.plain {target : Lexeme} {t : Tree} (h : t.IsAssignment target) : t.Plain := by
  obtain ⟨id, targetId, -, hvalues⟩ := h
  exact plain_mk rfl (List.forall_mem_cons.mpr ⟨plain_leaf rfl _ _ _ _, hvalues.plain⟩) id _ _ _

theorem IsVariable.plain {t : Tree} (h : t.IsVariable) : t.Plain := by
  cases h with
  | bare id typeId nameId typeName name =>
      refine plain_mk rfl (List.forall_mem_cons.mpr ⟨plain_leaf rfl _ _ _ _, ?_⟩) id _ _ _
      exact List.forall_mem_singleton.mpr (plain_leaf rfl _ _ _ _)
  | initialised id typeId nameId typeName name hinitial =>
      refine plain_mk rfl (List.forall_mem_cons.mpr ⟨plain_leaf rfl _ _ _ _, ?_⟩) id _ _ _
      refine List.forall_mem_cons.mpr ⟨plain_leaf rfl _ _ _ _, ?_⟩
      exact List.forall_mem_singleton.mpr hinitial.plain

theorem IsParameter.plain {t : Tree} (h : t.IsParameter) : t.Plain := by
  cases h with
  | bare id nameId name =>
      exact plain_mk rfl (List.forall_mem_singleton.mpr (plain_leaf rfl _ _ _ _)) id _ _ _
  | typed id typeId nameId typeName name =>
      refine plain_mk rfl (List.forall_mem_cons.mpr ⟨plain_leaf rfl _ _ _ _, ?_⟩) id _ _ _
      exact List.forall_mem_singleton.mpr (plain_leaf rfl _ _ _ _)

theorem IsFunction.plain {t : Tree} (h : t.IsFunction) : t.Plain := by
  obtain ⟨id, typeId, nameId, returnType, name, hlist⟩ := h
  refine plain_mk rfl (List.forall_mem_cons.mpr ⟨plain_leaf rfl _ _ _ _, ?_⟩) id _ _ _
  refine List.forall_mem_cons.mpr ⟨plain_leaf rfl _ _ _ _, ?_⟩
  cases hlist with
  | none => exact fun _ h => absurd h List.not_mem_nil
  | one listId _ hparameters =>
      refine List.forall_mem_singleton.mpr (plain_mk rfl ?_ listId _ _ _)
      intro p hp
      exact (hparameters p hp).plain

theorem IsClauseContent.plain {t : Tree} (h : t.IsClauseContent) : t.Plain := by
  cases h with
  | declaration h => exact h.plain
  | assignment _ h => exact h.plain
  | expression h => exact h.plain

theorem IsClause.plain {label : Lexeme} {t : Tree} (h : t.IsClause label) : t.Plain := by
  obtain ⟨id, hcontent⟩ := h
  exact plain_mk rfl (List.forall_mem_singleton.mpr hcontent.plain) id _ _ _

theorem IsStatement.plain {t : Tree} (h : t.IsStatement) : t.Plain := by
  cases h with
  | conditional id _ htest => exact plain_mk rfl htest.plain id _ _ _
  | whileLoop id htest => exact plain_mk rfl htest.plain id _ _ _
  | forLoop id _ hclauses =>
      refine plain_mk rfl ?_ id _ _ _
      intro c hc
      obtain ⟨label, -, hclause⟩ := exists_of_mem_of_forall₂ hclauses hc
      exact hclause.plain
  | returning id hvalue => exact plain_mk rfl hvalue.plain id _ _ _
  | assignment _ h => exact h.plain
  | expression id text h => exact plain_mk rfl (List.forall_mem_singleton.mpr h.plain) id _ _ _

end Tree

theorem Statement.Shaped.plain {s : Statement} {t : Tree} (h : s.Shaped t) : t.Plain := by
  obtain ⟨hfunction, hdeclaration, hother⟩ := h
  cases hf : s.isFunction with
  | true => exact (hfunction hf).plain
  | false =>
      cases hd : s.isDeclaration with
      | true => exact (hdeclaration hd).plain
      | false => exact (hother (by rw [hf, hd]; rfl)).plain

/-- What is extracted from lines makes plain trees. -/
theorem plain_of_mem_shares {outcomes : List Outcome}
    (h : ∀ outcome ∈ outcomes, ∀ s ∈ outcome.statement?, s.Ordered) (number first : Int) :
    ∀ t ∈ (shares number first outcomes).flatMap Share.trees, t.Plain := by
  induction outcomes generalizing number first with
  | nil =>
      intro t ht
      cases ht
  | cons outcome outcomes ih =>
      intro t ht
      rw [shares, List.flatMap_cons, List.mem_append] at ht
      rcases ht with ht | ht
      · -- the tree of a line, if there is one, has the shape of its statement
        have hordered := h outcome (List.mem_cons_self ..)
        unfold Outcome.share Outcome.toTree at ht
        cases hs : outcome.statement? with
        | none =>
            rw [hs] at ht
            cases ht
        | some s =>
            rw [hs] at ht
            obtain rfl := List.mem_singleton.mp ht
            exact (Statement.always_shaped (hordered s hs) first).plain
      · exact ih (fun other hother => h other (List.mem_cons_of_mem _ hother)) _ _ t ht

/-! ## How many nodes the lines have made -/

namespace Program

/-- Sorting trees by their kinds neither loses nor doubles any of them. -/
theorem sizeAll_sorted (trees : List Tree) :
    sizeAll (trees.filter Tree.isFunction) + sizeAll (trees.filter Tree.isDeclaration) +
      sizeAll (trees.filter Tree.isOther) = sizeAll trees := by
  induction trees with
  | nil => rfl
  | cons t trees ih =>
      rw [List.filter_cons, List.filter_cons, List.filter_cons, Tree.isOther]
      cases hf : t.isFunction with
      | true =>
          have hd := Tree.isDeclaration_of_isFunction hf
          simp only [hd, if_true, Bool.not_true, Bool.false_and, Bool.false_eq_true, if_false,
            sizeAll]
          omega
      | false =>
          cases hd : t.isDeclaration with
          | true =>
              simp only [if_true, Bool.not_true, Bool.and_false, Bool.false_eq_true, if_false,
                sizeAll]
              omega
          | false =>
              simp only [if_true, Bool.not_false, Bool.and_true, Bool.false_eq_true, if_false,
                sizeAll]
              omega

theorem countP_plain {ts : List Tree} (h : ∀ t ∈ ts, t.Plain) :
    (ts.flatMap walk).countP Tree.isMember = sizeAll ts := by
  induction ts with
  | nil => rfl
  | cons t ts ih =>
      have hall : t.walk.countP Tree.isMember = t.size := by
        rw [← length_walk, List.countP_eq_length]
        exact h t (List.mem_cons_self ..)
      rw [List.flatMap_cons, List.countP_append, hall,
        ih fun u hu => h u (List.mem_cons_of_mem _ hu), sizeAll]

/-- A group of the program does not count, its members do. -/
theorem countP_groupIfAny {kind : Kind} (hkind : kind.isProgramGroup = true) (label : Lexeme)
    {ts : List Tree} (h : ∀ t ∈ ts, t.Plain) (next : Int) :
    (((groupIfAny kind label ts).run next).1.flatMap walk).countP Tree.isMember = sizeAll ts := by
  cases ts with
  | nil => rfl
  | cons t ts =>
      show ([Tree.mk next kind label .keyword (t :: ts) true].flatMap walk).countP _ = _
      -- of the nodes of the group only the root is passed over
      have hroot : ¬ Tree.isMember (.mk next kind label .keyword (t :: ts) true) = true := by
        show ¬ (!kind.isProgramGroup) = true
        rw [hkind]
        decide
      rw [List.flatMap_cons, List.flatMap_nil, List.append_nil, Tree.mk, walk_node]
      exact (List.countP_cons_of_neg hroot).trans (countP_plain h)

theorem countP_sorted {trees : List Tree} (h : ∀ t ∈ trees, t.Plain) (next : Int) :
    ((sorted trees next).flatMap walk).countP Tree.isMember =
      sizeAll trees := by
  have hfilter : ∀ q : Tree → Bool, ∀ t ∈ trees.filter q, t.Plain := by
    intro q t ht
    exact h t (List.mem_filter.mp ht).1
  rw [sorted, List.flatMap_append, List.flatMap_append, List.countP_append, List.countP_append,
    countP_plain (hfilter _), countP_groupIfAny rfl _ (hfilter _),
    countP_groupIfAny rfl _ (hfilter _)]
  exact sizeAll_sorted trees

end Program

/-! ## Builds -/

theorem Place.takes_shift (place : Place) (m : Int) (t : Tree) :
    place.takes (t.shift m) = place.takes t := by
  cases place with
  | functions => rw [takes, Tree.isFunction, Tree.kind_shift, Tree.isFunction]
  | declarations => rw [takes, Tree.isDeclaration, Tree.kind_shift, Tree.isDeclaration]
  | statements =>
      simp only [takes, Tree.isOther, Tree.isFunction, Tree.isDeclaration, Tree.kind_shift]

/-- The remarks on a snippet. -/
def Built.diagnostics (b : Built) : List Diagnostic :=
  b.warnings.map Warning.diagnostic

namespace Reader

theorem ordered_of_lineOutcome {r : Reader} {settings : Settings} {line : Text}
    {outcome : Outcome} (h : r.lineOutcome settings line = .ok outcome) :
    ∀ s ∈ outcome.statement?, s.Ordered := by
  unfold lineOutcome at h
  split at h
  · cases h
    intro s hs
    cases hs
  · exact ordered_of_classify h

/-- What becomes of the lines of two texts is what becomes of those of each. -/
theorem lineOutcomes_append {r : Reader} {settings : Settings} {x y : Text}
    {before after : List Outcome} (hx : r.lineOutcomes settings x = .ok before)
    (hy : r.lineOutcomes settings y = .ok after) :
    r.lineOutcomes settings (x ++ '\n' :: y) = .ok (before ++ after) := by
  unfold lineOutcomes at hx hy ⊢
  rw [Text.lines_append, List.mapM_append, hx, hy]
  rfl

end Reader

namespace Assembler

variable {a : Assembler}

/-- The build of two snippets, `lines` lines of which belong to the first one, is put together from
the builds of each. -/
structure Joins (a : Assembler) (lines : Int) (first second both : Built) : Prop where
  /-- Every place holds what it holds for the first snippet, and then what it holds for the second
  one, with numbers that are greater by the number of nodes that the first one has made. -/
  places : ∀ place : Place, place.members both.tree = place.members first.tree ++
    (place.members second.tree).map (Tree.shift first.tree.memberCount)
  /-- The remarks follow each other. Those of every build are made once. -/
  diagnostics : both.diagnostics = first.diagnostics ++
    (second.diagnostics.drop a.standing.length).map (Diagnostic.move lines)

/-- The numbers that the lines take are known from the nodes of the tree. -/
theorem freeAfter_eq {text : Text} {outcomes : List Outcome} {built : Built}
    (h : a.reader.lineOutcomes a.settings text = .ok outcomes)
    (hsum : a.SumOf built (shares 1 2 outcomes)) :
    freeAfter 2 (shares 1 2 outcomes) = 2 + (built.tree.memberCount : Int) := by
  have hordered : ∀ outcome ∈ outcomes, ∀ s ∈ outcome.statement?, s.Ordered := by
    intro outcome houtcome
    obtain ⟨line, -, hline⟩ := exists_of_mem_of_forall₂ (forall₂_of_mapM_ok h) houtcome
    exact Reader.ordered_of_lineOutcome hline
  have hcount : built.tree.memberCount =
      sizeAll ((shares 1 2 outcomes).flatMap Share.trees) := by
    have hwalk : built.tree.walk.tail = built.tree.children.flatMap walk := by
      obtain ⟨value, children⟩ := built.tree
      rw [walk_node]
      rfl
    rw [Tree.memberCount, hwalk, hsum.children]
    exact Program.countP_sorted (plain_of_mem_shares hordered 1 2) _
  rw [hcount]
  exact (numbered_shares 1 2 outcomes).count

theorem joins_of_shares {x : Text} {before after : List Outcome} {first second both : Built}
    (hx : a.reader.lineOutcomes a.settings x = .ok before)
    (hfirst : a.SumOf first (shares 1 2 before)) (hsecond : a.SumOf second (shares 1 2 after))
    (hboth : a.SumOf both (shares 1 2 (before ++ after))) :
    a.Joins (x.count '\n' + 1) first second both := by
  have hlength : (before.length : Int) = x.count '\n' + 1 := by
    rw [← (forall₂_of_mapM_ok hx).length_eq, Text.length_lines]
    rfl
  -- the shares of the second snippet are moved to the end of those of the first one
  have hshares : shares 1 2 (before ++ after) = shares 1 2 before ++
      (shares 1 2 after).map (Share.move (x.count '\n' + 1) first.tree.memberCount) := by
    rw [shares_append, hlength, freeAfter_eq hx hfirst, shares_move]
  refine ⟨?_, ?_⟩
  · intro place
    have hfilter : ∀ ts : List Tree,
        (ts.map (Tree.shift first.tree.memberCount)).filter place.takes =
          (ts.filter place.takes).map (Tree.shift first.tree.memberCount) := by
      intro ts
      rw [List.filter_map]
      congr 1
      exact List.filter_congr fun t _ => place.takes_shift _ t
    rw [hboth.places, hfirst.places, hsecond.places, hshares, List.flatMap_append,
      List.filter_append, List.flatMap_map, ← hfilter, List.map_flatMap]
    rfl
  · have hlines : (second.warnings.drop a.standing.length) =
        (shares 1 2 after).flatMap Share.warnings := by
      rw [hsecond.warnings, List.drop_left]
    have hmoved : ((shares 1 2 after).map
        (Share.move (x.count '\n' + 1) first.tree.memberCount)).flatMap Share.warnings =
          ((shares 1 2 after).flatMap Share.warnings).map (Warning.move (x.count '\n' + 1)) := by
      rw [List.flatMap_map, List.map_flatMap]
      rfl
    rw [Built.diagnostics, Built.diagnostics, Built.diagnostics, ← List.map_drop, hlines,
      hboth.warnings, hfirst.warnings, hshares, List.flatMap_append, hmoved, ← List.append_assoc,
      List.map_append, List.map_map, List.map_map]
    rfl

/-- A name that is known leaves nothing to warn of. -/
theorem standing_eq_nil {settings : Settings} {frames : Nat} {name : Option String}
    (h : ofName settings frames name = .ok a)
    (hname : (Dialect.ofName? (name.getD settings.defaultDialect)).isSome = true) :
    a.standing = [] := by
  obtain ⟨dialect, replaced, hdialect, rfl⟩ := eq_of_ofName h
  obtain ⟨known, hknown⟩ := Option.isSome_iff_exists.mp hname
  unfold Settings.dialectFor at hdialect
  rw [hknown] at hdialect
  cases hdialect
  rfl

/-- **Lines do not know of each other.** The build of two snippets with a line feed between them is
put together from the builds of each. If the dialect was named by one of its names, there is
nothing that every build is warned of, and all remarks follow each other. -/
theorem joins_of_ofName {settings : Settings} {frames : Nat} {name : Option String}
    {a : Assembler} (h : ofName settings frames name = .ok a)
    (hline : a.dialect.isLineOriented = true) (x y : String) :
    ∃ first second both a₁ a₂ a₃, a.build x = .ok (first, a₁) ∧ a.build y = .ok (second, a₂) ∧
      a.build (x ++ "\n" ++ y) = .ok (both, a₃) ∧
      a.Joins (x.toList.count '\n' + 1) first second both ∧
      ((Dialect.ofName? (name.getD settings.defaultDialect)).isSome = true →
        both.diagnostics = first.diagnostics ++
          second.diagnostics.map (Diagnostic.move (x.toList.count '\n' + 1))) := by
  have hregular := regular_of_ofName h
  obtain ⟨before, first, a₁, hx, hfirst, hfirstSum⟩ := build_shares hregular hline x
  obtain ⟨after, second, a₂, hy, hsecond, hsecondSum⟩ := build_shares hregular hline y
  obtain ⟨outcomes, both, a₃, hxy, hboth, hbothSum⟩ := build_shares hregular hline (x ++ "\n" ++ y)
  have htext : (x ++ "\n" ++ y).toList = x.toList ++ '\n' :: y.toList := by
    rw [String.toList_append, String.toList_append, List.append_assoc]
    rfl
  rw [htext, Reader.lineOutcomes_append hx hy] at hxy
  cases hxy
  have hjoins := joins_of_shares hx hfirstSum hsecondSum hbothSum
  refine ⟨first, second, both, a₁, a₂, a₃, hfirst, hsecond, hboth, hjoins, ?_⟩
  intro hname
  have hdiagnostics := hjoins.diagnostics
  rw [standing_eq_nil h hname] at hdiagnostics
  exact hdiagnostics

/-- A declaration and a line that is left out, before a function head and a raw value. -/
theorem joins_python : ∃ a, ofName (.ofEnvironment .empty) 1000 (some "python") = .ok a ∧
    ∃ first second both a₁ a₂ a₃, a.build "int x\n) +" = .ok (first, a₁) ∧
      a.build "def f(n):\nx = @" = .ok (second, a₂) ∧
      a.build ("int x\n) +" ++ "\n" ++ "def f(n):\nx = @") = .ok (both, a₃) ∧
      a.Joins 2 first second both ∧
      both.diagnostics = first.diagnostics ++ second.diagnostics.map (Diagnostic.move 2) := by
  have hname : (Dialect.ofName? "python").isSome = true := by decide +kernel
  obtain ⟨first, second, both, a₁, a₂, a₃, hfirst, hsecond, hboth, hjoins, hall⟩ :=
    joins_of_ofName (ofName_label (.ofEnvironment .empty) 1000 .python) rfl "int x\n) +"
      "def f(n):\nx = @"
  exact ⟨_, ofName_label (.ofEnvironment .empty) 1000 .python, first, second, both, a₁, a₂, a₃,
    hfirst, hsecond, hboth, hjoins, hall hname⟩

end Assembler

end SnippetTree
