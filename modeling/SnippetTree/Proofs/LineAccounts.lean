import SnippetTree.Proofs.BuildNumbered
import SnippetTree.Proofs.Problems
import SnippetTree.Proofs.Shares

/-!
# Every line is accounted for

No line of a snippet is lost, taken twice or blamed on another one. A line either holds no statement
and adds nothing, not even a number; or it enters the tree with one node, in the place that the kind
of the node has; or it is left out, and its last warning says so. No line is in two of these cases
(`Verdict.Holds`), and the build is the sum of what its lines add (`Shares.lean`). So the nodes of a
place are in the order of their lines, and so are the warnings.

That a line which entered the tree is not reported as left out rests on `Problems.lean`: nothing
that is met while a line is read is a report of that sort.
-/

namespace SnippetTree

open SnippetTree.Numbering

/-! ## Places -/

namespace Place

/-- There is one place for every tree. -/
theorem existsUnique_takes (t : Tree) : ∃! place : Place, place.takes t = true := by
  cases hfunction : t.isFunction with
  | true =>
      refine ⟨functions, hfunction, ?_⟩
      rintro (_ | _ | _) hplace
      · rfl
      · simp [takes, Tree.isDeclaration_of_isFunction hfunction] at hplace
      · simp [takes, Tree.isOther, hfunction] at hplace
  | false =>
      cases hdeclaration : t.isDeclaration with
      | true =>
          refine ⟨declarations, hdeclaration, ?_⟩
          rintro (_ | _ | _) hplace
          · simp [takes, hfunction] at hplace
          · rfl
          · simp [takes, Tree.isOther, hdeclaration] at hplace
      | false =>
          refine ⟨statements, by simp [takes, Tree.isOther, hfunction, hdeclaration], ?_⟩
          rintro (_ | _ | _) hplace
          · simp [takes, hfunction] at hplace
          · simp [takes, hdeclaration] at hplace
          · rfl

end Place

/-! ## Verdicts -/

/-- The line is blank or a comment, or nothing but structure is left of it in normal form. -/
def Settings.holdsNoStatement (settings : Settings) (line : Text) : Bool :=
  settings.passesOver line || (Text.normalize (Text.trim line)).all Text.isStructural

/-- The warning says that its line was left out. -/
def Warning.isDrop (w : Warning) : Bool :=
  w.problem.code == "P105"

/-- The warning says that the name of a dialect was unknown. -/
def Warning.isReplacement (w : Warning) : Bool :=
  w.problem.code == "P106"

/-- Problems of reading give no warning that a line was left out, and none about a dialect. -/
theorem Warning.kind_of_ofReading {problems : List Problem} (h : Problem.OfReading problems)
    (line : Int) : ∀ w ∈ problems.map (fun problem => Warning.mk problem line),
      w.isDrop = false ∧ w.isReplacement = false := by
  intro w hw
  obtain ⟨problem, hproblem, rfl⟩ := List.mem_map.mp hw
  have hreading := h problem hproblem
  -- the two that would be said of more than a text that is read are no problems of reading
  cases problem with
  | droppedLine text => cases hreading
  | unknownDialect name used => cases hreading
  | _ => exact ⟨rfl, rfl⟩

namespace Share

/-- The line adds no node, takes no number, and is not warned of. -/
structure Silent (share : Share) : Prop where
  trees : share.trees = []
  next : share.next = share.first
  warnings : share.warnings = []

/-- The line adds one node to one place, its numbers are those of the nodes from there on, and no
warning says that it was left out. -/
structure Enters (share : Share) : Prop where
  tree : ∃ t, share.trees = [t] ∧ ∃! place : Place, place.takes t = true
  numbered : Numbered share.first share.trees share.next
  warnings : ∀ w ∈ share.warnings, w.isDrop = false

/-- The line adds no node and takes no number; its last warning, and no other, says that it was left
out. -/
structure Drops (share : Share) : Prop where
  trees : share.trees = []
  next : share.next = share.first
  warnings : ∃ before last, share.warnings = before ++ [last] ∧ last.isDrop = true ∧
    ∀ w ∈ before, w.isDrop = false

end Share

/-- What can be said of a line and its share. -/
inductive Verdict where
  | silent
  | entered
  | dropped
  deriving DecidableEq, Repr

/-- The verdict is true of a line with that share. The first verdict looks at the line, the other
two at what came of it. -/
def Verdict.Holds (settings : Settings) (line : Text) (share : Share) : Verdict → Prop
  | silent => settings.holdsNoStatement line = true
  | entered => share.Enters
  | dropped => share.Drops

/-- One verdict is true of the line; the share of a line without a statement is empty; and whatever
is said about the line bears its number. -/
structure Settled (settings : Settings) (line : Text) (share : Share) : Prop where
  verdict : ∃! verdict : Verdict, verdict.Holds settings line share
  silent : settings.holdsNoStatement line = true → share.Silent
  lines : ∀ w ∈ share.warnings, w.line = share.number

section Verdicts

variable {settings : Settings} {line : Text} {share : Share}

theorem Share.Enters.not_silent (h : share.Enters) : ¬ share.Silent := by
  intro hsilent
  obtain ⟨t, ht, -⟩ := h.tree
  rw [hsilent.trees] at ht
  cases ht

theorem Share.Drops.not_silent (h : share.Drops) : ¬ share.Silent := by
  intro hsilent
  obtain ⟨before, last, hwarnings, -⟩ := h.warnings
  rw [hsilent.warnings] at hwarnings
  exact List.append_ne_nil_of_right_ne_nil before (List.cons_ne_nil last []) hwarnings.symm

theorem Share.Enters.not_drops (h : share.Enters) : ¬ share.Drops := by
  intro hdrops
  obtain ⟨t, ht, -⟩ := h.tree
  rw [hdrops.trees] at ht
  cases ht

/-- A line without a statement, with an empty share, has no other verdict. -/
theorem Settled.of_silent (hline : settings.holdsNoStatement line = true)
    (hsilent : share.Silent) : Settled settings line share where
  verdict := by
    refine ⟨.silent, hline, ?_⟩
    rintro (_ | _ | _) hholds
    · rfl
    · exact absurd hsilent (Share.Enters.not_silent hholds)
    · exact absurd hsilent (Share.Drops.not_silent hholds)
  silent := fun _ => hsilent
  lines := by
    intro w hw
    rw [hsilent.warnings] at hw
    cases hw

theorem Settled.of_enters (hline : settings.holdsNoStatement line = false) (henters : share.Enters)
    (hlines : ∀ w ∈ share.warnings, w.line = share.number) : Settled settings line share where
  verdict := by
    refine ⟨.entered, henters, ?_⟩
    rintro (_ | _ | _) hholds
    · exact absurd hholds (Bool.eq_false_iff.mp hline)
    · rfl
    · exact absurd hholds henters.not_drops
  silent := fun h => absurd h (Bool.eq_false_iff.mp hline)
  lines := hlines

theorem Settled.of_drops (hline : settings.holdsNoStatement line = false) (hdrops : share.Drops)
    (hlines : ∀ w ∈ share.warnings, w.line = share.number) : Settled settings line share where
  verdict := by
    refine ⟨.dropped, hdrops, ?_⟩
    rintro (_ | _ | _) hholds
    · exact absurd hholds (Bool.eq_false_iff.mp hline)
    · exact absurd hdrops (Share.Enters.not_drops hholds)
    · rfl
  silent := fun h => absurd h (Bool.eq_false_iff.mp hline)
  lines := hlines

/-- A line that is warned of entered the tree or was left out. -/
theorem Settled.enters_or_drops (h : Settled settings line share) {w : Warning}
    (hw : w ∈ share.warnings) : share.Enters ∨ share.Drops := by
  obtain ⟨verdict, hholds, -⟩ := h.verdict
  cases verdict with
  | silent =>
      rw [(h.silent hholds).warnings] at hw
      cases hw
  | entered => exact .inl hholds
  | dropped => exact .inr hholds

end Verdicts

/-! ## From outcomes to verdicts -/

namespace Outcome

theorem line_of_mem_share {outcome : Outcome} {number first : Int} {w : Warning}
    (hw : w ∈ (outcome.share number first).warnings) : w.line = number := by
  obtain ⟨problem, -, rfl⟩ := List.mem_map.mp hw
  rfl

variable {rule : Rule} {problems : List Problem}

theorem enters_kept (s : Statement) (h : Problem.OfReading problems) (number first : Int) :
    ((kept rule s problems).share number first).Enters where
  tree := ⟨(s.toTree.run first).1, rfl, Place.existsUnique_takes _⟩
  numbered := s.makesTree first
  warnings := fun w hw => (Warning.kind_of_ofReading h number w hw).1

theorem drops_dropped (text : Lexeme) (h : Problem.OfReading problems) (number first : Int) :
    ((dropped rule text problems).share number first).Drops where
  trees := rfl
  next := rfl
  warnings := ⟨problems.map (⟨·, number⟩), ⟨.droppedLine text, number⟩, List.map_append, rfl,
    fun w hw => (Warning.kind_of_ofReading h number w hw).1⟩

end Outcome

namespace Reader

variable {r : Reader} {settings : Settings} {line : Text} {outcome : Outcome}

/-- **Whatever becomes of a line settles its account.** -/
theorem settled_of_lineOutcome (h : r.lineOutcome settings line = .ok outcome)
    (number first : Int) : Settled settings line (outcome.share number first) := by
  unfold lineOutcome at h
  split at h
  · rename_i hpass
    cases h
    exact .of_silent (by rw [Settings.holdsNoStatement, hpass, Bool.true_or]) ⟨rfl, rfl, rfl⟩
  · -- what is left to decide of the line is settled by its normal form
    rename_i hpass
    have hstructure : settings.holdsNoStatement line =
        (Text.normalize (Text.trim line)).all Text.isStructural := by
      rw [Settings.holdsNoStatement, Bool.eq_false_iff.mpr hpass, Bool.false_or]
    cases classified_of_classify h with
    | blank hblank => exact .of_silent (by rw [hstructure, hblank]; rfl) ⟨rfl, rfl, rfl⟩
    | structural _ hall => exact .of_silent (hstructure.trans hall) ⟨rfl, rfl, rfl⟩
    | @kept rule s problems hall _ hextract =>
        exact .of_enters (hstructure.trans hall)
          (Outcome.enters_kept s (Rule.ofReading_extract hextract) number first)
          fun _ hw => Outcome.line_of_mem_share hw
    | @dropped rule problems hall _ hextract =>
        exact .of_drops (hstructure.trans hall)
          (Outcome.drops_dropped _ (Rule.ofReading_extract hextract) number first)
          fun _ hw => Outcome.line_of_mem_share hw

/-- The account of every line is settled by its share. -/
theorem settled_shares {lines : List Text} {outcomes : List Outcome}
    (h : List.Forall₂ (fun line outcome => r.lineOutcome settings line = .ok outcome) lines
      outcomes)
    (number first : Int) :
    List.Forall₂ (Settled settings) lines (shares number first outcomes) := by
  induction h generalizing number first with
  | nil => exact .nil
  | cons hline _ ih => exact .cons (settled_of_lineOutcome hline number first) (ih _ _)

end Reader

/-! ## Line numbers -/

/-- Shares are numbered by their places. -/
theorem map_number_shares (number first : Int) (outcomes : List Outcome) :
    (shares number first outcomes).map Share.number = numbersFrom number outcomes.length := by
  induction outcomes generalizing number first with
  | nil => rfl
  | cons outcome outcomes ih =>
      have hhead : (outcome.share number first).number = number := rfl
      rw [shares, List.map_cons, ih, List.length_cons, Nat.add_comm, numbersFrom_add,
        numbersFrom_one, hhead]
      rfl

theorem pairwise_numbersFrom (first : Int) (count : Nat) :
    (numbersFrom first count).Pairwise (· < ·) := by
  refine List.pairwise_map.mpr (List.pairwise_lt_range.imp ?_)
  intro i j hij
  omega

/-- The warnings of shares that are in the order of their numbers are in that order too. -/
theorem pairwise_warnings {held : List Share} (hlines : ∀ share ∈ held,
      ∀ w ∈ share.warnings, w.line = share.number)
    (hnumbers : (held.map Share.number).Pairwise (· < ·)) :
    (held.flatMap Share.warnings).Pairwise fun v w => v.line ≤ w.line := by
  refine List.pairwise_flatMap.mpr ⟨?_, ?_⟩
  · intro share hshare
    refine List.pairwise_of_forall_mem_list ?_
    intro v hv w hw
    exact Int.le_of_eq ((hlines share hshare v hv).trans (hlines share hshare w hw).symm)
  · refine (List.pairwise_map.mp hnumbers).imp_of_mem ?_
    intro share other hshare hother hlt v hv w hw
    rw [hlines share hshare v hv, hlines other hother w hw]
    omega

/-! ## Builds -/

namespace Assembler

variable {a : Assembler}

/-- The books of a build: one share for each line of the text, and nothing else. -/
structure Accounts (a : Assembler) (text : String) (built : Built) (shares : List Share) : Prop
    extends a.SumOf built shares where
  /-- The warnings of every build are about the name of the dialect. -/
  standing : ∀ w ∈ a.standing, w.isReplacement = true
  settled : List.Forall₂ (Settled a.settings) (Text.lines text.toList) shares
  /-- Lines are counted from one. -/
  numbers : shares.map Share.number = numbersFrom 1 (Text.lines text.toList).length
  /-- The warnings of the lines are in the order of the lines. -/
  order : (shares.flatMap Share.warnings).Pairwise fun v w => v.line ≤ w.line
  /-- Each of them bears the number of a line that entered the tree or was left out. -/
  carried : ∀ w ∈ shares.flatMap Share.warnings,
    ∃ share ∈ shares, w.line = share.number ∧ (share.Enters ∨ share.Drops)

/-- Setting up an assembler leaves no other warning than that of an unknown name. -/
theorem isReplacement_standing {settings : Settings} {frames : Nat} {name : Option String}
    (h : ofName settings frames name = .ok a) : ∀ w ∈ a.standing, w.isReplacement = true := by
  obtain ⟨dialect, replaced, -, rfl⟩ := eq_of_ofName h
  intro w hw
  obtain ⟨name, -, rfl⟩ := List.mem_map.mp hw
  rfl

/-- **Every line of a snippet is accounted for**: each has one share of the build, and the build is
what the shares add up to. The first share begins with the number after that of the root. -/
theorem accounts_of_ofName {settings : Settings} {frames : Nat} {name : Option String}
    (h : ofName settings frames name = .ok a) (hline : a.dialect.isLineOriented = true)
    (text : String) : ∃ outcomes built after,
      a.reader.lineOutcomes a.settings text.toList = .ok outcomes ∧
      a.build text = .ok (built, after) ∧ a.Accounts text built (shares 1 2 outcomes) := by
  obtain ⟨outcomes, built, after, houtcomes, hbuild, hsum⟩ :=
    build_shares (regular_of_ofName h) hline text
  refine ⟨outcomes, built, after, houtcomes, hbuild, ?_⟩
  have hread := forall₂_of_mapM_ok houtcomes
  have hsettled := Reader.settled_shares hread 1 2
  have hlines : ∀ share ∈ shares 1 2 outcomes, ∃ line, Settled a.settings line share := by
    intro share hshare
    obtain ⟨line, -, hline⟩ := exists_of_mem_of_forall₂ hsettled hshare
    exact ⟨line, hline⟩
  have hnumbers := map_number_shares 1 2 outcomes
  exact {
    toSumOf := hsum
    standing := isReplacement_standing h
    settled := hsettled
    numbers := by rw [hnumbers, hread.length_eq]
    order := by
      refine pairwise_warnings ?_ (hnumbers ▸ pairwise_numbersFrom 1 _)
      intro share hshare
      obtain ⟨line, hline⟩ := hlines share hshare
      exact hline.lines
    carried := by
      intro w hw
      obtain ⟨share, hshare, hmem⟩ := List.mem_flatMap.mp hw
      obtain ⟨line, hline⟩ := hlines share hshare
      exact ⟨share, hshare, hline.lines w hmem, hline.enters_or_drops hmem⟩ }

/-- A declaration, a blank line, a comment, a closing brace, a line that is left out, and a raw
value. -/
theorem accounts_c : ∃ a, ofName (.ofEnvironment .empty) 1000 (some "c") = .ok a ∧
    ∃ outcomes built after,
      a.reader.lineOutcomes a.settings "int x;\n \n// y\n\x7d\n) +;\nx = @;".toList = .ok outcomes ∧
      a.build "int x;\n \n// y\n\x7d\n) +;\nx = @;" = .ok (built, after) ∧
      a.Accounts "int x;\n \n// y\n\x7d\n) +;\nx = @;" built (shares 1 2 outcomes) :=
  ⟨_, ofName_label (.ofEnvironment .empty) 1000 .c,
    accounts_of_ofName (ofName_label (.ofEnvironment .empty) 1000 .c) rfl _⟩

end Assembler

end SnippetTree
