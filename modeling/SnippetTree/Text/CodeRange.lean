/-!
# Sets of code points

The classes of characters that reach beyond ASCII are written as tables of code points: a class is
a list of inclusive ranges in increasing order, a one-to-one map a list of runs. The tables are
those of version 14 of the character data base.
-/

namespace SnippetTree.Text

/-- The code point lies in one of the inclusive ranges. -/
def inRanges (ranges : List (Nat × Nat)) (code : Nat) : Bool :=
  ranges.any fun range => range.1 ≤ code && code ≤ range.2

/-- A run of code points that are all moved by the same distance: those from `first` to `last`
in steps of `step`, the first of them going to `target`. -/
structure CodeRun where
  first : Nat
  last : Nat
  step : Nat
  target : Nat

namespace CodeRun

/-- The code point is one that the run moves. -/
def covers (run : CodeRun) (code : Nat) : Bool :=
  run.first ≤ code && code ≤ run.last && (code - run.first) % run.step == 0

/-- Where a list of runs sends a code point; one that no run covers stays. -/
def move (runs : List CodeRun) (code : Nat) : Nat :=
  match runs.find? (·.covers code) with
  | some run => run.target + (code - run.first)
  | none => code

end CodeRun

end SnippetTree.Text
