/-!
# Faults

Taking a statement out of a line relies on parts that the recognition of the line has seen. Where
such a part is missing after all, the extraction says which one. No fault arises from a line whose
rule accepts it.
-/

namespace SnippetTree

/-- A part that an extraction needs and does not find. -/
inductive Fault where
  /-- No opening parenthesis in the head of a function. -/
  | noOpener
  /-- No closing parenthesis in the head of a function. -/
  | noCloser
  /-- No word where a type or a name is taken from. -/
  | noWord
  /-- No header word at the beginning of a condition. -/
  | noHeader
  /-- No assignment operator in an assignment. -/
  | noAssignment
  /-- No rule to fall back on. -/
  | noRule
  deriving DecidableEq, Repr

end SnippetTree
