import SnippetTree.Program

/-!
# Assembling trees

An assembler is set up once for a dialect and then builds the trees of any number of snippets. If
the name of the dialect was unknown and had to be replaced, each tree comes with a warning of it,
before all others. An assembler keeps the warnings of its last build and nothing else, and no
build looks at them.
-/

namespace SnippetTree

/-- Builds the trees of snippets of one dialect. -/
structure Assembler where
  settings : Settings
  reader : Reader
  /-- Warnings that belong to every build. -/
  standing : List Warning
  /-- The warnings of the last build; none before the first one. -/
  warnings : List Warning

/-- What a build gives. -/
structure Built where
  tree : Tree
  warnings : List Warning
  /-- The number that the next node would have had. -/
  next : Int
  notes : List Note

namespace Assembler

/-- Sets up an assembler for a dialect, or for the default dialect if none is named. Parses may
use that many call frames. -/
def ofName (settings : Settings) (frames : Nat) (name : Option String) :
    Except Dialect.Unknown Assembler := do
  let (dialect, replaced) ← settings.dialectFor (name.getD settings.defaultDialect)
  return {
    settings
    reader := .ofDialect dialect frames
    standing := replaced.toList.map fun name => ⟨.unknownDialect name dialect.label, 0⟩
    warnings := [] }

/-- The dialect of the snippets. -/
def dialect (a : Assembler) : Dialect :=
  a.reader.spec.dialect

/-- The notes on setting up the assembler. -/
def setupNotes (a : Assembler) : List Note :=
  a.standing.filterMap fun
    | ⟨.unknownDialect name _, _⟩ => some (.replacedDialect name a.dialect)
    | _ => none

/-- Builds the tree of a snippet. -/
def build (a : Assembler) (text : String) : Except Fault (Built × Assembler) := do
  let understood ← a.reader.understand a.settings text.toList
  let (tree, next) := (understood.program.toTree a.reader.spec.title).run 1
  let warnings := a.standing ++ understood.warnings
  let notes := understood.notes ++ [.built a.dialect (next - 1) warnings.length]
  return ({ tree, warnings, next, notes }, { a with warnings })

/-- Builds the trees of several snippets one after the other. -/
def buildAll (a : Assembler) : List String → Except Fault (List Built × Assembler)
  | [] => return ([], a)
  | text :: texts => do
    let (built, a) ← a.build text
    let (more, a) ← a.buildAll texts
    return (built :: more, a)

/-- The last build gave warnings. -/
def hasWarnings (a : Assembler) : Bool :=
  !a.warnings.isEmpty

end Assembler

end SnippetTree
