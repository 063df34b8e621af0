import SnippetTree.Dialect
import SnippetTree.Text.Blank

/-!
# Settings

Three settings govern how snippets are assembled. Each is taken from what is asked for, else from
the environment, else from a default. The environment is a value like any other here; whoever runs
the library fills it in.
-/

namespace SnippetTree

/-- What the environment says about the settings. -/
structure Environment where
  /-- The name of the default dialect. -/
  dialect : Option String
  /-- The comment marks, separated by commas. -/
  commentMarks : Option String
  /-- Whether unknown dialects are refused, as a yes or a no. -/
  strict : Option String
  deriving DecidableEq, Repr

/-- The environment that says nothing. -/
def Environment.empty : Environment := ⟨none, none, none⟩

/-- What is asked for. -/
structure Request where
  defaultDialect : Option String
  commentMarks : Option (List String)
  strict : Option Bool
  deriving DecidableEq, Repr

/-- Nothing is asked for. -/
def Request.isEmpty (request : Request) : Bool :=
  request.defaultDialect.isNone && request.commentMarks.isNone && request.strict.isNone

/-- The settings of an assembly. -/
structure Settings where
  /-- The dialect of snippets for which none is named or an unknown one. -/
  defaultDialect : String
  /-- What a comment line begins with. -/
  commentMarks : List String
  /-- An unknown dialect is refused instead of replaced. -/
  strict : Bool
  deriving DecidableEq, Repr

namespace Settings

/-- The given name unless it is missing or empty. -/
def named (name : Option String) : Option String :=
  name.filter (! ·.isEmpty)

/-- The parts of a comma-separated list that hold anything, trimmed. -/
def listed (text : String) : List String :=
  (((Text.splitAt ',' text.toList).map Text.trim).filter (! ·.isEmpty)).map String.ofList

/-- The words that say yes. -/
def affirmatives : List String := ["1", "true", "yes", "on"]

/-- The text says yes. -/
def isAffirmative (text : String) : Bool :=
  affirmatives.contains (String.ofList (Text.lower (Text.trim text.toList)))

/-- The settings that are asked for, completed from the environment and the defaults. -/
def ofRequest (env : Environment) (request : Request) : Settings where
  defaultDialect := ((named request.defaultDialect).or (named env.dialect)).getD "expression"
  commentMarks :=
    (request.commentMarks.or ((named env.commentMarks).map listed)).getD ["//", "#"]
  strict := request.strict.getD ((env.strict.map isAffirmative).getD false)

/-- The settings when nobody asks for anything. -/
def ofEnvironment (env : Environment) : Settings :=
  ofRequest env ⟨none, none, none⟩

/-- The settings that are asked for. If nothing is, they are the ones that were made at set-up, from
the environment as it was then. -/
def choose (atSetup env : Environment) (request : Request) : Settings :=
  if request.isEmpty then ofEnvironment atSetup else ofRequest env request

/-- The trimmed line is a comment. -/
def isComment (settings : Settings) (line : Text) : Bool :=
  settings.commentMarks.any fun mark => mark.toList.isPrefixOf line

/-- The comment marks between parentheses; a single one is followed by a comma. -/
def describeMarks : List String → String
  | [mark] => "(" ++ quoted mark ++ ",)"
  | marks => "(" ++ ", ".intercalate (marks.map quoted) ++ ")"

/-- The settings in one line. -/
def describe (settings : Settings) : String :=
  "ParserConfig(default_dialect='" ++ settings.defaultDialect ++ "', comment_prefixes=" ++
    describeMarks settings.commentMarks ++ ", strict_dialects=" ++
    (if settings.strict then "True" else "False") ++ ")"

/-! ## Choosing a dialect -/

/-- The dialect for a requested name, and the problem that there is with the name. An unknown name
is refused under strict settings and otherwise stands for the default dialect, or for flat
expressions if the default is unknown too. -/
def dialectFor (settings : Settings) (name : String) :
    Except Dialect.Unknown (Dialect × Option String) :=
  match Dialect.ofName? name with
  | some dialect => .ok (dialect, none)
  | none =>
    if settings.strict then .error ⟨name⟩
    else .ok ((Dialect.ofName? settings.defaultDialect).getD .expression, some name)

end Settings

end SnippetTree
