import SnippetTree.Proofs.LineAccounts
import SnippetTree.Proofs.LineIndependence

/-!
# The name of a dialect and the builds of an assembler

Two things are settled when an assembler is set up. One is its dialect: the requested one if there
is such a dialect, else the default one, else that of flat expressions (`Settings.Resolves`); only
strict settings refuse a name. The other is what heads the remarks of every build: nothing, or one
remark that the name was unknown (`NameRemarks`).

After that no build has an effect on a later one. A build replaces the warnings that the assembler
keeps and nothing else, and it does not read them (`Assembler.build_of_kept`). By induction over a
run, each snippet gets the tree and the remarks that it would get from an assembler which was set up
for the dialect by its own name and has built nothing (`Assembler.buildAll_builtAs`).
-/

namespace SnippetTree

/-! ## Names -/

/-- In a list in which no key occurs twice, what is looked up is what is listed. -/
theorem lookup_eq_some_iff_mem {α β : Type} [BEq α] [LawfulBEq α] {l : List (α × β)}
    (h : (l.map Prod.fst).Nodup) {key : α} {value : β} :
    l.lookup key = some value ↔ (key, value) ∈ l := by
  rw [List.lookup_eq_some_iff]
  constructor
  · rintro ⟨before, after, rfl, -⟩
    exact List.mem_append_right _ (List.mem_cons_self ..)
  · intro hmem
    obtain ⟨before, after, rfl⟩ := List.append_of_mem hmem
    refine ⟨before, after, rfl, fun entry hentry => ?_⟩
    rw [List.map_append, List.map_cons] at h
    have hne := (List.nodup_append.mp h).2.2 entry.1 (List.mem_map_of_mem hentry) key
      (List.mem_cons_self ..)
    simpa using fun heq => hne heq.symm

namespace Dialect

/-- The dialect answers to the name: the name is one of its aliases, apart from white space around
it and from the case of its letters. -/
def Answers (dialect : Dialect) (name : String) : Prop :=
  (String.ofList (Text.lower (Text.trim name.toList)), dialect) ∈ aliases

/-- Some dialect answers to the name. -/
def Known (name : String) : Prop :=
  ∃ dialect : Dialect, dialect.Answers name

variable {name : String} {dialect : Dialect}

theorem ofName?_eq_some_iff : ofName? name = some dialect ↔ dialect.Answers name :=
  lookup_eq_some_iff_mem (by decide)

theorem ofName?_eq_none_iff : ofName? name = none ↔ ¬ Known name := by
  rw [Option.eq_none_iff_forall_ne_some]
  constructor
  · rintro h ⟨dialect, hdialect⟩
    exact h dialect (ofName?_eq_some_iff.mpr hdialect)
  · intro h dialect hdialect
    exact h ⟨dialect, ofName?_eq_some_iff.mp hdialect⟩

theorem spec_dialect (dialect : Dialect) : dialect.spec.dialect = dialect := by
  cases dialect <;> rfl

end Dialect

namespace Settings

/-- The dialect that is used if a name is requested and not refused. -/
inductive Resolves (settings : Settings) (requested : String) : Dialect → Prop where
  | requested {dialect : Dialect} : dialect.Answers requested →
      Resolves settings requested dialect
  | default {dialect : Dialect} : ¬ Dialect.Known requested →
      dialect.Answers settings.defaultDialect → Resolves settings requested dialect
  | expression : ¬ Dialect.Known requested → ¬ Dialect.Known settings.defaultDialect →
      Resolves settings requested .expression

variable {settings : Settings} {requested : String}

theorem dialectFor_eq_error_iff {e : Dialect.Unknown} :
    settings.dialectFor requested = .error e ↔
      settings.strict = true ∧ ¬ Dialect.Known requested ∧ e = ⟨requested⟩ := by
  rw [dialectFor, ← Dialect.ofName?_eq_none_iff]
  cases Dialect.ofName? requested with
  | some dialect => simp
  | none => cases settings.strict <;> simp [eq_comm]

/-- A name is noted as replaced if and only if it is unknown. -/
theorem resolves_of_dialectFor {dialect : Dialect} {replaced : Option String}
    (h : settings.dialectFor requested = .ok (dialect, replaced)) :
    settings.Resolves requested dialect ∧
      (Dialect.Known requested ∧ replaced = none ∨
        ¬ Dialect.Known requested ∧ replaced = some requested) := by
  rw [dialectFor] at h
  cases hrequested : Dialect.ofName? requested with
  | some known =>
      rw [hrequested] at h
      cases h
      have hanswers := Dialect.ofName?_eq_some_iff.mp hrequested
      exact ⟨.requested hanswers, .inl ⟨⟨_, hanswers⟩, rfl⟩⟩
  | none =>
      have hunknown := Dialect.ofName?_eq_none_iff.mp hrequested
      rw [hrequested] at h
      dsimp only at h
      split at h
      · cases h
      · cases h
        refine ⟨?_, .inr ⟨hunknown, rfl⟩⟩
        cases hdefault : Dialect.ofName? settings.defaultDialect with
        | some dialect => exact .default hunknown (Dialect.ofName?_eq_some_iff.mp hdefault)
        | none => exact .expression hunknown (Dialect.ofName?_eq_none_iff.mp hdefault)

end Settings

/-! ## Remarks on the name of a dialect -/

/-- What the remarks of every build begin with: nothing if the requested name is known, else one
remark, on no line in particular, that it is not and what is used instead. -/
inductive NameRemarks (requested : String) (used : Dialect) : List Diagnostic → Prop where
  | known : Dialect.Known requested → NameRemarks requested used []
  | replaced {d : Diagnostic} : ¬ Dialect.Known requested → d.line = 0 → d.code = some "P106" →
      d.message = (Problem.unknownDialect requested used.label).message →
      NameRemarks requested used [d]

namespace Reader

variable {r : Reader} {settings : Settings}

theorem not_isReplacement_of_classify {rules : List Rule} {text : Text} {outcome : Outcome}
    (h : r.classify rules text = .ok outcome) (line : Int) :
    ∀ w ∈ outcome.warnings line, w.isReplacement = false := by
  cases classified_of_classify h with
  | blank => simp [Outcome.warnings, Outcome.problems]
  | structural => simp [Outcome.warnings, Outcome.problems]
  | kept _ _ hextract =>
      exact fun w hw => (Warning.kind_of_ofReading (Rule.ofReading_extract hextract) line w hw).2
  | dropped _ _ hextract =>
      rw [Outcome.warnings, Outcome.problems, List.map_append, List.forall_mem_append]
      refine ⟨fun w hw => ?_, List.forall_mem_singleton.mpr rfl⟩
      exact (Warning.kind_of_ofReading (Rule.ofReading_extract hextract) line w hw).2

/-- Nothing in a snippet is understood as the name of a dialect. -/
theorem not_isReplacement_of_understand {text : Text} {understood : Understood}
    (h : r.understand settings text = .ok understood) :
    ∀ w ∈ understood.warnings, w.isReplacement = false := by
  unfold understand at h
  split at h
  · obtain ⟨outcomes, houtcomes, heq⟩ := exists_of_bind_ok h
    cases heq
    intro w hw
    obtain ⟨outcome, hmem, hw⟩ := List.mem_flatMap.mp hw
    obtain ⟨line, -, hline⟩ := exists_of_mem_of_forall₂ (forall₂_of_mapM_ok houtcomes) hmem
    obtain ⟨outcome', hclassify, heq⟩ := exists_of_bind_ok hline
    cases heq
    exact not_isReplacement_of_classify hclassify _ w hw
  · cases h
    exact fun w hw => (Warning.kind_of_ofReading (r.ofReading_read _) 1 w hw).2

end Reader

/-! ## Builds -/

/-- What a fresh assembler gives for the snippet, after some remarks. The fresh one has nothing to
say about the name of the dialect. -/
def BuiltAs (fresh : Assembler) (lead : List Diagnostic) (text : String) (built : Built) : Prop :=
  ∃ plain after, fresh.build text = .ok (plain, after) ∧ built.tree = plain.tree ∧
    built.diagnostics = lead ++ plain.diagnostics ∧
    ∀ d ∈ plain.diagnostics, d.code ≠ some "P106"

namespace Assembler

/-- The second assembler is set up like the first one, and has nothing to say about a name. -/
structure Plain (a fresh : Assembler) : Prop where
  reader : fresh.reader = a.reader
  settings : fresh.settings = a.settings
  standing : fresh.standing = []

variable {a fresh : Assembler}

/-- A build does not look at the warnings that were kept of an earlier one. -/
theorem Plain.of_kept (h : a.Plain fresh) (kept : List Warning) :
    ({ a with warnings := kept } : Assembler).Plain fresh :=
  ⟨h.reader, h.settings, h.standing⟩

/-- **One build**: it succeeds, leaves the assembler as it was but for the warnings, which are its
own, and gives what a fresh assembler gives. -/
theorem build_builtAs (h : a.Plain fresh) (hspec : a.reader.spec.Regular) (text : String) :
    ∃ built, a.build text = .ok (built, { a with warnings := built.warnings }) ∧
      BuiltAs fresh (a.standing.map Warning.diagnostic) text built := by
  obtain ⟨understood, hunderstood⟩ := Reader.understand_ok hspec a.settings text.toList
  have hplain : fresh.reader.understand fresh.settings text.toList = .ok understood := by
    rw [h.reader, h.settings, hunderstood]
  unfold BuiltAs build
  rw [hunderstood, hplain]
  refine ⟨_, rfl, _, _, rfl, by rw [h.reader], ?_, ?_⟩
  · rw [Built.diagnostics, Built.diagnostics, h.standing, List.nil_append, ← List.map_append]
  · intro d hd hcode
    rw [Built.diagnostics, h.standing, List.nil_append] at hd
    obtain ⟨w, hw, rfl⟩ := List.mem_map.mp hd
    have hnot := Reader.not_isReplacement_of_understand hunderstood w hw
    rw [Warning.isReplacement, Option.some.inj hcode] at hnot
    exact absurd hnot (by decide)

/-- The warnings that are kept after some builds, if others were kept before. -/
def keptAfter (kept : List Warning) (builts : List Built) : List Warning :=
  (builts.getLast?.map (·.warnings)).getD kept

theorem keptAfter_cons (kept : List Warning) (built : Built) (builts : List Built) :
    keptAfter kept (built :: builts) = keptAfter built.warnings builts := by
  rw [keptAfter, keptAfter, List.getLast?_cons]
  cases builts.getLast? <;> rfl

/-- **Any number of builds**: each of them gives what a fresh assembler gives, and all that is left
of them are the warnings of the last one. -/
theorem buildAll_builtAs (h : a.Plain fresh) (hspec : a.reader.spec.Regular)
    (texts : List String) :
    ∃ builts,
      a.buildAll texts = .ok (builts, { a with warnings := keptAfter a.warnings builts }) ∧
      List.Forall₂ (BuiltAs fresh (a.standing.map Warning.diagnostic)) texts builts := by
  -- the induction is on the snippets; what was kept so far changes from step to step
  induction texts generalizing a with
  | nil => exact ⟨[], rfl, .nil⟩
  | cons text texts ih =>
      obtain ⟨built, hbuild, hbuilt⟩ := build_builtAs h hspec text
      obtain ⟨builts, hbuilds, hbuilts⟩ := ih (h.of_kept built.warnings) hspec
      refine ⟨built :: builts, ?_, .cons hbuilt hbuilts⟩
      unfold buildAll
      rw [hbuild, keptAfter_cons]
      simp only [bind, Except.bind, hbuilds]
      rfl

variable {settings : Settings} {frames : Nat} {name : Option String}

theorem ofName_eq_error_iff {e : Dialect.Unknown} :
    ofName settings frames name = .error e ↔ settings.strict = true ∧
      ¬ Dialect.Known (name.getD settings.defaultDialect) ∧
      e = ⟨name.getD settings.defaultDialect⟩ := by
  rw [← Settings.dialectFor_eq_error_iff]
  unfold ofName
  cases settings.dialectFor (name.getD settings.defaultDialect) <;>
    simp [bind, Except.bind, pure, Except.pure]

/-- What an assembler is set up with. -/
theorem resolves_of_ofName (h : ofName settings frames name = .ok a) :
    settings.Resolves (name.getD settings.defaultDialect) a.dialect ∧
      NameRemarks (name.getD settings.defaultDialect) a.dialect
        (a.standing.map Warning.diagnostic) ∧
      a.warnings = [] ∧
      ∃ fresh, ofName settings frames (some a.dialect.label) = .ok fresh ∧ a.Plain fresh := by
  obtain ⟨dialect, replaced, hdialect, heq⟩ := eq_of_ofName h
  obtain ⟨hresolves, hreplaced⟩ := Settings.resolves_of_dialectFor hdialect
  have hused : a.dialect = dialect := by
    rw [heq]
    exact dialect.spec_dialect
  rw [hused]
  subst heq
  refine ⟨hresolves, ?_, rfl, _, ofName_label settings frames dialect, rfl, rfl, rfl⟩
  rcases hreplaced with ⟨hknown, rfl⟩ | ⟨hunknown, rfl⟩
  · exact .known hknown
  · exact .replaced hunknown rfl rfl rfl

/-- **What the name of a dialect settles, and what builds leave behind.** A name is refused if and
only if the settings are strict and no dialect answers to it. Otherwise the dialect is the one that
the name is resolved to, and in any run of builds each snippet gets the tree and, after the remarks
on the name, the remarks that it gets from an assembler that was set up for that dialect and has
built nothing. -/
theorem resolution_and_history (settings : Settings) (frames : Nat) (name : Option String) :
    let requested := name.getD settings.defaultDialect
    (∀ e, ofName settings frames name = .error e ↔
      settings.strict = true ∧ ¬ Dialect.Known requested ∧ e = ⟨requested⟩) ∧
    ∀ a, ofName settings frames name = .ok a →
      settings.Resolves requested a.dialect ∧
      ∃ fresh lead, ofName settings frames (some a.dialect.label) = .ok fresh ∧
        NameRemarks requested a.dialect lead ∧
        ∀ texts, ∃ builts,
          a.buildAll texts = .ok (builts, { a with warnings := keptAfter [] builts }) ∧
          List.Forall₂ (BuiltAs fresh lead) texts builts := by
  refine ⟨fun e => ofName_eq_error_iff, fun a h => ?_⟩
  obtain ⟨hresolves, hremarks, hwarnings, fresh, hfresh, hplain⟩ := resolves_of_ofName h
  refine ⟨hresolves, fresh, _, hfresh, hremarks, fun texts => ?_⟩
  have hbuilds := buildAll_builtAs hplain (regular_of_ofName h) texts
  rwa [hwarnings] at hbuilds

/-- An unknown name is replaced by a default that is written with a space and a capital. -/
theorem resolution_and_history_java :
    ∃ a, ofName ⟨" Java", ["//"], false⟩ 1000 (some "cobol") = .ok a ∧ a.dialect = .java ∧
      Settings.Resolves ⟨" Java", ["//"], false⟩ "cobol" a.dialect ∧
      ∃ fresh lead, ofName ⟨" Java", ["//"], false⟩ 1000 (some a.dialect.label) = .ok fresh ∧
        NameRemarks "cobol" a.dialect lead ∧
        ∀ texts, ∃ builts,
          a.buildAll texts = .ok (builts, { a with warnings := keptAfter [] builts }) ∧
          List.Forall₂ (BuiltAs fresh lead) texts builts := by
  have hname : Dialect.ofName? "cobol" = none := by decide +kernel
  have hdefault : Dialect.ofName? " Java" = some .java := by decide +kernel
  have hdialect : Settings.dialectFor ⟨" Java", ["//"], false⟩ "cobol" =
      .ok (.java, some "cobol") := by
    rw [Settings.dialectFor, hname, hdefault]
    rfl
  have hok : ofName ⟨" Java", ["//"], false⟩ 1000 (some "cobol") = .ok
      { settings := ⟨" Java", ["//"], false⟩
        reader := .ofDialect .java 1000
        standing := [⟨.unknownDialect "cobol" "java", 0⟩]
        warnings := [] } := by
    unfold ofName
    rw [Option.getD_some, hdialect]
    rfl
  exact ⟨_, hok, rfl, (resolution_and_history _ 1000 (some "cobol")).2 _ hok⟩

end Assembler

end SnippetTree
