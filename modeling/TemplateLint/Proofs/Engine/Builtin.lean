import TemplateLint.Proofs.Correction.Settled
import TemplateLint.Proofs.Engine.Build
import TemplateLint.Proofs.Engine.Iteration
import TemplateLint.Proofs.Engine.Single
import TemplateLint.Proofs.Registry
import TemplateLint.Proofs.Selection

/-!
# Passes of built-in linters

Built-in linters propose the changes that their options ask for, and a
selection among the corrections makes a pass over the text.
-/

namespace TemplateLint

open Text Script

/-- Different built-in linters with options that fit them. -/
structure AreBuiltin (linters : List (LinterClass × LinterConfig)) : Prop where
  known : ∀ linter ∈ linters, linter.1 ∈ LinterClass.builtin
  distinct : (linters.map fun linter => linter.1.name).Nodup
  fits : ∀ linter ∈ linters, linter.2.own.Fits linter.1.schema

/-- The own option of a class that is among the linters. -/
def ownOption? (linters : List (LinterClass × LinterConfig))
    (linterClass : LinterClass) : Option OwnOption :=
  (linters.find? fun linter => linter.1.name = linterClass.name).map (·.2.own)

def OwnOption.flag? : OwnOption → Option Bool
  | .present flag => some flag
  | _ => Option.none

def OwnOption.style? : OwnOption → Option TrimMark
  | .enforcedStyle style => some style
  | _ => Option.none

/-- The width of tabs, which is positive. -/
def OwnOption.width? : OwnOption → Option Nat
  | .tabWidth width => if 0 < width then some width else Option.none
  | _ => Option.none

theorem OwnOption.width?_eq_some_iff {own : OwnOption} {width : Nat} :
    own.width? = some width ↔ own = .tabWidth width ∧ 0 < width := by
  cases own with
  | tabWidth given =>
      simp only [width?, Option.ite_none_right_eq_some, Option.some.injEq,
        tabWidth.injEq]
      constructor
      · rintro ⟨positive, rfl⟩
        exact ⟨rfl, positive⟩
      · rintro ⟨rfl, positive⟩
        exact ⟨positive, rfl⟩
  | none => simp [width?]
  | present _ => simp [width?]
  | enforcedStyle _ => simp [width?]

theorem OwnOption.flag?_eq_some_iff {own : OwnOption} {flag : Bool} :
    own.flag? = some flag ↔ own = .present flag := by
  cases own <;> simp [flag?]

theorem OwnOption.style?_eq_some_iff {own : OwnOption} {style : TrimMark} :
    own.style? = some style ↔ own = .enforcedStyle style := by
  cases own <;> simp [style?]

/-- The correcting linters among built-in ones. -/
def Fixers.ofLinters (linters : List (LinterClass × LinterConfig)) : Fixers where
  finalNewline := (ownOption? linters .finalNewline).bind (·.flag?)
  rightTrim := (ownOption? linters .rightTrim).bind (·.style?)
  spaceAroundErbTag := (ownOption? linters .spaceAroundErbTag).isSome
  spaceIndentation := (ownOption? linters .spaceIndentation).bind (·.width?)
  trailingWhitespace := (ownOption? linters .trailingWhitespace).isSome
  extraNewline := (ownOption? linters .extraNewline).isSome
  positive := by
    intro width found
    obtain ⟨own, -, widthEq⟩ := Option.bind_eq_some_iff.mp found
    exact (OwnOption.width?_eq_some_iff.mp widthEq).2

namespace LinterClass

/-- Built-in classes are told apart by their names. -/
theorem eq_of_name_eq {first second : LinterClass} (known : first ∈ builtin)
    (knownToo : second ∈ builtin) (same : first.name = second.name) :
    first = second := by
  have distinct : (builtin.map (·.name)).Nodup := by decide
  exact List.inj_on_of_nodup_map distinct known knownToo same

end LinterClass

/-- Engines for different built-in classes that are registered have built-in
linters with options that fit. -/
theorem Engine.areBuiltin_of_build {config : RunnerConfig}
    {classes : List LinterClass} {basePath : String} {engine : Engine}
    (built : build config classes basePath = .ok engine)
    (filled : config.registry.Filled)
    (registered : classes ⊆ config.registry.classes)
    (known : classes ⊆ LinterClass.builtin) (distinct : classes.Nodup) :
    AreBuiltin engine.linters := by
  obtain ⟨rfl, resolved, -⟩ := build_eq_ok_iff.mp built
  have inClasses : ∀ linter ∈ engine.linters,
      linter.1 ∈ engine.linters.map (·.1) :=
    fun linter member => List.mem_map.mpr ⟨linter, member, rfl⟩
  refine ⟨fun linter member => known (inClasses linter member), ?_, ?_⟩
  · have names := List.Nodup.map_on (fun first member second memberToo same =>
      LinterClass.eq_of_name_eq (known member) (known memberToo) same) distinct
    rwa [List.map_map] at names
  · intro linter member
    exact RunnerConfig.own_fits_of_forLinter
      (filled.find?_name (registered (inClasses linter member)))
      (resolved linter member)

namespace AreBuiltin

variable {linters : List (LinterClass × LinterConfig)}

theorem ownOption?_eq_some_iff (builtin : AreBuiltin linters)
    {linterClass : LinterClass} {own : OwnOption}
    (known : linterClass ∈ LinterClass.builtin) :
    ownOption? linters linterClass = some own ↔
      ∃ config, (linterClass, config) ∈ linters ∧ config.own = own := by
  rw [ownOption?, Option.map_eq_some_iff]
  constructor
  · rintro ⟨⟨found, config⟩, first, rfl⟩
    have member := List.mem_of_find?_eq_some first
    have same : found.name = linterClass.name := by
      simpa using List.find?_some first
    obtain rfl := LinterClass.eq_of_name_eq (builtin.known _ member) known same
    exact ⟨config, member, rfl⟩
  · rintro ⟨config, member, rfl⟩
    refine ⟨(linterClass, config), ?_, rfl⟩
    obtain ⟨front, rest, same⟩ := List.append_of_mem member
    have distinct := builtin.distinct
    rw [same, List.map_append, List.nodup_append] at distinct
    rw [List.find?_eq_some_iff_append]
    refine ⟨by simp, front, rest, same, ?_⟩
    intro linter inFront
    have differs := distinct.2.2 linter.1.name (List.mem_map.mpr ⟨linter, inFront, rfl⟩)
      linterClass.name (by simp)
    simpa using differs

/-- Widths of tabs are options of one class alone. -/
theorem eq_spaceIndentation_of_tabWidth (builtin : AreBuiltin linters)
    {linterClass : LinterClass} {config : LinterConfig} {width : Nat}
    (member : (linterClass, config) ∈ linters)
    (given : config.own = .tabWidth width) :
    linterClass = LinterClass.spaceIndentation := by
  have fits := builtin.fits _ member
  obtain ⟨findings, finds⟩ := LinterClass.exists_finds (builtin.known _ member) fits
  exact (finds.of_tabWidth fits given).1

theorem bind_ownOption?_eq_some_iff {α : Type} (builtin : AreBuiltin linters)
    {linterClass : LinterClass} (known : linterClass ∈ LinterClass.builtin)
    {read : OwnOption → Option α} {value : α} :
    (ownOption? linters linterClass).bind read = some value ↔
      ∃ config, (linterClass, config) ∈ linters ∧ read config.own = some value := by
  simp only [Option.bind_eq_some_iff, builtin.ownOption?_eq_some_iff known]
  constructor
  · rintro ⟨_, ⟨config, member, rfl⟩, found⟩
    exact ⟨config, member, found⟩
  · rintro ⟨config, member, found⟩
    exact ⟨config.own, ⟨config, member, rfl⟩, found⟩

theorem isSome_ownOption?_iff (builtin : AreBuiltin linters)
    {linterClass : LinterClass} (known : linterClass ∈ LinterClass.builtin) :
    (ownOption? linters linterClass).isSome = true ↔
      ∃ config, (linterClass, config) ∈ linters := by
  rw [Option.isSome_iff_exists]
  simp only [builtin.ownOption?_eq_some_iff known]
  constructor
  · rintro ⟨_, config, member, -⟩
    exact ⟨config, member⟩
  · rintro ⟨config, member⟩
    exact ⟨config.own, config, member, rfl⟩

/-! ## Changes and findings -/

section Fields

variable (builtin : AreBuiltin linters)

include builtin

theorem finalNewline_eq_some_iff {flag : Bool} :
    (Fixers.ofLinters linters).finalNewline = some flag ↔
      ∃ config, (LinterClass.finalNewline, config) ∈ linters ∧
        config.own = .present flag := by
  rw [Fixers.ofLinters, builtin.bind_ownOption?_eq_some_iff (by simp [LinterClass.builtin])]
  simp only [OwnOption.flag?_eq_some_iff]

theorem rightTrim_eq_some_iff {style : TrimMark} :
    (Fixers.ofLinters linters).rightTrim = some style ↔
      ∃ config, (LinterClass.rightTrim, config) ∈ linters ∧
        config.own = .enforcedStyle style := by
  rw [Fixers.ofLinters, builtin.bind_ownOption?_eq_some_iff (by simp [LinterClass.builtin])]
  simp only [OwnOption.style?_eq_some_iff]

theorem spaceIndentation_eq_some_iff {width : Nat} :
    (Fixers.ofLinters linters).spaceIndentation = some width ↔
      ∃ config, (LinterClass.spaceIndentation, config) ∈ linters ∧
        config.own = .tabWidth width ∧ 0 < width := by
  rw [Fixers.ofLinters, builtin.bind_ownOption?_eq_some_iff (by simp [LinterClass.builtin])]
  simp only [OwnOption.width?_eq_some_iff]

theorem spaceAroundErbTag_iff :
    (Fixers.ofLinters linters).spaceAroundErbTag = true ↔
      ∃ config, (LinterClass.spaceAroundErbTag, config) ∈ linters :=
  builtin.isSome_ownOption?_iff (by simp [LinterClass.builtin])

theorem trailingWhitespace_iff :
    (Fixers.ofLinters linters).trailingWhitespace = true ↔
      ∃ config, (LinterClass.trailingWhitespace, config) ∈ linters :=
  builtin.isSome_ownOption?_iff (by simp [LinterClass.builtin])

theorem extraNewline_iff :
    (Fixers.ofLinters linters).extraNewline = true ↔
      ∃ config, (LinterClass.extraNewline, config) ∈ linters :=
  builtin.isSome_ownOption?_iff (by simp [LinterClass.builtin])

end Fields

end AreBuiltin

/-- The correction that makes a change. -/
def Change.correction (front old new : Text) : Correction :=
  ⟨front.length, (front.length + old.length : Nat), new⟩

open LinterClass in
/-- What a built-in linter finds lies inside the text, and a correctable one
proposes a change. -/
theorem AreBuiltin.change_of_finding {linters : List (LinterClass × LinterConfig)}
    (builtin : AreBuiltin linters) {linterClass : LinterClass}
    {config : LinterConfig} {findings : Text → List Finding} {text : Text}
    {finding : Finding} (member : (linterClass, config) ∈ linters)
    (finds : LinterClass.Finds config.own linterClass findings)
    (found : finding ∈ findings text) :
    finding.Inside text.length ∧
      (linterClass.correctable = true → ∃ front old new rest,
        text = front ++ old ++ rest ∧
        Change (Fixers.ofLinters linters) front old new rest ∧
        finding.correction = some (Change.correction front old new)) := by
  cases finds with
  | finalNewline given =>
      have active := builtin.finalNewline_eq_some_iff.mpr ⟨config, member, given⟩
      rcases FinalNewline.mem_findings_iff.mp found with
        ⟨rfl, lacks, rfl⟩ | ⟨front, old, rfl, unwanted, rfl⟩
      · refine ⟨by simp [Finding.Inside, Finding.replacing], fun _ =>
          ⟨text, [], _, [], by simp, .missing active lacks, rfl⟩⟩
      · refine ⟨?_, fun _ =>
          ⟨front, old, _, [], by simp, .unwanted _ active unwanted, rfl⟩⟩
        simp [Finding.Inside, Finding.replacing]
  | rightTrim given =>
      have active := builtin.rightTrim_eq_some_iff.mpr ⟨config, member, given⟩
      obtain ⟨tag, front, old, rest, mark, rfl, mismarks, -, rfl⟩ :=
        RightTrim.mem_findings_iff.mp found
      exact ⟨Finding.inside_replacing, fun _ => ⟨front, old, _, rest, rfl,
        .mark _ tag active mismarks, rfl⟩⟩
  | spaceAroundErbTag =>
      have active := builtin.spaceAroundErbTag_iff.mpr ⟨config, member⟩
      obtain ⟨tag, front, old, rest, rfl, ⟨leads, rfl⟩ | ⟨ends, rfl⟩⟩ :=
        SpaceAroundErbTag.mem_findings_iff.mp found
      · exact ⟨Finding.inside_replacing, fun _ => ⟨front, old, _, rest, rfl,
          .space tag active (.inl leads), rfl⟩⟩
      · exact ⟨Finding.inside_replacing, fun _ => ⟨front, old, _, rest, rfl,
          .space tag active (.inr ends), rfl⟩⟩
  | spaceIndentation given positive =>
      have active :=
        builtin.spaceIndentation_eq_some_iff.mpr ⟨config, member, given, positive⟩
      obtain ⟨front, old, rest, rfl, indents, rfl⟩ :=
        SpaceIndentation.mem_findings_iff.mp found
      exact ⟨Finding.inside_replacing, fun _ => ⟨front, old, _, rest, rfl,
        .indent _ active indents, rfl⟩⟩
  | trailingWhitespace =>
      have active := builtin.trailingWhitespace_iff.mpr ⟨config, member⟩
      obtain ⟨front, old, rest, rfl, trails, rfl⟩ :=
        TrailingWhitespace.mem_findings_iff.mp found
      exact ⟨Finding.inside_replacing, fun _ => ⟨front, old, _, rest, rfl,
        .trailing active trails, rfl⟩⟩
  | extraNewline =>
      have active := builtin.extraNewline_iff.mpr ⟨config, member⟩
      obtain ⟨front, old, rest, rfl, exceeds, rfl⟩ :=
        ExtraNewline.mem_findings_iff.mp found
      exact ⟨Finding.inside_replacing, fun _ => ⟨front, old, _, rest, rfl,
        .extra active exceeds, rfl⟩⟩
  | noJavascriptTagHelper =>
      refine ⟨?_, fun correctable => by contradiction⟩
      obtain ⟨tag, inTags, rfl⟩ := List.mem_map.mp found
      have inScan := (Tag.mem_tags_iff.mp (List.mem_filter.mp inTags).1).1
      obtain ⟨front, rest, rfl, begins, -⟩ := Tag.exists_parts_of_mem_scanFrom inScan
      have ends := tag.endPos_eq
      simp only [Finding.Inside, List.length_append]
      omega

open LinterClass in
/-- A change is proposed by what some correctable linter finds. -/
theorem AreBuiltin.finding_of_change {linters : List (LinterClass × LinterConfig)}
    (builtin : AreBuiltin linters) {front old new rest : Text}
    (change : Change (Fixers.ofLinters linters) front old new rest) :
    ∃ linterClass config findings, (linterClass, config) ∈ linters ∧
      linterClass.correctable = true ∧
      LinterClass.Finds config.own linterClass findings ∧
      ∃ finding ∈ findings (front ++ old ++ rest),
        finding.correction = some (Change.correction front old new) := by
  cases change with
  | trailing active trails =>
      obtain ⟨config, member⟩ := builtin.trailingWhitespace_iff.mp active
      exact ⟨_, config, _, member, rfl, .trailingWhitespace, _,
        TrailingWhitespace.mem_findings_iff.mpr
          ⟨front, old, rest, rfl, trails, rfl⟩, rfl⟩
  | indent width active indents =>
      obtain ⟨config, member, given, positive⟩ :=
        builtin.spaceIndentation_eq_some_iff.mp active
      exact ⟨_, config, _, member, rfl, .spaceIndentation given positive, _,
        SpaceIndentation.mem_findings_iff.mpr
          ⟨front, old, rest, rfl, indents, rfl⟩, rfl⟩
  | extra active exceeds =>
      obtain ⟨config, member⟩ := builtin.extraNewline_iff.mp active
      exact ⟨_, config, _, member, rfl, .extraNewline, _,
        ExtraNewline.mem_findings_iff.mpr
          ⟨front, old, rest, rfl, exceeds, rfl⟩, rfl⟩
  | missing active lacks =>
      obtain ⟨config, member, given⟩ := builtin.finalNewline_eq_some_iff.mp active
      refine ⟨_, config, _, member, rfl, .finalNewline given, _,
        FinalNewline.mem_findings_iff.mpr (.inl ⟨rfl, ?_, rfl⟩), ?_⟩
      · simpa using lacks
      · simp [Finding.replacing, Change.correction]
  | unwanted present active unwanted =>
      obtain ⟨config, member, given⟩ := builtin.finalNewline_eq_some_iff.mp active
      exact ⟨_, config, _, member, rfl, .finalNewline given, _,
        FinalNewline.mem_findings_iff.mpr
          (.inr ⟨front, old, by simp, unwanted, rfl⟩), rfl⟩
  | space tag active misplaced =>
      obtain ⟨config, member⟩ := builtin.spaceAroundErbTag_iff.mp active
      rcases misplaced with leads | ends
      · exact ⟨_, config, _, member, rfl, .spaceAroundErbTag, _,
          SpaceAroundErbTag.mem_findings_iff.mpr
            ⟨tag, front, old, rest, rfl, .inl ⟨leads, rfl⟩⟩, rfl⟩
      · exact ⟨_, config, _, member, rfl, .spaceAroundErbTag, _,
          SpaceAroundErbTag.mem_findings_iff.mpr
            ⟨tag, front, old, rest, rfl, .inr ⟨ends, rfl⟩⟩, rfl⟩
  | mark style tag active mismarks =>
      obtain ⟨config, member, given⟩ := builtin.rightTrim_eq_some_iff.mp active
      obtain ⟨mark, trimmed, -⟩ := mismarks.mark
      exact ⟨_, config, _, member, rfl, .rightTrim given, _,
        RightTrim.mem_findings_iff.mpr
          ⟨tag, front, old, rest, mark, rfl, mismarks, trimmed, rfl⟩, rfl⟩

/-! ## Runs -/

/-- Linters none of which breaks off are all run. -/
theorem Engine.runLinters_of_quiet {source : Source} {linters : List Linter}
    (quiet : ∀ linter ∈ linters, (linter.run source).2 = none) :
    runLinters source linters =
      ⟨linters.map fun linter => (linter.run source).1, none⟩ := by
  induction linters with
  | nil => rfl
  | cons linter linters induction =>
      have later := induction fun other member => quiet other (.tail _ member)
      have here := quiet linter (.head _)
      rw [runLinters, List.map_cons]
      generalize linter.run source = result at here
      obtain ⟨finished, fault⟩ := result
      cases here
      simp only [later]

/-- Linters up to the first that breaks off are run. -/
theorem Engine.failure_of_broken {source : Source} {earlier later : List Linter}
    {linter : Linter} {fault : Fault}
    (quiet : ∀ other ∈ earlier, (other.run source).2 = none)
    (broken : (linter.run source).2 = some fault) :
    (runLinters source (earlier ++ linter :: later)).failure =
      some ⟨linter.linterClass.name, source.filename, fault⟩ := by
  induction earlier with
  | nil =>
      rw [List.nil_append, runLinters]
      generalize linter.run source = result at broken
      obtain ⟨finished, own⟩ := result
      cases broken
      rfl
  | cons other earlier induction =>
      have rest := induction fun next member => quiet next (.tail _ member)
      have here := quiet other (.head _)
      rw [List.cons_append, runLinters]
      generalize other.run source = result at here
      obtain ⟨finished, own⟩ := result
      cases here
      exact rest

/-- The corrections of a linter's candidates. -/
theorem Linter.exists_candidate_iff {linter : Linter} {correction : Correction} :
    (∃ candidate ∈ linter.candidates, candidate.correction = correction) ↔
      linter.linterClass.correctable = true ∧
        some correction ∈ linter.offenses.map (·.correction) := by
  simp only [candidates, List.mem_filterMap, Option.map_eq_some_iff, List.mem_map,
    correction?, Option.ite_none_right_eq_some]
  constructor
  · rintro ⟨_, ⟨offense, member, own, ⟨correctable, given⟩, rfl⟩, rfl⟩
    exact ⟨correctable, offense, member, given⟩
  · rintro ⟨correctable, offense, member, given⟩
    exact ⟨⟨offense, correction⟩, ⟨offense, member, correction,
      ⟨correctable, given⟩, rfl⟩, rfl⟩

/-- A built-in linter reports one offense for each finding. -/
theorem LinterClass.Finds.run_fresh {linterClass : LinterClass}
    {config : LinterConfig} {findings : Text → List Finding}
    (finds : Finds config.own linterClass findings) (source : Source)
    (basePath : String)
    (inside : ∀ finding ∈ findings source.content,
      finding.Inside source.content.length)
    (narrow : ¬config.own.Overflows source.content) :
    ∃ offenses, (Linter.fresh linterClass config basePath).run source =
        (⟨linterClass, config, basePath, offenses⟩, none) ∧
      offenses.map (·.correction) =
        (findings source.content).map (·.correction) ∧
      ∀ offense ∈ offenses, offense.linterName = linterClass.name := by
  obtain ⟨offenses, run, records⟩ :=
    Linter.run_of_reports (finds.check_eq narrow) inside
  exact ⟨offenses, run, Source.map_correction_of_records records,
    Source.linterName_of_records records⟩

namespace AreBuiltin

variable {linters : List (LinterClass × LinterConfig)}

/-- Every linter of a run reports what it finds, unless tabs are too wide. -/
theorem exists_run (builtin : AreBuiltin linters) (source : Source)
    (basePath : String) {linter : LinterClass × LinterConfig}
    (member : linter ∈ linters) (narrow : ¬linter.2.own.Overflows source.content) :
    ∃ findings offenses, LinterClass.Finds linter.2.own linter.1 findings ∧
      (Linter.fresh linter.1 linter.2 basePath).run source =
        (⟨linter.1, linter.2, basePath, offenses⟩, none) ∧
      offenses.map (·.correction) =
        (findings source.content).map (·.correction) ∧
      ∀ offense ∈ offenses, offense.linterName = linter.1.name := by
  obtain ⟨linterClass, config⟩ := linter
  obtain ⟨findings, finds⟩ :=
    LinterClass.exists_finds (builtin.known _ member) (builtin.fits _ member)
  obtain ⟨offenses, run, corrections, named⟩ := finds.run_fresh source basePath
    (fun finding found => (builtin.change_of_finding member finds found).1) narrow
  exact ⟨findings, offenses, finds, run, corrections, named⟩

end AreBuiltin

end TemplateLint
