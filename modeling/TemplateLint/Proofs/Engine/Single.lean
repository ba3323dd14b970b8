import TemplateLint.Proofs.Correction.Splice
import TemplateLint.Proofs.Linter.Builtin

/-!
# A pass with one linter

A linter that looks at a text alone has all of its corrections made if they do
not conflict with one another.  A text is mended by findings that replace their
own ranges.
-/

namespace TemplateLint

open Script

/-- The text after a linter has looked at a source and its corrections were
made, or what broke the linter off. -/
def LinterClass.pass (linterClass : LinterClass) (config : LinterConfig)
    (basePath : String) (source : Source) : Except Fault Text :=
  match (Linter.fresh linterClass config basePath).run source with
  | (linter, none) => .ok ((Selection.ofLinters [linter]).corrected source.content)
  | (_, some fault) => .error fault

variable {linterClass : LinterClass} {config : LinterConfig} {basePath : String}
  {source : Source} {findings : List Finding}

/-- A check that only reports findings inside the source gives one offense for
each of them. -/
theorem Linter.run_of_reports
    (reports : linterClass.check config source = findings.map .report)
    (inside : ∀ finding ∈ findings, finding.Inside source.content.length) :
    ∃ offenses, (Linter.fresh linterClass config basePath).run source =
        (⟨linterClass, config, basePath, offenses⟩, none) ∧
      List.Forall₂ (source.Records linterClass.name) findings offenses := by
  obtain ⟨offenses, recorded, records⟩ :=
    Source.record_reports linterClass.name inside
  refine ⟨offenses, ?_, records⟩
  simp only [Linter.run, Linter.fresh, reports, recorded, List.nil_append]

/-- Tabs that are too wide break off a run at once. -/
theorem Linter.run_of_overflows (basePath : String)
    (overflows : config.own.Overflows source.content) :
    (Linter.fresh .spaceIndentation config basePath).run source =
      (⟨.spaceIndentation, config, basePath, []⟩, some .tabWidthTooLarge) := by
  obtain ⟨steps, broken⟩ := SpaceIndentation.check_of_overflows overflows
  have reports : LinterClass.spaceIndentation.check config source =
    .fail .tabWidthTooLarge :: steps := broken
  rw [run, fresh, reports]
  rfl

/-- A correctable linter proposes the corrections of its offenses. -/
theorem Linter.map_correction_candidates {linter : Linter}
    (correctable : linter.linterClass.correctable = true) :
    (Selection.candidates [linter]).map (·.correction) =
      linter.offenses.filterMap (·.correction) := by
  rw [Selection.candidates, List.flatMap_singleton, candidates, List.map_filterMap]
  congr 1
  funext offense
  rw [correction?, if_pos correctable, Option.map_map]
  exact Option.map_id'

/-- Offenses have the corrections of the findings that they come from. -/
theorem Source.filterMap_correction_of_records {linterName : String}
    {offenses : List Offense}
    (records : List.Forall₂ (source.Records linterName) findings offenses) :
    offenses.filterMap (·.correction) = findings.filterMap (·.correction) := by
  have same := congrArg (List.filterMap id) (map_correction_of_records records)
  rwa [List.filterMap_map, List.filterMap_map] at same

/-- The corrections of a script lie inside the text that it goes through. -/
theorem Script.within_of_mem_made {script : List Piece} {correction : Correction}
    (member : correction ∈ made 0 script) :
    correction.Within (before script).length := by
  obtain ⟨earlier, old, new, later, rfl, rfl⟩ := mem_made_iff.mp member
  simp only [Correction.Within, before_append, before_swap, List.length_append]
  omega

/-- A script is made by the corrections that it makes if they do not
conflict. -/
theorem Script.applyAll_made {script : List Piece}
    (apart : Correction.Apart (made 0 script)) :
    Correction.applyAll (before script) (made 0 script) = after script := by
  have sorted := apart.eq_ascending (.refl _) (made_ascends 0 script).1
  rw [Correction.applyAll_eq_splice (fun correction => within_of_mem_made) apart,
    ← sorted]
  simpa using splice_made [] [] script

/-! ## Texts that one linter mends -/

/-- Findings turn a text into another one: each of them replaces its own range
inside the text, apart from the others. -/
structure Mends (findings : List Finding) (text mended : Text) : Prop where
  replaces : ∀ finding ∈ findings, ∃ first last message new,
    finding = .replacing first last message new ∧
      first ≤ last ∧ last ≤ text.length
  apart : Correction.Apart (findings.filterMap (·.correction))
  script : ∃ script, before script = text ∧ after script = mended ∧
    made 0 script = findings.filterMap (·.correction)

/-- The range of an offense lies inside a text and is what the correction
replaces. -/
def Offense.ReplacesRange (text : Text) (offense : Offense) : Prop :=
  0 ≤ offense.range.beginPos ∧ offense.range.beginPos ≤ offense.range.endPos ∧
    offense.range.endPos ≤ text.length ∧
    ∃ new, offense.correction =
      some ⟨offense.range.beginPos, offense.range.endPos, new⟩

/-- A run of one linter that turns a text into another one: all of its
offenses are corrected. -/
structure LinterClass.RunMends (linterClass : LinterClass) (config : LinterConfig)
    (basePath : String) (source : Source) (linter : Linter) (mended : Text) :
    Prop where
  ran : (Linter.fresh linterClass config basePath).run source = (linter, none)
  placed : ∀ offense ∈ linter.offenses, offense.ReplacesRange source.content
  apart : Correction.Apart (linter.offenses.filterMap (·.correction))
  kept : (Selection.ofLinters [linter]).dropped = []
  corrected : (Selection.ofLinters [linter]).corrected source.content = mended

theorem LinterClass.RunMends.pass {linter : Linter} {mended : Text}
    (mends : linterClass.RunMends config basePath source linter mended) :
    linterClass.pass config basePath source = .ok mended := by
  rw [LinterClass.pass, mends.ran]
  exact congrArg Except.ok mends.corrected

namespace Mends

variable {text mended : Text}

theorem inside (mends : Mends findings text mended) :
    ∀ finding ∈ findings, finding.Inside text.length := by
  intro finding member
  obtain ⟨first, last, message, new, rfl, ascending, ends⟩ :=
    mends.replaces finding member
  simp only [Finding.Inside, Finding.replacing]
  omega

theorem nil (text : Text) : Mends [] text text :=
  ⟨by simp, .nil, keeping text, before_keeping text, after_keeping text,
    made_only_keeping 0 text⟩

/-- One finding turns the text into what it replaces a part of it by. -/
theorem single (front old new rest message : Text) :
    Mends [.replacing front.length (front.length + old.length) message new]
      (front ++ old ++ rest) (front ++ new ++ rest) := by
  refine ⟨?_, .cons (by simp) .nil,
    keeping front ++ .swap old new :: keeping rest, ?_, ?_, ?_⟩
  · intro finding member
    rw [List.mem_singleton.mp member]
    refine ⟨_, _, message, new, rfl, Nat.le_add_right _ _, ?_⟩
    rw [List.length_append, List.length_append]
    omega
  · simp
  · simp
  · rw [made_keeping, made, made_only_keeping]
    simp [Finding.replacing]

/-- Where nothing is found nothing changes. -/
theorem eq_of_nil (mends : Mends [] text mended) : mended = text := by
  obtain ⟨script, goesThrough, leaves, makes⟩ := mends.script
  have keeps : script = keeping (before script) := by
    apply eq_keeping
    intro earlier old new later split
    rw [split, made_append] at makes
    simp [made] at makes
  rw [← leaves, keeps, after_keeping, goesThrough]

/-- Where the text that is left has no finding, the texts without a finding are
those that nothing changes. -/
theorem eq_nil_iff {find : Text → List Finding} (mends : Mends (find text) text mended)
    (clean : find mended = []) : find text = [] ↔ mended = text := by
  constructor
  · intro nothing
    rw [nothing] at mends
    exact mends.eq_of_nil
  · rintro rfl
    exact clean

/-- A script mends a text if each of its corrections replaces some characters
of a finding. -/
theorem of_script {script : List Piece}
    (makes : made 0 script = findings.filterMap (·.correction))
    (replaces : ∀ finding ∈ findings, ∃ front old rest message new,
      before script = front ++ old ++ rest ∧ old ≠ [] ∧
        finding = .replacing front.length (front.length + old.length) message new) :
    Mends findings (before script) (after script) := by
  refine ⟨?_, ?_, script, rfl, rfl, makes⟩
  · intro finding member
    obtain ⟨front, old, rest, message, new, whole, -, rfl⟩ := replaces finding member
    refine ⟨_, _, message, new, rfl, Nat.le_add_right _ _, ?_⟩
    rw [whole, List.length_append, List.length_append]
    omega
  · rw [← makes]
    apply apart_made
    rw [makes]
    intro correction member
    obtain ⟨finding, found, given⟩ := List.mem_filterMap.mp member
    obtain ⟨front, old, rest, message, new, -, some_old, rfl⟩ :=
      replaces finding found
    cases given
    have inhabited := List.length_pos_iff.mpr some_old
    simp only
    omega

/-- A run of a linter alone reports the findings and has all of them
corrected. -/
theorem exists_run {mended : Text} (mends : Mends findings source.content mended)
    (correctable : linterClass.correctable = true)
    (reports : linterClass.check config source = findings.map .report)
    (basePath : String) :
    ∃ linter, linterClass.RunMends config basePath source linter mended ∧
      (linter.offenses = [] ↔ findings = []) := by
  obtain ⟨offenses, run, records⟩ :=
    @Linter.run_of_reports _ _ basePath _ _ reports mends.inside
  have given := Source.filterMap_correction_of_records records
  have apart := mends.apart
  rw [← given] at apart
  have proposed := @Linter.map_correction_candidates
    ⟨linterClass, config, basePath, offenses⟩ correctable
  have selected := Selection.ofLinters_of_apart (proposed ▸ apart)
  refine ⟨⟨linterClass, config, basePath, offenses⟩, ⟨run, ?_, apart, ?_, ?_⟩, ?_⟩
  · intro offense member
    obtain ⟨finding, found, range, looked, rfl⟩ :=
      Source.exists_finding_of_records records offense member
    obtain ⟨first, last, message, new, rfl, ascending, ends⟩ :=
      mends.replaces finding found
    obtain ⟨begins, stops⟩ := Source.positions_of_range looked
    simp only [Finding.replacing] at begins stops
    refine ⟨?_, ?_, ?_, new, ?_⟩
    · simp only [Finding.offense, begins]
      omega
    · simp only [Finding.offense, begins, stops]
      omega
    · simp only [Finding.offense, stops]
      omega
    · simp only [Finding.offense, Finding.replacing, begins, stops]
  · rw [selected]
  · obtain ⟨script, goesThrough, leaves, makes⟩ := mends.script
    rw [selected, Selection.corrected, Selection.corrections, proposed, given,
      ← makes, ← goesThrough, applyAll_made (makes ▸ mends.apart), leaves]
  · rw [← List.length_eq_zero_iff, ← List.length_eq_zero_iff, records.length_eq]

end Mends

end TemplateLint
