import TemplateLint.Proofs.Correction.Lines
import TemplateLint.Proofs.Correction.Newlines
import TemplateLint.Proofs.Correction.TagStyle

/-!
# Texts at which passes settle

Three passes leave nothing but newlines to change, the fourth one leaves the
end of the text and the fifth one nothing.
-/

namespace TemplateLint

open Text Script

namespace Fixers

/-- The linters that change newlines. -/
def newlines (fixers : Fixers) : Fixers where
  finalNewline := fixers.finalNewline
  rightTrim := none
  spaceAroundErbTag := false
  spaceIndentation := none
  trailingWhitespace := false
  extraNewline := fixers.extraNewline
  positive := by simp

/-- The linter that changes the end of the text. -/
def ending (fixers : Fixers) : Fixers :=
  { fixers.newlines with extraNewline := false }

theorem newlines_only (fixers : Fixers) : fixers.newlines.OnlyNewlines :=
  ⟨rfl, rfl, rfl, rfl⟩

theorem ending_only (fixers : Fixers) : fixers.ending.OnlyNewlines :=
  ⟨rfl, rfl, rfl, rfl⟩

variable {fixers : Fixers} {front old new rest : Text}

theorem change_of_newlines (change : Change fixers.newlines front old new rest) :
    Change fixers front old new rest := by
  rcases fixers.newlines_only.change_cases change with
    ⟨active, rfl, exceeds⟩ | ⟨active, rfl, rfl, rfl, lacks⟩ |
    ⟨present, active, rfl, rfl, unwanted⟩
  · exact .extra active exceeds
  · exact .missing active lacks
  · exact .unwanted present active unwanted

theorem change_of_ending (change : Change fixers.ending front old new rest) :
    Change fixers front old new rest := by
  rcases fixers.ending_only.change_cases change with
    ⟨active, -⟩ | ⟨active, rfl, rfl, rfl, lacks⟩ |
    ⟨present, active, rfl, rfl, unwanted⟩
  · contradiction
  · exact .missing active lacks
  · exact .unwanted present active unwanted

end Fixers

/-- A pass over a text with other linters that propose the same changes. -/
theorem Pass.restrict {fixers fewer : Fixers} {script : List Piece}
    (pass : Pass fixers script)
    (sound : ∀ {front old new rest}, Change fewer front old new rest →
      Change fixers front old new rest)
    (covers : ∀ {front old new rest}, before script = front ++ old ++ rest →
      Change fixers front old new rest → Change fewer front old new rest) :
    Pass fewer script := by
  refine ⟨?_, pass.apart, ?_⟩
  · intro earlier old new later split
    apply covers _ (pass.changes split)
    rw [split]
    simp
  · intro front old new rest whole change
    exact pass.complete whole (sound change)

/-- One text becomes the other in a pass. -/
def PassesTo (fixers : Fixers) (text text' : Text) : Prop :=
  ∃ script, Pass fixers script ∧ before script = text ∧ after script = text'

/-- Nothing but newlines is left to change. -/
structure Calm (fixers : Fixers) (text : Text) : Prop where
  expanded : fixers.spaceIndentation ≠ none → ¬Indented text
  trimmed : fixers.trailingWhitespace = true → ¬BlankBefore [] text
  returns : fixers.trailingWhitespace = true → ¬BlankBefore ['\r'] text
  spaced : fixers.spaceAroundErbTag = true → ∀ {tag front old rest},
    text = front ++ old ++ rest →
      ¬(SpaceAroundErbTag.Leads tag front old rest ∨
        SpaceAroundErbTag.Ends tag front old rest)
  marked : ∀ {style}, fixers.rightTrim = some style → ∀ {tag front old rest},
    text = front ++ old ++ rest → ¬RightTrim.Mismarks style tag front old rest

/-- No change is proposed. -/
def Settled (fixers : Fixers) (text : Text) : Prop :=
  ∀ front old new rest, text = front ++ old ++ rest →
    ¬Change fixers front old new rest

section Stages

variable {fixers : Fixers} {text text' : Text}

theorem PassesTo.not_indented (passes : PassesTo fixers text text') :
    fixers.spaceIndentation ≠ none → ¬Indented text' := by
  obtain ⟨script, pass, -, rfl⟩ := passes
  intro active
  obtain ⟨width, enforced⟩ := Option.ne_none_iff_exists'.mp active
  exact pass.not_indented_after enforced

theorem PassesTo.not_conflicts (passes : PassesTo fixers text text') :
    ¬Conflicts fixers text' := by
  obtain ⟨script, pass, -, rfl⟩ := passes
  exact pass.not_conflicts_after

/-- Three passes leave nothing but newlines to change. -/
theorem calm_of_passes {first second third : Text}
    (one : PassesTo fixers text first) (two : PassesTo fixers first second)
    (three : PassesTo fixers second third) : Calm fixers third := by
  have expanded := one.not_indented
  have expandedTwo := two.not_indented
  have expandedThree := three.not_indented
  have calm := two.not_conflicts
  obtain ⟨script, pass, rfl, rfl⟩ := two
  obtain ⟨script', pass', same, rfl⟩ := three
  rw [← same] at expandedTwo calm
  have trimmed : fixers.trailingWhitespace = true →
      ¬BlankBefore [] (before script') := by
    intro active
    rw [same]
    exact pass.not_blankBefore_end active expanded
  refine ⟨expandedThree, ?_, ?_, ?_, ?_⟩
  · exact fun active => pass'.not_blankBefore_end active expandedTwo
  · exact fun active =>
      pass'.not_blankBefore_return active expandedTwo (trimmed active)
  · exact fun active {tag front old rest} =>
      pass'.not_misplaced_after calm active
  · exact fun {style} enforced {tag front old rest} =>
      pass'.not_mismarks_after calm enforced

/-- What is left to change are newlines. -/
theorem Calm.change_newlines {front old new rest : Text} (calm : Calm fixers text)
    (whole : text = front ++ old ++ rest)
    (change : Change fixers front old new rest) :
    Change fixers.newlines front old new rest := by
  cases change with
  | trailing active trails =>
      rcases trails.blankBefore with atEnd | atReturn
      · exact absurd (whole ▸ atEnd) (calm.trimmed active)
      · exact absurd (whole ▸ atReturn) (calm.returns active)
  | indent width active indents =>
      exact absurd ⟨front, old, rest, whole, indents⟩
        (calm.expanded (by simp [active]))
  | extra active exceeds => exact .extra active exceeds
  | missing active lacks => exact .missing active lacks
  | unwanted present active unwanted => exact .unwanted present active unwanted
  | space tag active misplaced => exact absurd misplaced (calm.spaced active whole)
  | mark style tag active mismarks =>
      exact absurd mismarks (calm.marked active whole)

/-- A pass over a calm text changes newlines. -/
theorem Calm.pass_newlines {script : List Piece}
    (calm : Calm fixers (before script)) (pass : Pass fixers script) :
    Pass fixers.newlines script :=
  pass.restrict Fixers.change_of_newlines calm.change_newlines

/-- A pass over a calm text leaves the end of the text to change. -/
theorem Calm.change_ending {front old new rest : Text}
    (calm : Calm fixers text) (passes : PassesTo fixers text text')
    (calmAfter : Calm fixers text') (whole : text' = front ++ old ++ rest)
    (change : Change fixers front old new rest) :
    Change fixers.ending front old new rest := by
  obtain ⟨script, pass, rfl, rfl⟩ := passes
  rcases fixers.newlines_only.change_cases (calmAfter.change_newlines whole change) with
    ⟨active, rfl, exceeds⟩ | ⟨active, rfl, rfl, rfl, lacks⟩ |
    ⟨present, active, rfl, rfl, unwanted⟩
  · exact absurd exceeds ((calm.pass_newlines pass).not_exceeds_after
      fixers.newlines_only active whole)
  · exact .missing active lacks
  · exact .unwanted present active unwanted

/-- Five passes leave nothing to change. -/
theorem settled_of_passes {first second third fourth fifth : Text}
    (one : PassesTo fixers text first) (two : PassesTo fixers first second)
    (three : PassesTo fixers second third) (four : PassesTo fixers third fourth)
    (five : PassesTo fixers fourth fifth) : Settled fixers fifth := by
  have calmThree := calm_of_passes one two three
  have calmFour := calm_of_passes two three four
  have calmFive := calm_of_passes three four five
  intro front old new rest whole change
  have ending := calmFour.change_ending five calmFive whole change
  obtain ⟨script, pass, rfl, rfl⟩ := five
  have endingPass : Pass fixers.ending script :=
    pass.restrict Fixers.change_of_ending fun {_ _ _ _} whole change =>
      calmThree.change_ending four calmFour whole change
  exact endingPass.not_change_after fixers.ending_only rfl whole ending

end Stages

end TemplateLint
