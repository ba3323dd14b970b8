import TemplateLint.Proofs.Engine.Single
import TemplateLint.Proofs.Source.Rewriting

/-!
# Corrections inside tags

A linter that looks at one tag after the other, and corrects each of them
between its delimiters, changes the tags of a text one by one.
-/

namespace TemplateLint

open Text Script

namespace Tag

/-- What is found in a tag changes it: the corrections stand apart from one
another between the delimiters of the tag. -/
structure Edits (inTag : Tag → List Finding) (change : Tag → Tag) : Prop where
  follows : Follows change
  script : ∀ {tag : Tag} {rest : Text},
    at? tag.beginPos (tag.text ++ rest) = some tag → tag.indicator ≠ .escape →
    ∃ script, before script = tag.text ∧ after script = (change tag).text ∧
      made tag.beginPos script = (inTag tag).filterMap (·.correction)
  replaces : ∀ {tag : Tag} {finding : Finding}, finding ∈ inTag tag →
    ∃ first last message new, finding = .replacing first last message new ∧
      tag.beginPos < first ∧ first ≤ last ∧ last < tag.endPos
  spaced : ∀ tag : Tag, (inTag tag).Pairwise fun first second =>
    first.endPos < second.beginPos

variable {inTag : Tag → List Finding} {change : Tag → Tag}

/-- A tag in which nothing is found is kept. -/
theorem exists_script_of_kept {tag : Tag} (nothing : inTag tag = [])
    (same : change tag = tag) :
    ∃ script, before script = tag.text ∧ after script = (change tag).text ∧
      made tag.beginPos script = (inTag tag).filterMap (·.correction) := by
  refine ⟨keeping tag.text, before_keeping _, ?_, ?_⟩
  · rw [after_keeping, same]
  · rw [nothing, made_only_keeping]
    rfl

namespace Edits

/-- The findings of a scan. -/
def findingsFrom (inTag : Tag → List Finding) (position : Nat) (text : Text) :
    List Finding :=
  (tagsFrom position text).flatMap inTag

/-- The findings in the tags of a text are corrected by a script that changes
the tags. -/
theorem exists_script (edits : Edits inTag change) (position : Nat) (text : Text) :
    ∃ script, before script = text ∧
      Rewritten change position text (after script) ∧
      made position script =
        (findingsFrom inTag position text).filterMap (·.correction) := by
  induction position, text using scan_induction with
  | nil position => exact ⟨[], rfl, .nil position, rfl⟩
  | tag tag rest found induction =>
      obtain ⟨later, goesThrough, rewritten, makes⟩ := induction
      by_cases escape : tag.indicator = .escape
      · refine ⟨keeping tag.text ++ later, ?_, ?_, ?_⟩
        · rw [before_append, before_keeping, goesThrough]
        · rw [after_append, after_keeping]
          have same := congrArg Tag.text (edits.follows.escape escape)
          have whole := Rewritten.tag found rewritten
          rwa [same] at whole
        · rw [made_keeping, ← endPos_eq, makes, findingsFrom, findingsFrom,
            tagsFrom_of_escape found escape]
      · obtain ⟨script, own, changed, edited⟩ := edits.script found escape
        refine ⟨script ++ later, ?_, ?_, ?_⟩
        · rw [before_append, own, goesThrough]
        · rw [after_append, changed]
          exact .tag found rewritten
        · rw [made_append, own, ← endPos_eq, edited, makes, findingsFrom,
            findingsFrom, tagsFrom_of_tag found escape, List.flatMap_cons,
            List.filterMap_append]
  | other position c rest none_found induction =>
      obtain ⟨later, goesThrough, rewritten, makes⟩ := induction
      refine ⟨.keep c :: later, ?_, ?_, ?_⟩
      · rw [before_keep, goesThrough]
      · exact .other none_found rewritten
      · rw [made, makes, findingsFrom, findingsFrom, tagsFrom_of_none none_found]

/-- Findings of different tags are apart like those of one tag. -/
theorem findings_spaced (edits : Edits inTag change) (text : Text) :
    (text.tags.flatMap inTag).Pairwise fun first second =>
      first.endPos < second.beginPos := by
  rw [List.pairwise_flatMap]
  refine ⟨fun tag _ => edits.spaced tag, ?_⟩
  apply ((scanFrom_pairwise 0 text).filter _).imp
  intro tag tag' behind finding found finding' found'
  obtain ⟨first, last, message, new, rfl, -, -, ends⟩ := edits.replaces found
  obtain ⟨first', last', message', new', rfl, begins, -, -⟩ :=
    edits.replaces found'
  simp only [Finding.replacing]
  omega

/-- The corrections of the findings do not conflict. -/
theorem corrections_apart (edits : Edits inTag change) (text : Text) :
    Correction.Apart ((text.tags.flatMap inTag).filterMap (·.correction)) := by
  rw [Correction.Apart, List.pairwise_filterMap]
  apply (edits.findings_spaced text).imp_of_mem
  intro finding finding' found found' spaced correction given correction' given'
  obtain ⟨tag, -, inTag⟩ := List.mem_flatMap.mp found
  obtain ⟨tag', -, inTag'⟩ := List.mem_flatMap.mp found'
  obtain ⟨first, last, message, new, rfl, -, ascending, -⟩ := edits.replaces inTag
  obtain ⟨first', last', message', new', rfl, -, ascending', -⟩ :=
    edits.replaces inTag'
  cases given
  cases given'
  simp only [Finding.replacing, Correction.overlaps] at spaced ⊢
  simp
  omega

/-- Findings inside tags mend a text by rewriting it. -/
theorem exists_mends (edits : Edits inTag change) (text : Text) :
    ∃ mended, Mends (text.tags.flatMap inTag) text mended ∧
      Rewritten change 0 text mended := by
  obtain ⟨script, goesThrough, rewritten, makes⟩ := edits.exists_script 0 text
  refine ⟨after script, ⟨?_, edits.corrections_apart text, script, goesThrough, rfl,
    makes⟩, rewritten⟩
  intro finding found
  obtain ⟨tag, member, inTag⟩ := List.mem_flatMap.mp found
  obtain ⟨first, last, message, new, rfl, -, ascending, ends⟩ :=
    edits.replaces inTag
  obtain ⟨front, rest, rfl, begins, -⟩ :=
    exists_parts_of_mem_scanFrom (List.mem_filter.mp member).1
  have size := tag.endPos_eq
  refine ⟨first, last, message, new, rfl, ascending, ?_⟩
  simp only [List.length_append]
  omega

/-- Where nothing is found in changed tags, nothing is found in the text that is
left. -/
theorem exists_mends_of_silent (edits : Edits inTag change)
    (silent : ∀ {tag : Tag} (position : Nat), tag.indicator ≠ .escape →
      inTag ((change tag).movedTo position) = [])
    (text : Text) :
    ∃ mended, Mends (text.tags.flatMap inTag) text mended ∧
      mended.tags.flatMap inTag = [] := by
  obtain ⟨mended, mends, rewritten⟩ := edits.exists_mends text
  refine ⟨mended, mends, ?_⟩
  have changed := rewritten.tags edits.follows
  generalize mended.tags = tags' at changed
  generalize text.tags = tags at changed
  induction changed with
  | nil => rfl
  | cons first _ induction =>
      obtain ⟨noEscape, becomes⟩ := first
      rw [List.flatMap_cons, becomes, silent _ noEscape, List.nil_append, induction]

/-- A pass of a linter that edits tags rewrites the text. -/
theorem exists_pass (edits : Edits inTag change) (linterClass : LinterClass)
    (config : LinterConfig) (basePath : String) (source : Source)
    (correctable : linterClass.correctable = true)
    (reports : linterClass.check config source =
      (source.content.tags.flatMap inTag).map .report) :
    ∃ text, linterClass.pass config basePath source = .ok text ∧
      Rewritten change 0 source.content text := by
  obtain ⟨mended, mends, rewritten⟩ := edits.exists_mends source.content
  obtain ⟨linter, run, -⟩ := mends.exists_run correctable reports basePath
  exact ⟨mended, run.pass, rewritten⟩

end Edits

end Tag

end TemplateLint
