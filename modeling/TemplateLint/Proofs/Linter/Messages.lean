import TemplateLint.Linter.Builtin
import TemplateLint.Proofs.Text.Digits
import TemplateLint.Proofs.Text.Lines

/-!
# Messages of built-in linters

A built-in linter tells of a text by the indicators, marks and numbers that it
has counted there, and quotes nothing else.  With any options its messages
stay on one line.
-/

namespace TemplateLint

/-! ## Parts of messages -/

theorem Text.newline_not_mem_ofNat (number : Nat) : '\n' ∉ ofNat number := by
  intro member
  exact absurd (isDigit_of_mem_ofNat member) (by decide)

theorem Indicator.newline_not_mem_text (indicator : Indicator) :
    '\n' ∉ indicator.text := by
  cases indicator <;> decide

theorem TrimMark.newline_ne_char (mark : TrimMark) : '\n' ≠ mark.char := by
  cases mark <;> decide

theorem TrimMark.newline_not_mem_text (mark : Option TrimMark) :
    '\n' ∉ text mark := by
  cases mark with
  | none => exact List.not_mem_nil
  | some mark =>
      intro member
      exact mark.newline_ne_char (List.mem_singleton.mp member)

/-! ## Messages of findings -/

/-- A finding whose message has no newline. -/
def Finding.OnOneLine (finding : Finding) : Prop := '\n' ∉ finding.message

theorem Finding.onOneLine_replacing {first last : Nat} {message new : Text} :
    (replacing first last message new).OnOneLine ↔ '\n' ∉ message :=
  Iff.rfl

theorem FinalNewline.onOneLine_of_mem {present : Bool} {content : Text}
    {finding : Finding} (member : finding ∈ findings present content) :
    finding.OnOneLine := by
  simp only [findings] at member
  split at member
  · cases member
  split at member
  · split at member
    · rw [List.mem_singleton.mp member, Finding.onOneLine_replacing]
      decide
    split at member
    · cases member
    · rw [List.mem_singleton.mp member, Finding.onOneLine_replacing]
      decide
  split at member
  · cases member
  · rw [List.mem_singleton.mp member, Finding.onOneLine_replacing,
      List.mem_append, List.mem_append, not_or, not_or]
    exact ⟨⟨by decide, Text.newline_not_mem_ofNat _⟩, by decide⟩

theorem RightTrim.onOneLine_of_mem {style : TrimMark} {content : Text}
    {finding : Finding} (member : finding ∈ findings style content) :
    finding.OnOneLine := by
  obtain ⟨tag, -, inTag⟩ := List.mem_flatMap.mp member
  unfold RightTrim.inTag at inTag
  split at inTag
  · cases inTag
  next mark _ =>
    split at inTag
    · cases inTag
    · rw [List.mem_singleton.mp inTag, Finding.onOneLine_replacing]
      simp only [List.mem_append, List.mem_singleton, not_or]
      exact ⟨⟨⟨⟨by decide, style.newline_ne_char⟩, by decide⟩,
        mark.newline_ne_char⟩, by decide⟩

theorem SpaceAroundErbTag.newline_not_mem_countText (count : Nat) :
    '\n' ∉ countText count := by
  rw [countText, List.mem_append, not_or]
  refine ⟨Text.newline_not_mem_ofNat count, ?_⟩
  split <;> decide

theorem SpaceAroundErbTag.onOneLine_of_mem {content : Text} {finding : Finding}
    (member : finding ∈ findings content) : finding.OnOneLine := by
  obtain ⟨tag, -, inTag⟩ := List.mem_flatMap.mp member
  unfold SpaceAroundErbTag.inTag at inTag
  split at inTag
  · cases inTag
  rcases List.mem_append.mp inTag with start | stop
  · simp only [atStart] at start
    split at start
    · cases start
    · rw [List.mem_singleton.mp start, Finding.onOneLine_replacing]
      simp only [List.mem_append, not_or]
      exact ⟨⟨⟨⟨by decide, tag.indicator.newline_not_mem_text⟩, by decide⟩,
        newline_not_mem_countText _⟩, by decide⟩
  · simp only [atEnd] at stop
    split at stop
    · cases stop
    · rw [List.mem_singleton.mp stop, Finding.onOneLine_replacing]
      simp only [List.mem_append, not_or]
      exact ⟨⟨⟨⟨by decide, TrimMark.newline_not_mem_text _⟩, by decide⟩,
        newline_not_mem_countText _⟩, by decide⟩

theorem SpaceIndentation.onOneLine_of_mem {width : Nat} {content : Text}
    {finding : Finding} (member : finding ∈ findings width content) :
    finding.OnOneLine := by
  obtain ⟨indent, -, rfl⟩ := List.mem_map.mp member
  rw [SpaceIndentation.finding, Finding.onOneLine_replacing]
  decide

theorem TrailingWhitespace.onOneLine_of_mem {content : Text} {finding : Finding}
    (member : finding ∈ findings content) : finding.OnOneLine := by
  obtain ⟨front, line, _, -, -, -, -, inLine⟩ :=
    Text.mem_overLines_iff.mp member
  simp only [TrailingWhitespace.inLine] at inLine
  split at inLine
  · cases inLine
  · rw [List.mem_singleton.mp inLine, Finding.onOneLine_replacing]
    decide

theorem ExtraNewline.onOneLine_of_mem {content : Text} {finding : Finding}
    (member : finding ∈ findings content) : finding.OnOneLine := by
  obtain ⟨run, -, rfl⟩ := List.mem_map.mp member
  rw [Finding.onOneLine_replacing]
  decide

theorem NoJavascriptTagHelper.onOneLine_of_mem {content : Text}
    {finding : Finding} (member : finding ∈ findings content) :
    finding.OnOneLine := by
  obtain ⟨tag, -, rfl⟩ := List.mem_map.mp member
  simp only [Finding.OnOneLine]
  decide

/-! ## Messages of offenses -/

theorem mem_of_report_mem_map {findings : List Finding} {finding : Finding}
    (member : Step.report finding ∈ findings.map .report) :
    finding ∈ findings := by
  obtain ⟨other, inFindings, same⟩ := List.mem_map.mp member
  cases same
  exact inFindings

/-- Whatever a built-in linter reports with any options, its message stays on
one line. -/
theorem LinterClass.onOneLine_of_report {linterClass : LinterClass}
    (builtin : linterClass ∈ LinterClass.builtin) {config : LinterConfig}
    {source : Source} {finding : Finding}
    (reported : .report finding ∈ linterClass.check config source) :
    finding.OnOneLine := by
  simp only [LinterClass.builtin, List.mem_cons, List.not_mem_nil, or_false]
    at builtin
  rcases builtin with rfl | rfl | rfl | rfl | rfl | rfl | rfl
  · change _ ∈ FinalNewline.check config source at reported
    unfold FinalNewline.check at reported
    split at reported
    · exact FinalNewline.onOneLine_of_mem (mem_of_report_mem_map reported)
    · split at reported
      · cases reported
      · cases List.mem_singleton.mp reported
  · change _ ∈ RightTrim.check config source at reported
    unfold RightTrim.check at reported
    split at reported
    · exact RightTrim.onOneLine_of_mem (mem_of_report_mem_map reported)
    · cases List.mem_singleton.mp reported
  · exact SpaceAroundErbTag.onOneLine_of_mem (mem_of_report_mem_map reported)
  · change _ ∈ SpaceIndentation.check config source at reported
    unfold SpaceIndentation.check at reported
    split at reported
    · split at reported
      · exact SpaceIndentation.onOneLine_of_mem (mem_of_report_mem_map reported)
      · obtain ⟨_, _, same⟩ := List.mem_map.mp reported
        cases same
    · obtain ⟨_, _, same⟩ := List.mem_map.mp reported
      cases same
  · exact TrailingWhitespace.onOneLine_of_mem (mem_of_report_mem_map reported)
  · exact ExtraNewline.onOneLine_of_mem (mem_of_report_mem_map reported)
  · exact NoJavascriptTagHelper.onOneLine_of_mem (mem_of_report_mem_map reported)

/-- A recorded offense has the message of a reported finding and the name of
the linter. -/
theorem Source.exists_report_of_mem_recordWithin {source : Source}
    {table : Text.LineTable} {linterName : String} {steps : List Step}
    {offense : Offense}
    (member : offense ∈ (source.recordWithin table linterName steps).1) :
    ∃ finding, .report finding ∈ steps ∧
      offense.message = finding.message ∧ offense.linterName = linterName := by
  induction steps with
  | nil => cases member
  | cons step steps induction =>
      cases step with
      | fail fault => cases member
      | report finding =>
          rw [recordWithin] at member
          split at member
          · cases member
          · rcases List.mem_cons.mp member with rfl | later
            · exact ⟨finding, .head _, rfl, rfl⟩
            · obtain ⟨other, inSteps, same⟩ := induction later
              exact ⟨other, .tail _ inSteps, same⟩

/-- An offense that a built-in linter records when it looks at some text with
some options. -/
def Offense.IsBuiltin (offense : Offense) : Prop :=
  ∃ linterClass ∈ LinterClass.builtin, ∃ config basePath source,
    offense ∈ ((Linter.fresh linterClass config basePath).run source).1.offenses

/-- What is said of an offense of a built-in linter stays on one line, and so
does the name of the linter. -/
theorem Offense.IsBuiltin.onOneLine {offense : Offense}
    (builtin : offense.IsBuiltin) :
    '\n' ∉ offense.message ∧ '\n' ∉ offense.linterName.toList := by
  obtain ⟨linterClass, known, config, basePath, source, member⟩ := builtin
  obtain ⟨finding, reported, message, name⟩ :=
    Source.exists_report_of_mem_recordWithin
      (show offense ∈ (source.recordWithin source.lineTable linterClass.name
        (linterClass.check config source)).1 from member)
  have single := LinterClass.onOneLine_of_report known reported
  have names : ∀ linterClass ∈ LinterClass.builtin,
      '\n' ∉ linterClass.name.toList := by
    decide
  rw [message, name]
  exact ⟨single, names linterClass known⟩

end TemplateLint
