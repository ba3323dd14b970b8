import Mathlib.Data.List.Forall2
import TemplateLint.Linter.Builtin
import TemplateLint.Linter.Options
import TemplateLint.Proofs.Correction.Change

/-!
# What built-in linters report

A built-in linter with acceptable options reports findings that lie inside the
text and breaks off for tabs alone that are too wide to be expanded.
-/

namespace TemplateLint

/-! ## Records -/

/-- A range inside a text. -/
def Finding.Inside (size : Nat) (finding : Finding) : Prop :=
  0 ≤ finding.beginPos ∧ finding.beginPos ≤ finding.endPos ∧
    finding.endPos ≤ size

theorem Finding.inside_replacing {front old rest message new : Text} :
    (replacing front.length (front.length + old.length) message new).Inside
      (front ++ old ++ rest).length := by
  simp only [Inside, replacing, List.length_append]
  omega

/-- The offense that a finding becomes. -/
def Source.Records (source : Source) (linterName : String) (finding : Finding)
    (offense : Offense) : Prop :=
  ∃ range, source.range finding.beginPos finding.endPos = .ok range ∧
    offense = finding.offense linterName range

/-- Findings inside a source become offenses one by one. -/
theorem Source.record_reports {source : Source} (linterName : String)
    {findings : List Finding}
    (inside : ∀ finding ∈ findings, finding.Inside source.content.length) :
    ∃ offenses,
      source.record linterName (findings.map .report) = (offenses, none) ∧
      List.Forall₂ (source.Records linterName) findings offenses := by
  induction findings with
  | nil => exact ⟨[], rfl, .nil⟩
  | cons finding findings induction =>
      obtain ⟨offenses, recorded, records⟩ :=
        induction fun later member => inside later (.tail _ member)
      obtain ⟨range, found⟩ : ∃ range, source.rangeWithin source.lineTable
          finding.beginPos finding.endPos = .ok range :=
        ⟨_, if_pos (inside finding (.head _))⟩
      refine ⟨finding.offense linterName range :: offenses, ?_,
        .cons ⟨range, found, rfl⟩ records⟩
      rw [record] at recorded ⊢
      rw [List.map_cons, recordWithin, found]
      simp only [recorded]

/-- A range begins and ends where it was looked up. -/
theorem Source.positions_of_range {source : Source} {beginPos endPos : Int}
    {range : SourceRange} (found : source.range beginPos endPos = .ok range) :
    range.beginPos = beginPos ∧ range.endPos = endPos := by
  rw [Source.range, rangeWithin] at found
  split at found
  · cases found
    exact ⟨rfl, rfl⟩
  · contradiction

section Records

variable {source : Source} {linterName : String} {findings : List Finding}
  {offenses : List Offense}

/-- Offenses carry the corrections of their findings. -/
theorem Source.map_correction_of_records
    (records : List.Forall₂ (source.Records linterName) findings offenses) :
    offenses.map (·.correction) = findings.map (·.correction) := by
  induction records with
  | nil => rfl
  | cons first _ induction =>
      obtain ⟨range, -, rfl⟩ := first
      rw [List.map_cons, List.map_cons, induction]
      rfl

/-- Every offense comes from a finding. -/
theorem Source.exists_finding_of_records
    (records : List.Forall₂ (source.Records linterName) findings offenses) :
    ∀ offense ∈ offenses, ∃ finding ∈ findings,
      source.Records linterName finding offense := by
  induction records with
  | nil => simp
  | cons first _ induction =>
      refine List.forall_mem_cons.mpr ⟨⟨_, .head _, first⟩, ?_⟩
      intro offense later
      obtain ⟨finding, member, recorded⟩ := induction offense later
      exact ⟨finding, .tail _ member, recorded⟩

/-- Offenses carry the name of the linter. -/
theorem Source.linterName_of_records
    (records : List.Forall₂ (source.Records linterName) findings offenses) :
    ∀ offense ∈ offenses, offense.linterName = linterName := by
  intro offense member
  obtain ⟨_, -, range, -, rfl⟩ := exists_finding_of_records records offense member
  rfl

end Records

/-! ## Options -/

/-- An option belongs to a schema, and tabs are at least one character wide. -/
def OwnOption.Fits (own : OwnOption) (schema : OptionSchema) : Prop :=
  own.schema = schema ∧ ∀ width, own = .tabWidth width → 0 < width

theorem OptionSchema.default_fits (schema : OptionSchema) :
    schema.default.Fits schema := by
  refine ⟨by cases schema <;> rfl, ?_⟩
  intro width same
  cases schema <;> cases same
  decide

theorem OptionValue.width_pos {value : Value} {result : Nat}
    (read : width value = .ok result) : 0 < result := by
  simp only [width, bind, Except.bind] at read
  split at read
  · contradiction
  · split at read
    · contradiction
    · cases read
      omega

theorem OptionSchema.ownValue_fits {schema : OptionSchema} {value : Value}
    {own : OwnOption} (read : schema.ownValue value = .ok own) :
    own.Fits schema := by
  cases schema with
  | common =>
      cases read
      exact ⟨rfl, by simp⟩
  | finalNewline =>
      cases flag : OptionValue.flag value with
      | error problem =>
          rw [ownValue, flag] at read
          contradiction
      | ok present =>
          rw [ownValue, flag] at read
          cases read
          exact ⟨rfl, by simp⟩
  | rightTrim =>
      cases style : OptionValue.style value with
      | error problem =>
          rw [ownValue, style] at read
          contradiction
      | ok mark =>
          rw [ownValue, style] at read
          cases read
          exact ⟨rfl, by simp⟩
  | spaceIndentation =>
      cases width : OptionValue.width value with
      | error problem =>
          rw [ownValue, width] at read
          contradiction
      | ok result =>
          rw [ownValue, width] at read
          cases read
          refine ⟨rfl, ?_⟩
          intro other same
          cases same
          exact OptionValue.width_pos width

theorem LinterConfig.ownOf_fits {schema : OptionSchema} {entries : Entries}
    {own : OwnOption} (read : ownOf schema entries = .ok own) :
    own.Fits schema := by
  unfold ownOf at read
  split at read
  · cases read
    exact schema.default_fits
  · split at read
    · cases read
      exact schema.default_fits
    · rename_i value _
      cases given : schema.ownValue value with
      | error problem =>
          rw [given] at read
          contradiction
      | ok result =>
          rw [given] at read
          cases read
          exact OptionSchema.ownValue_fits given

/-- The options that a schema resolves fit it. -/
theorem LinterConfig.own_fits_of_resolve {schema : OptionSchema}
    {entries : Entries} {config : LinterConfig}
    (resolved : resolve schema entries = .ok config) : config.own.Fits schema := by
  simp only [resolve, bind, Except.bind] at resolved
  split at resolved
  · contradiction
  · split at resolved
    · contradiction
    · cases own : ownOf schema entries with
      | error problem =>
          rw [own] at resolved
          contradiction
      | ok result =>
          rw [own] at resolved
          cases fields : checkFields schema entries with
          | error problem =>
              rw [fields] at resolved
              contradiction
          | ok _ =>
              rw [fields] at resolved
              cases resolved
              exact ownOf_fits own

/-! ## Findings -/

namespace LinterClass

/-- What a built-in linter finds with its own option. -/
inductive Finds (own : OwnOption) : LinterClass → (Text → List Finding) → Prop where
  | finalNewline {flag : Bool} (given : own = .present flag) :
      Finds own finalNewline (FinalNewline.findings flag)
  | rightTrim {style : TrimMark} (given : own = .enforcedStyle style) :
      Finds own rightTrim (RightTrim.findings style)
  | spaceAroundErbTag : Finds own spaceAroundErbTag SpaceAroundErbTag.findings
  | spaceIndentation {width : Nat} (given : own = .tabWidth width)
      (positive : 0 < width) :
      Finds own spaceIndentation (SpaceIndentation.findings width)
  | trailingWhitespace : Finds own trailingWhitespace TrailingWhitespace.findings
  | extraNewline : Finds own extraNewline ExtraNewline.findings
  | noJavascriptTagHelper :
      Finds own noJavascriptTagHelper NoJavascriptTagHelper.findings

theorem exists_finds {linterClass : LinterClass} {own : OwnOption}
    (member : linterClass ∈ builtin) (fits : own.Fits linterClass.schema) :
    ∃ findings, Finds own linterClass findings := by
  obtain ⟨schema, positive⟩ := fits
  simp only [builtin, List.mem_cons, List.not_mem_nil, or_false] at member
  rcases member with rfl | rfl | rfl | rfl | rfl | rfl | rfl
  · cases own with
    | present flag => exact ⟨_, .finalNewline rfl⟩
    | none => contradiction
    | enforcedStyle _ => contradiction
    | tabWidth _ => contradiction
  · cases own with
    | enforcedStyle style => exact ⟨_, .rightTrim rfl⟩
    | none => contradiction
    | present _ => contradiction
    | tabWidth _ => contradiction
  · exact ⟨_, .spaceAroundErbTag⟩
  · cases own with
    | tabWidth width => exact ⟨_, .spaceIndentation rfl (positive width rfl)⟩
    | none => contradiction
    | present _ => contradiction
    | enforcedStyle _ => contradiction
  · exact ⟨_, .trailingWhitespace⟩
  · exact ⟨_, .extraNewline⟩
  · exact ⟨_, .noJavascriptTagHelper⟩

/-- Widths of tabs are options of one class alone. -/
theorem Finds.of_tabWidth {linterClass : LinterClass} {own : OwnOption}
    {findings : Text → List Finding} {width : Nat}
    (finds : Finds own linterClass findings) (fits : own.Fits linterClass.schema)
    (given : own = .tabWidth width) :
    linterClass = LinterClass.spaceIndentation ∧
      findings = SpaceIndentation.findings width := by
  have schema := fits.1
  rw [given] at schema
  cases finds with
  | spaceIndentation option _ =>
      rw [given] at option
      cases option
      exact ⟨rfl, rfl⟩
  | finalNewline _ => contradiction
  | rightTrim _ => contradiction
  | spaceAroundErbTag => contradiction
  | trailingWhitespace => contradiction
  | extraNewline => contradiction
  | noJavascriptTagHelper => contradiction

end LinterClass

/-- Tabs of an indent are too wide to be expanded. -/
def OwnOption.Overflows (own : OwnOption) (text : Text) : Prop :=
  ∃ width, own = .tabWidth width ∧ SpaceIndentation.widestTab < width ∧
    SpaceIndentation.indents text ≠ []

/-- Tabs that can be expanded are found. -/
theorem SpaceIndentation.check_of_narrow {config : LinterConfig} {source : Source}
    {width : Nat} (given : config.own = .tabWidth width)
    (narrow : ¬config.own.Overflows source.content) :
    check config source = (findings width source.content).map .report := by
  rw [check, given]
  by_cases fine : width ≤ widestTab
  · exact if_pos fine
  · have none_indented : indents source.content = [] := by
      by_contra indented
      exact narrow ⟨width, given, by omega, indented⟩
    simp [findings, none_indented]

/-- Tabs that are too wide break off the check. -/
theorem SpaceIndentation.check_of_overflows {config : LinterConfig}
    {source : Source} (overflows : config.own.Overflows source.content) :
    ∃ later, check config source = .fail .tabWidthTooLarge :: later := by
  obtain ⟨width, given, wide, indented⟩ := overflows
  obtain ⟨indent, more, indents⟩ := List.exists_cons_of_ne_nil indented
  rw [check, given]
  refine ⟨more.map fun _ => .fail .tabWidthTooLarge, ?_⟩
  simp only [if_neg (Nat.not_le.mpr wide), indents, List.map_cons]

namespace LinterClass.Finds

variable {own : OwnOption} {linterClass : LinterClass}
  {findings : Text → List Finding}

/-- Unless tabs are too wide, a built-in linter reports what it finds. -/
theorem check_eq {config : LinterConfig} {source : Source}
    (finds : Finds config.own linterClass findings)
    (narrow : ¬config.own.Overflows source.content) :
    linterClass.check config source = (findings source.content).map .report := by
  cases finds with
  | finalNewline given =>
      show FinalNewline.check config source = _
      rw [FinalNewline.check, given]
  | rightTrim given =>
      show RightTrim.check config source = _
      rw [RightTrim.check, given]
  | spaceAroundErbTag => rfl
  | spaceIndentation given _ =>
      exact SpaceIndentation.check_of_narrow given narrow
  | trailingWhitespace => rfl
  | extraNewline => rfl
  | noJavascriptTagHelper => rfl

end LinterClass.Finds

end TemplateLint
