import TemplateLint.Proofs.Correction.Lines
import TemplateLint.Proofs.Correction.LineByLine

/-!
# Indents without tabs

A pass of `SpaceIndentation` alone replaces the tabs in front of each line by
spaces up to the same tab stops.  All that follows an indent stays, and it stays
in its column: a line looks the same when its other tabs are expanded, too.
-/

namespace TemplateLint.SpaceIndentation

open Text Script

/-- A line with its tabs expanded, where `column` characters precede it and
carriage returns may take it back to the first column. -/
def expandLine (returns : Bool) (width column : Nat) : Text → Text
  | [] => []
  | c :: rest =>
      if c = '\t' then
        let spaces := width - column % width
        List.replicate spaces ' ' ++ expandLine returns width (column + spaces) rest
      else if returns && c = '\r' then c :: expandLine returns width 0 rest
      else c :: expandLine returns width (column + 1) rest

/-- The line with spaces for its indent if there is a tab in that. -/
def reindented (width : Nat) (line : Text) : Text :=
  if '\t' ∈ line.takeWhile isSpaceOrTab then
    expandTabs width 0 (line.takeWhile isSpaceOrTab) ++ line.dropWhile isSpaceOrTab
  else line

/-- The text with each of its lines reindented. -/
def reference (width : Nat) (text : Text) : Text := text.mapLines (reindented width)

/-- A line is laid out as another one, without tabs in its indent. -/
structure LaidOut (width : Nat) (line result : Text) : Prop where
  untabbed : '\t' ∉ result.takeWhile isSpaceOrTab
  behind : result.dropWhile isSpaceOrTab = line.dropWhile isSpaceOrTab
  kept : '\t' ∉ line.takeWhile isSpaceOrTab → result = line
  expanded : ∀ returns,
    expandLine returns width 0 result = expandLine returns width 0 line

/-! ## Lines -/

/-- Blanks in front of a line are expanded on their own. -/
theorem expandLine_blanks {returns : Bool} {width column : Nat} {blanks rest : Text}
    (blank : ∀ c ∈ blanks, isSpaceOrTab c = true) :
    expandLine returns width column (blanks ++ rest) =
      expandTabs width column blanks ++
        expandLine returns width (column + (expandTabs width column blanks).length)
          rest := by
  induction blanks generalizing column with
  | nil => rfl
  | cons c blanks induction =>
      obtain ⟨first, later⟩ := List.forall_mem_cons.mp blank
      by_cases tab : c = '\t'
      · rw [List.cons_append, expandLine, expandTabs, if_pos tab, if_pos tab]
        simp only [induction later, List.append_assoc, List.length_append,
          List.length_replicate, Nat.add_assoc]
      · have other : c ≠ '\r' := by
          rintro rfl
          contradiction
        rw [List.cons_append, expandLine, expandTabs, if_neg tab, if_neg tab]
        simp only [other, induction later, decide_false, Bool.and_false,
          Bool.false_eq_true, if_false, List.cons_append, List.length_cons,
          Nat.add_assoc, Nat.add_comm 1]

/-- Spaces are what they are expanded to. -/
theorem expandTabs_of_spaces {width column : Nat} {spaces : Text}
    (all : ∀ c ∈ spaces, c = ' ') : expandTabs width column spaces = spaces := by
  induction spaces generalizing column with
  | nil => rfl
  | cons c spaces induction =>
      obtain ⟨rfl, later⟩ := List.forall_mem_cons.mp all
      rw [expandTabs, if_neg (by decide), induction later]

theorem laidOut_reindented (width : Nat) (line : Text) :
    LaidOut width line (reindented width line) := by
  have blank : ∀ c ∈ line.takeWhile isSpaceOrTab, isSpaceOrTab c = true :=
    fun c => List.mem_takeWhile_imp
  have ends := @firstIs_dropWhile isSpaceOrTab line
  by_cases tabbed : '\t' ∈ line.takeWhile isSpaceOrTab
  · have spaces : ∀ c ∈ expandTabs width 0 (line.takeWhile isSpaceOrTab), c = ' ' :=
      fun c => eq_space_of_mem_expandTabs blank
    have spacesBlank : ∀ c ∈ expandTabs width 0 (line.takeWhile isSpaceOrTab),
        isSpaceOrTab c = true := fun c member => by rw [spaces c member]; rfl
    rw [reindented, if_pos tabbed]
    refine ⟨?_, dropWhile_append spacesBlank ends, absurd tabbed, fun returns => ?_⟩
    · rw [takeWhile_append spacesBlank ends]
      intro member
      have space := spaces _ member
      contradiction
    · -- spaces are expanded to themselves, so the rest begins in the same column
      have parts := @List.takeWhile_append_dropWhile _ isSpaceOrTab line
      conv => rhs; rw [← parts]
      rw [expandLine_blanks spacesBlank, expandLine_blanks blank,
        expandTabs_of_spaces spaces]
  · rw [reindented, if_neg tabbed]
    exact ⟨tabbed, rfl, fun _ => rfl, fun _ => rfl⟩

/-- What is found in a line. -/
def inLine (width position : Nat) (line : Text) : List Finding :=
  (tabbedIndent? line).toList.map fun indent => finding width (position, indent)

theorem inLine_eq_nil_iff (width position : Nat) (line : Text) :
    inLine width position line = [] ↔ '\t' ∉ line.takeWhile isSpaceOrTab := by
  simp [inLine, tabbedIndent?]

theorem changesLine_reindented (width : Nat) :
    ChangesLine (inLine width) (reindented width) := by
  intro line
  by_cases tabbed : '\t' ∈ line.takeWhile isSpaceOrTab
  · refine ⟨.swap (line.takeWhile isSpaceOrTab)
      (expandTabs width 0 (line.takeWhile isSpaceOrTab)) ::
        keeping (line.dropWhile isSpaceOrTab), ?_, ?_, fun position => ?_⟩
    · rw [before_swap, before_keeping, List.takeWhile_append_dropWhile]
    · rw [after_swap, after_keeping, reindented, if_pos tabbed]
    · rw [made, made_only_keeping, inLine, tabbedIndent?]
      simp [tabbed, finding, Finding.replacing]
  · refine ⟨keeping line, before_keeping line, ?_, fun position => ?_⟩
    · rw [after_keeping, reindented, if_neg tabbed]
    · rw [made_only_keeping, (inLine_eq_nil_iff width position line).mpr tabbed]
      rfl

theorem single_reindented (width : Nat) {line : Text} (single : '\n' ∉ line) :
    '\n' ∉ reindented width line := by
  by_cases tabbed : '\t' ∈ line.takeWhile isSpaceOrTab
  · rw [reindented, if_pos tabbed, List.mem_append, not_or]
    constructor
    · intro member
      have space := eq_space_of_mem_expandTabs
        (fun c => List.mem_takeWhile_imp) member
      contradiction
    · exact fun member => single ((List.dropWhile_sublist _).mem member)
  · rwa [reindented, if_neg tabbed]

/-! ## Texts -/

theorem findings_eq_overLines (width : Nat) (text : Text) :
    findings width text = overLines (inLine width) 0 text.lines := by
  simp only [findings, indents, map_overLines, List.map_map]
  rfl

theorem mends_reference (width : Nat) (text : Text) :
    Mends (findings width text) text (reference width text) := by
  rw [findings_eq_overLines]
  apply (changesLine_reindented width).mends
  intro found member
  rw [← findings_eq_overLines, mem_findings_iff] at member
  obtain ⟨front, old, rest, whole, indents, rfl⟩ := member
  exact ⟨front, old, rest, message, _, whole, indents.inhabited, rfl⟩

theorem lines_reference (width : Nat) (text : Text) :
    (reference width text).lines = text.lines.map (reindented width) :=
  lines_mapLines (single_reindented width) text

/-- No indent is left with a tab. -/
theorem indents_reference (width : Nat) (text : Text) :
    indents (reference width text) = [] := by
  have none : findings width (reference width text) = [] := by
    rw [findings_eq_overLines, overLines_eq_nil_iff (inLine_eq_nil_iff width),
      lines_reference, List.forall_mem_map]
    exact fun line _ => (laidOut_reindented width line).untabbed
  exact List.map_eq_nil_iff.mp none

/-- A pass lays out each line as before and leaves no tab in an indent, unless
tabs are too wide to be expanded.  Then it breaks off. -/
theorem pass_keeps_layout (enabled : Bool) (exclude : List String) (width : Nat)
    (basePath : String) (source : Source) :
    (¬(OwnOption.tabWidth width).Overflows source.content →
      ∃ text,
        LinterClass.spaceIndentation.pass ⟨enabled, exclude, .tabWidth width⟩ basePath
          source = .ok text ∧
        text.lines.length = source.content.lines.length ∧
        List.Forall₂ (LaidOut width) source.content.lines text.lines) ∧
    ((OwnOption.tabWidth width).Overflows source.content →
      LinterClass.spaceIndentation.pass ⟨enabled, exclude, .tabWidth width⟩ basePath
        source = .error .tabWidthTooLarge) := by
  constructor
  · intro narrow
    have reports := @check_of_narrow ⟨enabled, exclude, .tabWidth width⟩ source width
      rfl narrow
    obtain ⟨linter, run, -⟩ :=
      @Mends.exists_run LinterClass.spaceIndentation ⟨enabled, exclude, .tabWidth width⟩
        source _ _ (mends_reference width source.content) rfl reports basePath
    refine ⟨_, run.pass, ?_, ?_⟩
    · rw [lines_reference, List.length_map]
    · rw [lines_reference, List.forall₂_map_right_iff, List.forall₂_same]
      exact fun line _ => laidOut_reindented width line
  · intro overflows
    rw [LinterClass.pass, @Linter.run_of_overflows ⟨enabled, exclude, .tabWidth width⟩
      source basePath overflows]

/-- The width of tabs has no upper bound in the options, but it has one where
tabs are expanded. -/
theorem pass_fails_on_wide_tabs :
    LinterClass.spaceIndentation.pass ⟨true, [], .tabWidth 2147483648⟩ "/"
      ⟨"a.html.erb", "\ta"⟩ = .error .tabWidthTooLarge := by
  decide +kernel

end TemplateLint.SpaceIndentation
