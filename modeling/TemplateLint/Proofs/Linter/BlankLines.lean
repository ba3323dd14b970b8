import TemplateLint.Proofs.Linter.NewlineRuns

/-!
# Blank lines in a row

Two newlines are one blank line behind another line, but they are two blank
lines at the start of a text.  `ExtraNewline` counts newlines: it finds two blank
lines in a row behind any other line, and passes over those at the start.
-/

namespace TemplateLint.ExtraNewline

open Text

/-- Two blank lines in a row behind some lines of a text, with another
character than a newline somewhere behind them. -/
def DoublesBlank (text : Text) (earlier : List Text) : Prop :=
  ∃ later, text.lines = earlier ++ [] :: [] :: later ∧ ∃ line ∈ later, line ≠ []

/-- A text with another character than a newline. -/
def HasOther (text : Text) : Prop := ∃ c ∈ text, c ≠ '\n'

theorem hasOther_iff_ne_nil {line : Text} (single : '\n' ∉ line) :
    HasOther line ↔ line ≠ [] := by
  constructor
  · rintro ⟨c, member, -⟩
    exact List.ne_nil_of_mem member
  · intro some_line
    obtain ⟨c, later, rfl⟩ := List.exists_cons_of_ne_nil some_line
    refine ⟨c, .head _, ?_⟩
    rintro rfl
    exact single (.head _)

theorem hasOther_cons {c : Char} {rest : Text} :
    HasOther (c :: rest) ↔ c ≠ '\n' ∨ HasOther rest := by
  simp only [HasOther, List.mem_cons, or_and_right, exists_or, exists_eq_left]

theorem hasOther_append {front rest : Text} :
    HasOther (front ++ rest) ↔ HasOther front ∨ HasOther rest := by
  simp only [HasOther, List.mem_append, or_and_right, exists_or]

theorem exists_line_ne_nil_iff {text : Text} :
    (∃ line ∈ lines text, line ≠ []) ↔ HasOther text := by
  induction text using lines_induction with
  | last line single =>
      rw [lines_of_not_mem single, hasOther_iff_ne_nil single]
      simp
  | more line rest single induction =>
      rw [lines_append rest single, hasOther_append, hasOther_cons, ← induction,
        hasOther_iff_ne_nil single]
      simp

/-- At the start of a text two newlines are two blank lines. -/
theorem doublesBlank_nil_iff {text : Text} :
    DoublesBlank text [] ↔ ∃ rest, text = '\n' :: '\n' :: rest ∧ HasOther rest := by
  constructor
  · rintro ⟨later, divided, line, member, some_line⟩
    obtain ⟨behind, rfl, blank⟩ :=
      (lines_eq_nil_cons_iff (List.cons_ne_nil _ _)).mp divided
    obtain ⟨rest, rfl, rfl⟩ :=
      (lines_eq_nil_cons_iff (List.ne_nil_of_mem member)).mp blank
    exact ⟨rest, rfl, exists_line_ne_nil_iff.mp ⟨line, member, some_line⟩⟩
  · rintro ⟨rest, rfl, other⟩
    refine ⟨lines rest, ?_, exists_line_ne_nil_iff.mpr other⟩
    rw [List.nil_append, lines_eq_nil_cons_iff (List.cons_ne_nil _ _)]
    exact ⟨_, rfl, lines_append rest List.not_mem_nil⟩

/-- Behind another line it takes three newlines. -/
theorem doublesBlank_iff {text : Text} {earlier : List Text}
    (some_line : earlier ≠ []) :
    DoublesBlank text earlier ↔
      ∃ front rest, text = front ++ '\n' :: '\n' :: '\n' :: rest ∧
        lines front = earlier ∧ HasOther rest := by
  constructor
  · rintro ⟨later, divided, other⟩
    obtain ⟨front, behind, rfl, ahead, blank⟩ :=
      (lines_eq_append_iff some_line (List.cons_ne_nil _ _)).mp divided
    obtain ⟨rest, rfl, otherRest⟩ := doublesBlank_nil_iff.mp ⟨later, blank, other⟩
    exact ⟨front, rest, rfl, ahead, otherRest⟩
  · rintro ⟨front, rest, rfl, rfl, otherRest⟩
    obtain ⟨later, blank, other⟩ :=
      doublesBlank_nil_iff.mpr ⟨rest, rfl, otherRest⟩
    refine ⟨later, ?_, other⟩
    rw [lines_append_newline, blank]
    rfl

/-- Three newlines with another character behind them have a run. -/
theorem runs_ne_nil {position count : Nat} {text : Text} (long : 2 < count)
    (other : HasOther text) : runs position count text ≠ [] := by
  induction text generalizing position count with
  | nil =>
      obtain ⟨c, member, -⟩ := other
      contradiction
  | cons c rest induction =>
      by_cases newline : c = '\n'
      · rw [runs, if_pos newline]
        apply induction (by omega)
        exact (hasOther_cons.mp other).resolve_left fun differs => differs newline
      · rw [runs, if_neg newline, if_pos long]
        exact List.cons_ne_nil _ _

/-- A text without runs has none behind any of its characters. -/
theorem exists_runs_behind {position count : Nat} {front rest : Text}
    (nothing : runs position count (front ++ rest) = []) :
    ∃ position count, runs position count rest = [] := by
  induction front generalizing position count with
  | nil => exact ⟨position, count, nothing⟩
  | cons c front induction =>
      rw [List.cons_append, runs] at nothing
      split at nothing
      · exact induction nothing
      · split at nothing
        · contradiction
        · exact induction nothing

/-- What is found is two blank lines behind another line. -/
theorem findings_eq_nil_iff {text : Text} :
    findings text = [] ↔ ∀ earlier, DoublesBlank text earlier → earlier = [] := by
  constructor
  · intro nothing earlier doubled
    by_contra some_line
    obtain ⟨front, rest, rfl, -, other⟩ := (doublesBlank_iff some_line).mp doubled
    rw [findings, List.map_eq_nil_iff] at nothing
    obtain ⟨position, count, none⟩ := exists_runs_behind nothing
    exact @runs_ne_nil (position + 3) (count + 3) rest (by omega) other none
  · intro first
    rw [List.eq_nil_iff_forall_not_mem]
    intro finding found
    obtain ⟨front, old, rest, rfl, ⟨⟨earlier, rfl, -⟩, some_old, newlines, c, later,
      rfl, other⟩, -⟩ := mem_findings_iff.mp found
    obtain ⟨d, old, rfl⟩ := List.exists_cons_of_ne_nil some_old
    obtain rfl := newlines d (.head _)
    -- the three newlines stand behind the last line of `earlier`
    apply lines_ne_nil earlier
    apply first
    rw [doublesBlank_iff (lines_ne_nil earlier)]
    exact ⟨earlier, old ++ c :: later, by simp, rfl, c, by simp, other⟩

theorem doublesBlank_nil_newlines_iff {count : Nat} {c : Char} {rest : Text}
    (other : c ≠ '\n') :
    DoublesBlank (List.replicate count '\n' ++ c :: rest) [] ↔ 2 ≤ count := by
  rw [doublesBlank_nil_iff]
  match count with
  | 0 => simp [other]
  | 1 => simp [other]
  | count + 2 =>
      simp only [Nat.le_add_left, iff_true]
      exact ⟨List.replicate count '\n' ++ c :: rest, rfl, c, by simp, other⟩

/-- Cutting runs leaves the blank lines at the start of a text. -/
theorem doublesBlank_nil_reference_iff {text : Text} :
    DoublesBlank (reference text) [] ↔ DoublesBlank text [] := by
  induction text using newlines_induction with
  | newlines count => rw [reference_newlines]
  | more count c rest other _ =>
      rw [reference_newlines_append other, doublesBlank_nil_newlines_iff other,
        doublesBlank_nil_newlines_iff other]
      omega

/-- A run finds two blank lines in a row behind another line, and its
corrections leave none there.  So blank lines in a row are found and mended
wherever they are exactly in a text that does not start with two. -/
theorem run_leaves_blank_lines_at_start (config : LinterConfig) (basePath : String)
    (source : Source) :
    ∃ linter mended,
      LinterClass.extraNewline.RunMends config basePath source linter mended ∧
      (linter.offenses = [] ↔
        ∀ earlier, DoublesBlank source.content earlier → earlier = []) ∧
      (∀ earlier, DoublesBlank mended earlier → earlier = []) ∧
      (((linter.offenses = [] ↔ ∀ earlier, ¬DoublesBlank source.content earlier) ∧
          ∀ earlier, ¬DoublesBlank mended earlier) ↔
        ¬DoublesBlank source.content []) := by
  obtain ⟨linter, mends, silent⟩ :=
    @Mends.exists_run LinterClass.extraNewline config source _ _
      (mends_reference source.content) rfl rfl basePath
  have reported := silent.trans findings_eq_nil_iff
  have left := findings_eq_nil_iff.mp (findings_reference source.content)
  refine ⟨linter, _, mends, reported, left, ?_, ?_⟩
  · rintro ⟨-, noneLeft⟩ atStart
    exact noneLeft [] (doublesBlank_nil_reference_iff.mpr atStart)
  · intro otherStart
    refine ⟨reported.trans ⟨?_, ?_⟩, ?_⟩
    · intro first earlier doubled
      rw [first earlier doubled] at doubled
      exact otherStart doubled
    · exact fun none earlier doubled => absurd doubled (none earlier)
    · intro earlier doubled
      rw [left earlier doubled, doublesBlank_nil_reference_iff] at doubled
      exact otherStart doubled

/-- Two blank lines at the start of a text are neither found nor corrected. -/
theorem run_passes_over_blank_start :
    DoublesBlank "\n\nb" [] ∧
      (Linter.fresh LinterClass.extraNewline ⟨true, [], .none⟩ "/").run
          ⟨"a.html.erb", "\n\nb"⟩ =
        (⟨LinterClass.extraNewline, ⟨true, [], .none⟩, "/", []⟩, none) ∧
      LinterClass.extraNewline.pass ⟨true, [], .none⟩ "/" ⟨"a.html.erb", "\n\nb"⟩ =
        .ok "\n\nb" := by
  refine ⟨⟨["b"], by decide, "b", by decide, by decide⟩, rfl, ?_⟩
  decide +kernel

end TemplateLint.ExtraNewline
