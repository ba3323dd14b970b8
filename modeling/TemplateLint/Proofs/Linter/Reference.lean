import TemplateLint.Proofs.Linter.NewlineRuns
import TemplateLint.Proofs.Linter.Trimming

/-!
# Reference texts

A pass of a linter that looks at newlines or at white space gives a text that
is described without the linter: its reference.  An offense is reported exactly
in a text that is not its own reference.
-/

namespace TemplateLint

open Text

/-! ## The end of a text -/

namespace FinalNewline

/-- The text without the newlines at its end, and with one newline there if one
is to be present.  The empty text stays empty. -/
def reference (present : Bool) (text : Text) : Text :=
  if text = [] then []
  else dropLastRun (· = '\n') text ++ if present then ['\n'] else []

theorem reference_of_ends {present : Bool} {front run : Text}
    (longest : LastIs (· ≠ '\n') front) (newlines : ∀ c ∈ run, c = '\n')
    (some_text : front ++ run ≠ []) :
    reference present (front ++ run) = front ++ if present then ['\n'] else [] := by
  rw [reference, if_neg some_text, dropLastRun_append]
  · intro c last
    simpa using longest c last
  · simpa using newlines

theorem mends_reference (present : Bool) (text : Text) :
    Mends (findings present text) text (reference present text) := by
  obtain ⟨front, run, rfl, longest, newlines⟩ := exists_ends text
  by_cases empty : front ++ run = []
  · rw [empty]
    exact .nil []
  · rw [findings_of_ends longest newlines empty,
      reference_of_ends longest newlines empty]
    cases present with
    | false =>
        cases run with
        | nil => simpa using Mends.nil front
        | cons c run => simpa using Mends.single front (c :: run) [] [] _
    | true =>
        match run with
        | [] => simpa using Mends.single front [] ['\n'] [] missingMessage
        | [c] =>
            obtain rfl := newlines c (.head _)
            exact Mends.nil _
        | c :: d :: run =>
            obtain rfl := newlines c (.head _)
            have mends := Mends.single (front ++ ['\n']) (d :: run) [] []
              (unwantedMessage true (run.length + 2))
            simpa [Nat.add_assoc, Nat.add_comm 1] using mends

/-- Nothing is found at the end of a reference. -/
theorem findings_reference (present : Bool) (text : Text) :
    findings present (reference present text) = [] := by
  obtain ⟨front, run, rfl, longest, newlines⟩ := exists_ends text
  by_cases empty : front ++ run = []
  · rw [empty]
    rfl
  · rw [reference_of_ends longest newlines empty]
    cases present with
    | true => rw [findings_of_ends longest (by simp) (by simp)]; rfl
    | false =>
        by_cases nothing : front = []
        · rw [nothing]
          rfl
        · rw [findings_of_ends longest (by simp) (by simpa using nothing)]
          rfl

end FinalNewline

/-! ## Passes -/

/-- A pass of a linter alone gives the reference text.  It reports an offense
exactly if that is not the text itself. -/
def LinterClass.Computes (linterClass : LinterClass) (config : LinterConfig)
    (reference : Text → Text) : Prop :=
  ∀ basePath source, ∃ linter,
    linterClass.RunMends config basePath source linter (reference source.content) ∧
    (linter.offenses ≠ [] ↔ reference source.content ≠ source.content)

/-- A linter that only reports findings computes the texts that they give. -/
theorem LinterClass.computes_of_mends {linterClass : LinterClass}
    {config : LinterConfig} {findings : Text → List Finding} {reference : Text → Text}
    (correctable : linterClass.correctable = true)
    (reports : ∀ source, linterClass.check config source =
      (findings source.content).map .report)
    (mends : ∀ text, Mends (findings text) text (reference text))
    (silent : ∀ text, findings text = [] ↔ reference text = text) :
    linterClass.Computes config reference := by
  intro basePath source
  obtain ⟨linter, run, none⟩ :=
    (mends source.content).exists_run correctable (reports source) basePath
  exact ⟨linter, run, (none.trans (silent source.content)).not⟩

/-- The linters of newlines and of trailing white space compute their reference
texts. -/
theorem passes_compute_references (enabled : Bool) (exclude : List String) :
    (∀ present, LinterClass.finalNewline.Computes
      ⟨enabled, exclude, .present present⟩ (FinalNewline.reference present)) ∧
    LinterClass.trailingWhitespace.Computes ⟨enabled, exclude, .none⟩
      TrailingWhitespace.reference ∧
    LinterClass.extraNewline.Computes ⟨enabled, exclude, .none⟩
      ExtraNewline.reference := by
  refine ⟨fun present => ?_, ?_, ?_⟩
  · exact LinterClass.computes_of_mends rfl (fun _ => rfl)
      (FinalNewline.mends_reference present) fun text =>
        (FinalNewline.mends_reference present text).eq_nil_iff
          (FinalNewline.findings_reference present text)
  · exact LinterClass.computes_of_mends rfl (fun _ => rfl)
      TrailingWhitespace.mends_reference
      fun _ => TrailingWhitespace.findings_eq_nil_iff
  · exact LinterClass.computes_of_mends rfl (fun _ => rfl)
      ExtraNewline.mends_reference fun text =>
        (ExtraNewline.mends_reference text).eq_nil_iff
          (ExtraNewline.findings_reference text)

end TemplateLint
