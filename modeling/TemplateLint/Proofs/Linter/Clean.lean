import TemplateLint.Proofs.Linter.Reference
import TemplateLint.Proofs.Linter.Reindenting
import TemplateLint.Proofs.Linter.Respacing
import TemplateLint.Proofs.Linter.Restyling

/-!
# One pass is enough for one linter

Each correctable linter alone has all of its corrections made in one pass, and
finds nothing in the text that is left.
-/

namespace TemplateLint.LinterClass

variable {linterClass : LinterClass} {config : LinterConfig}
  {findings : Text → List Finding}

/-- What a correctable linter finds mends a text once and for all.  Trailing
white space may appear in front of a carriage return that does not end a line. -/
theorem Finds.exists_clean {own : OwnOption} (finds : Finds own linterClass findings)
    (correctable : linterClass.correctable = true) (text : Text) :
    ∃ mended, Mends (findings text) text mended ∧
      ((linterClass = .trailingWhitespace →
        TrailingWhitespace.ReturnsEndLines text) → findings mended = []) := by
  cases finds with
  | @finalNewline flag _ =>
      exact ⟨_, FinalNewline.mends_reference flag text,
        fun _ => FinalNewline.findings_reference flag text⟩
  | @rightTrim style _ =>
      obtain ⟨mended, mends, clean⟩ :=
        (RightTrim.edits_restyled style).exists_mends_of_silent
          (fun position => RightTrim.inTag_restyled position) text
      exact ⟨mended, mends, fun _ => clean⟩
  | spaceAroundErbTag =>
      obtain ⟨mended, mends, clean⟩ :=
        SpaceAroundErbTag.edits_respaced.exists_mends_of_silent
          (fun position => SpaceAroundErbTag.inTag_respaced position) text
      exact ⟨mended, mends, fun _ => clean⟩
  | @spaceIndentation width _ _ =>
      refine ⟨_, SpaceIndentation.mends_reference width text, fun _ => ?_⟩
      exact List.map_eq_nil_iff.mpr (SpaceIndentation.indents_reference width text)
  | trailingWhitespace =>
      exact ⟨_, TrailingWhitespace.mends_reference text,
        fun returns => TrailingWhitespace.findings_reference (returns rfl)⟩
  | extraNewline =>
      exact ⟨_, ExtraNewline.mends_reference text,
        fun _ => ExtraNewline.findings_reference text⟩
  | noJavascriptTagHelper => contradiction

/-- Where nothing is found, no tab is too wide. -/
theorem Finds.not_overflows {own : OwnOption} (finds : Finds own linterClass findings)
    (fits : own.Fits linterClass.schema) {text : Text} (nothing : findings text = []) :
    ¬own.Overflows text := by
  rintro ⟨width, given, -, indented⟩
  rw [(finds.of_tabWidth fits given).2] at nothing
  exact indented (List.map_eq_nil_iff.mp nothing)

/-- A linter that finds nothing reports nothing. -/
theorem Finds.run_of_nil (finds : Finds config.own linterClass findings)
    (fits : config.own.Fits linterClass.schema) {source : Source}
    (nothing : findings source.content = []) (basePath : String) :
    (Linter.fresh linterClass config basePath).run source =
      (Linter.fresh linterClass config basePath, none) := by
  have silent := finds.check_eq (finds.not_overflows fits nothing)
  rw [nothing] at silent
  rw [Linter.run, Linter.fresh, silent]
  rfl

/-- A run of a correctable linter with any options that its schema takes has all
of its offenses corrected in one pass, and a run over the result reports
nothing.  It breaks off for tabs alone that are too wide to be expanded. -/
theorem run_is_clean_after_pass {entries : Entries} (known : linterClass ∈ builtin)
    (correctable : linterClass.correctable = true)
    (resolved : LinterConfig.resolve linterClass.schema entries = .ok config)
    (basePath : String) (source : Source) :
    (¬config.own.Overflows source.content →
      ∃ linter mended, linterClass.RunMends config basePath source linter mended ∧
        ((linterClass = .trailingWhitespace →
            TrailingWhitespace.ReturnsEndLines source.content) →
          (Linter.fresh linterClass config basePath).run ⟨source.filename, mended⟩ =
            (Linter.fresh linterClass config basePath, none))) ∧
    (config.own.Overflows source.content →
      (Linter.fresh linterClass config basePath).run source =
        (Linter.fresh linterClass config basePath, some .tabWidthTooLarge)) := by
  have fits := LinterConfig.own_fits_of_resolve resolved
  obtain ⟨findings, finds⟩ := exists_finds known fits
  constructor
  · intro narrow
    obtain ⟨mended, mends, clean⟩ := finds.exists_clean correctable source.content
    obtain ⟨linter, run, -⟩ :=
      mends.exists_run correctable (finds.check_eq narrow) basePath
    refine ⟨linter, mended, run, fun returns => ?_⟩
    exact @Finds.run_of_nil _ _ _ finds fits ⟨source.filename, mended⟩
      (clean returns) basePath
  · intro overflows
    obtain ⟨width, given, -⟩ := id overflows
    obtain ⟨rfl, -⟩ := finds.of_tabWidth fits given
    exact Linter.run_of_overflows basePath overflows

theorem run_is_clean_after_four_columns :
    spaceIndentation ∈ builtin ∧ spaceIndentation.correctable = true ∧
      LinterConfig.resolve spaceIndentation.schema [(.text "tab_width", .int 4)] =
        .ok ⟨false, [], .tabWidth 4⟩ ∧
      ¬(OwnOption.tabWidth 4).Overflows " \ta\tb\n\t" ∧
      ∃ linter mended,
        spaceIndentation.RunMends ⟨false, [], .tabWidth 4⟩ "/"
          ⟨"a.html.erb", " \ta\tb\n\t"⟩ linter mended ∧
        (Linter.fresh spaceIndentation ⟨false, [], .tabWidth 4⟩ "/").run
            ⟨"a.html.erb", mended⟩ =
          (Linter.fresh spaceIndentation ⟨false, [], .tabWidth 4⟩ "/", none) := by
  have known : spaceIndentation ∈ builtin := by simp [builtin]
  have narrow : ¬(OwnOption.tabWidth 4).Overflows " \ta\tb\n\t" := by
    rintro ⟨width, given, wide, -⟩
    cases given
    contradiction
  have resolved : LinterConfig.resolve spaceIndentation.schema
      [(.text "tab_width", .int 4)] = .ok ⟨false, [], .tabWidth 4⟩ := rfl
  obtain ⟨linter, mended, mends, clean⟩ :=
    (run_is_clean_after_pass known rfl resolved "/"
      ⟨"a.html.erb", " \ta\tb\n\t"⟩).1 narrow
  refine ⟨known, rfl, resolved, narrow, linter, mended, mends, clean fun same => ?_⟩
  have names := congrArg LinterClass.name same
  contradiction

/-- Options that their schema takes can break off a run. -/
theorem run_fails_on_wide_tabs :
    LinterConfig.resolve spaceIndentation.schema
        [(.text "tab_width", .int 2147483648)] =
      .ok ⟨false, [], .tabWidth 2147483648⟩ ∧
    (Linter.fresh spaceIndentation ⟨false, [], .tabWidth 2147483648⟩ "/").run
        ⟨"a.html.erb", "\t"⟩ =
      (Linter.fresh spaceIndentation ⟨false, [], .tabWidth 2147483648⟩ "/",
        some .tabWidthTooLarge) :=
  ⟨rfl, rfl⟩

end TemplateLint.LinterClass
