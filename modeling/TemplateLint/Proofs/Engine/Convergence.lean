import TemplateLint.Proofs.Engine.Builtin

/-!
# Convergence of built-in correction

Every correction by built-in linters is a pass over the text, and five passes
leave nothing to change.  The passes of the engine therefore rest before their
limit, and where they rest nothing is left that a correctable linter reports.
The one thing that keeps them from it are tabs that are to be expanded to more
than the widest tab.
-/

namespace TemplateLint

open Text Script

theorem Text.Indented.of_indents {text : Text}
    (indented : SpaceIndentation.indents text ≠ []) : Indented text := by
  obtain ⟨⟨position, old⟩, member⟩ := List.exists_mem_of_ne_nil _ indented
  obtain ⟨front, rest, same, indents, -⟩ :=
    SpaceIndentation.mem_indents_iff.mp member
  exact ⟨front, old, rest, same, indents⟩

namespace Engine

variable (engine : Engine) (workingDirectory : Path) (filename : String)

/-- The correcting linters that look at a file. -/
def fixers : Fixers :=
  Fixers.ofLinters (engine.applicable workingDirectory filename)

/-- Some linter that looks at a file has tabs to expand that are too wide. -/
def Overflows (content : Text) : Prop :=
  ∃ linter ∈ engine.applicable workingDirectory filename,
    linter.2.own.Overflows content

variable {engine workingDirectory filename} {content : Text}

theorem areBuiltin_applicable (builtin : AreBuiltin engine.linters) :
    AreBuiltin (engine.applicable workingDirectory filename) := by
  have fewer : (engine.applicable workingDirectory filename).Sublist
      engine.linters := List.filter_sublist
  exact ⟨fun linter member => builtin.known linter (fewer.subset member),
    builtin.distinct.sublist (fewer.map _),
    fun linter member => builtin.fits linter (fewer.subset member)⟩

/-! ## One run -/

/-- Unless tabs are too wide, a run has the reports of all linters. -/
theorem runOn_of_narrow (builtin : AreBuiltin engine.linters)
    (narrow : ¬engine.Overflows workingDirectory filename content) :
    engine.runOn workingDirectory filename content =
      ⟨(engine.applicable workingDirectory filename).map fun linter =>
        ((Linter.fresh linter.1 linter.2 engine.basePath).run
          ⟨filename, content⟩).1, none⟩ := by
  have quiet : ∀ linter ∈ (engine.applicable workingDirectory filename).map
      fun linter => Linter.fresh linter.1 linter.2 engine.basePath,
      (linter.run ⟨filename, content⟩).2 = none := by
    intro finished member
    obtain ⟨linter, applies, rfl⟩ := List.mem_map.mp member
    obtain ⟨_, _, -, run, -⟩ := (areBuiltin_applicable builtin).exists_run
      ⟨filename, content⟩ engine.basePath applies
        fun overflows => narrow ⟨linter, applies, overflows⟩
    rw [run]
  have all := runLinters_of_quiet quiet
  rw [List.map_map] at all
  exact all

/-- Runs propose the changes that the correcting linters ask for. -/
theorem exists_candidate_iff (builtin : AreBuiltin engine.linters)
    (narrow : ¬engine.Overflows workingDirectory filename content)
    {correction : Correction} :
    (∃ candidate ∈ Selection.candidates
        (engine.runOn workingDirectory filename content).linters,
      candidate.correction = correction) ↔
    ∃ front old new rest, content = front ++ old ++ rest ∧
      Change (engine.fixers workingDirectory filename) front old new rest ∧
      correction = Change.correction front old new := by
  have applicable := @areBuiltin_applicable engine workingDirectory filename builtin
  have narrowOf : ∀ linter ∈ engine.applicable workingDirectory filename,
      ¬linter.2.own.Overflows content :=
    fun linter member overflows => narrow ⟨linter, member, overflows⟩
  rw [runOn_of_narrow builtin narrow]
  simp only [Selection.candidates, List.mem_flatMap, List.mem_map]
  constructor
  · rintro ⟨candidate, ⟨_, ⟨linter, member, rfl⟩, proposed⟩, rfl⟩
    obtain ⟨findings, offenses, finds, run, corrections, -⟩ :=
      applicable.exists_run ⟨filename, content⟩ engine.basePath member
        (narrowOf linter member)
    rw [run] at proposed
    obtain ⟨correctable, reported⟩ :=
      Linter.exists_candidate_iff.mp ⟨candidate, proposed, rfl⟩
    rw [corrections, List.mem_map] at reported
    obtain ⟨finding, found, given⟩ := reported
    obtain ⟨front, old, new, rest, same, change, own⟩ :=
      (applicable.change_of_finding member finds found).2 correctable
    rw [given, Option.some.injEq] at own
    exact ⟨front, old, new, rest, same, change, own⟩
  · rintro ⟨front, old, new, rest, rfl, change, rfl⟩
    obtain ⟨linterClass, config, findings, member, correctable, finds, finding,
      found, given⟩ := applicable.finding_of_change change
    obtain ⟨offenses, run, corrections, -⟩ := finds.run_fresh
      ⟨filename, front ++ old ++ rest⟩ engine.basePath
      (fun other inText => (applicable.change_of_finding member finds inText).1)
      (narrowOf _ member)
    have reported : some (Change.correction front old new) ∈
        offenses.map (·.correction) := by
      rw [corrections, ← given]
      exact List.mem_map.mpr ⟨finding, found, rfl⟩
    let finished : Linter := ⟨linterClass, config, engine.basePath, offenses⟩
    obtain ⟨candidate, proposed, own⟩ :=
      (@Linter.exists_candidate_iff finished _).mpr ⟨correctable, reported⟩
    refine ⟨candidate, ⟨_, ⟨(linterClass, config), member, rfl⟩, ?_⟩, own⟩
    rw [run]
    exact proposed

/-! ## Steps as passes -/

/-- The text at a correction that makes a change. -/
theorem parts_of_correction_eq {front old new rest front' old' new' rest' : Text}
    (same : front ++ old ++ rest = front' ++ old' ++ rest')
    (correction : Change.correction front old new =
      Change.correction front' old' new') :
    front = front' ∧ old = old' ∧ new = new' ∧ rest = rest' := by
  simp only [Change.correction, Correction.mk.injEq, Int.natCast_inj] at correction
  obtain ⟨begins, ends, replacement⟩ := correction
  rw [List.append_assoc, List.append_assoc] at same
  obtain ⟨frontEq, tail⟩ := List.append_inj same begins
  obtain ⟨oldEq, restEq⟩ := List.append_inj tail (by omega)
  exact ⟨frontEq, oldEq, replacement, restEq⟩

theorem mem_made_iff_correction {script : List Piece} {correction : Correction} :
    correction ∈ made 0 script ↔ ∃ earlier old new later,
      script = earlier ++ .swap old new :: later ∧
        correction = Change.correction (before earlier) old new := by
  rw [mem_made_iff]
  simp only [Nat.zero_add]
  rfl

theorem touches_of_overlaps {front old new front' old' new' : Text}
    (overlap : (Change.correction front old new).overlaps
      (Change.correction front' old' new') = true) :
    Touches front old front' old' := by
  simp only [Correction.overlaps, Bool.or_eq_true, Bool.and_eq_true,
    decide_eq_true_eq] at overlap
  simp only [Change.correction] at overlap
  rw [Touches]
  omega

/-- Unless tabs are too wide, a step is a pass. -/
theorem passes_step (builtin : AreBuiltin engine.linters)
    (narrow : ¬engine.Overflows workingDirectory filename content) :
    PassesTo (engine.fixers workingDirectory filename) content
      (engine.step workingDirectory filename content) := by
  have proposed := fun correction =>
    @exists_candidate_iff engine workingDirectory filename content builtin narrow
      correction
  have within : ∀ candidate ∈ Selection.candidates
      (engine.runOn workingDirectory filename content).linters,
      candidate.correction.Within content.length := by
    intro candidate member
    obtain ⟨front, old, new, rest, rfl, -, same⟩ :=
      (proposed candidate.correction).mp ⟨candidate, member, rfl⟩
    rw [same]
    simp only [Correction.Within, Change.correction, List.length_append]
    omega
  obtain ⟨script, goesThrough, leaves, makes, apart⟩ :=
    Selection.exists_script_corrected within
  have made_iff : ∀ correction, correction ∈ made 0 script ↔
      ∃ kept ∈ (engine.selectionOn workingDirectory filename content).accepted,
        kept.correction = correction := by
    intro correction
    rw [makes.mem_iff]
    exact List.mem_map
  refine ⟨script, ⟨?_, ?_, ?_⟩, goesThrough, leaves⟩
  · intro earlier old new later split
    have inMade := mem_made_iff_correction.mpr ⟨earlier, old, new, later, split, rfl⟩
    obtain ⟨kept, accepted, own⟩ := (made_iff _).mp inMade
    obtain ⟨front, old', new', rest, whole, change, same⟩ := (proposed _).mp
      ⟨kept, Selection.ofLinters_accepted_subset accepted, own⟩
    have parts : before earlier ++ old ++ before later = front ++ old' ++ rest := by
      rw [← whole, ← goesThrough, split]
      simp
    obtain ⟨rfl, rfl, rfl, rfl⟩ := parts_of_correction_eq parts same
    exact change
  · intro earlier new old' new' later split
    rw [split, made_append, List.pairwise_append] at apart
    have separate := (List.pairwise_cons.mp apart.2.1).1 _ (.head _)
    simp [Correction.overlaps] at separate
  · intro front old new rest whole change
    obtain ⟨candidate, member, own⟩ := (proposed _).mpr
      ⟨front, old, new, rest, goesThrough.symm.trans whole, change, rfl⟩
    obtain ⟨kept, accepted, overlap⟩ := Selection.exists_ofLinters_accepted member
    obtain ⟨earlier, old', new', later, split, same⟩ :=
      mem_made_iff_correction.mp ((made_iff _).mpr ⟨kept, accepted, rfl⟩)
    refine ⟨earlier, old', new', later, split, ?_⟩
    rw [own, same] at overlap
    exact touches_of_overlaps overlap

/-- Tabs that are too wide stand in an indent. -/
theorem Overflows.indented (builtin : AreBuiltin engine.linters)
    (overflows : engine.Overflows workingDirectory filename content) :
    (engine.fixers workingDirectory filename).spaceIndentation ≠ none ∧
      Indented content := by
  obtain ⟨⟨linterClass, config⟩, member, width, given, wide, indented⟩ := overflows
  have applicable := @areBuiltin_applicable engine workingDirectory filename builtin
  obtain rfl := applicable.eq_spaceIndentation_of_tabWidth member given
  have active := applicable.spaceIndentation_eq_some_iff.mpr
    ⟨config, member, given, by omega⟩
  exact ⟨by rw [fixers, active]; simp, .of_indents indented⟩

/-- Texts after a step have no tabs to expand. -/
theorem narrow_step (builtin : AreBuiltin engine.linters)
    (narrow : ¬engine.Overflows workingDirectory filename content) :
    ¬engine.Overflows workingDirectory filename
      (engine.step workingDirectory filename content) := by
  intro overflows
  obtain ⟨active, indented⟩ := overflows.indented builtin
  exact (passes_step builtin narrow).not_indented active indented

theorem narrow_iterate (builtin : AreBuiltin engine.linters)
    (narrow : ¬engine.Overflows workingDirectory filename content) (count : Nat) :
    ¬engine.Overflows workingDirectory filename
      ((engine.step workingDirectory filename)^[count] content) := by
  induction count with
  | zero => exact narrow
  | succ count induction =>
      rw [Function.iterate_succ_apply']
      exact narrow_step builtin induction

theorem passes_iterate (builtin : AreBuiltin engine.linters)
    (narrow : ¬engine.Overflows workingDirectory filename content) (count : Nat) :
    PassesTo (engine.fixers workingDirectory filename)
      ((engine.step workingDirectory filename)^[count] content)
      ((engine.step workingDirectory filename)^[count + 1] content) := by
  rw [Function.iterate_succ_apply']
  exact passes_step builtin (narrow_iterate builtin narrow count)

/-- Five steps leave nothing to change. -/
theorem settled_iterate (builtin : AreBuiltin engine.linters)
    (narrow : ¬engine.Overflows workingDirectory filename content) :
    Settled (engine.fixers workingDirectory filename)
      ((engine.step workingDirectory filename)^[5] content) :=
  settled_of_passes (passes_iterate builtin narrow 0)
    (passes_iterate builtin narrow 1) (passes_iterate builtin narrow 2)
    (passes_iterate builtin narrow 3) (passes_iterate builtin narrow 4)

theorem candidates_eq_nil_iff (builtin : AreBuiltin engine.linters)
    (narrow : ¬engine.Overflows workingDirectory filename content) :
    Selection.candidates (engine.runOn workingDirectory filename content).linters
        = [] ↔
      Settled (engine.fixers workingDirectory filename) content := by
  constructor
  · intro nothing front old new rest whole change
    obtain ⟨candidate, member, -⟩ := (exists_candidate_iff builtin narrow).mpr
      ⟨front, old, new, rest, whole, change, rfl⟩
    rw [nothing] at member
    contradiction
  · intro settled
    apply List.eq_nil_iff_forall_not_mem.mpr
    intro candidate member
    obtain ⟨front, old, new, rest, whole, change, -⟩ :=
      (exists_candidate_iff builtin narrow).mp ⟨candidate, member, rfl⟩
    exact settled front old new rest whole change

/-- A text rests exactly if nothing is left to change. -/
theorem rests_iff_settled (builtin : AreBuiltin engine.linters)
    (narrow : ¬engine.Overflows workingDirectory filename content) :
    engine.Rests workingDirectory filename content ↔
      Settled (engine.fixers workingDirectory filename) content := by
  constructor
  · rintro (unreported | unaccepted | still)
    · rw [← candidates_eq_nil_iff builtin narrow]
      apply List.eq_nil_iff_forall_not_mem.mpr
      intro candidate member
      obtain ⟨linter, inRun, proposed⟩ := List.mem_flatMap.mp member
      obtain ⟨offense, reported, -⟩ := List.mem_filterMap.mp proposed
      have inOffenses : offense ∈
          (engine.runOn workingDirectory filename content).offenses :=
        List.mem_flatMap.mpr ⟨linter, inRun, reported⟩
      rw [unreported] at inOffenses
      contradiction
    · rw [← candidates_eq_nil_iff builtin narrow]
      exact Selection.ofLinters_accepted_eq_nil_iff.mp unaccepted
    · -- a text that a step leaves alone is its own fifth successor
      have settled := settled_iterate builtin narrow
      rwa [Function.iterate_fixed still] at settled
  · intro settled
    right
    left
    exact Selection.ofLinters_accepted_eq_nil_iff.mpr
      ((candidates_eq_nil_iff builtin narrow).mpr settled)

/-! ## Runs that break off -/

/-- Tabs that are too wide break off a run. -/
theorem failure_of_overflows (builtin : AreBuiltin engine.linters)
    (overflows : engine.Overflows workingDirectory filename content) :
    (engine.runOn workingDirectory filename content).failure =
      some ⟨"SpaceIndentation", filename, .tabWidthTooLarge⟩ := by
  have applicable := @areBuiltin_applicable engine workingDirectory filename builtin
  obtain ⟨⟨linterClass, config⟩, member, wide⟩ := overflows
  obtain ⟨width, given, -⟩ := id wide
  obtain rfl := applicable.eq_spaceIndentation_of_tabWidth member given
  obtain ⟨earlier, later, split⟩ := List.append_of_mem member
  have broken : ((Linter.fresh .spaceIndentation config engine.basePath).run
      ⟨filename, content⟩).2 = some .tabWidthTooLarge := by
    rw [@Linter.run_of_overflows config ⟨filename, content⟩ engine.basePath wide]
  have quiet : ∀ linter ∈ earlier.map fun linter =>
      Linter.fresh linter.1 linter.2 engine.basePath,
      (linter.run ⟨filename, content⟩).2 = none := by
    intro fresh inEarlier
    obtain ⟨linter, before, rfl⟩ := List.mem_map.mp inEarlier
    have inAll : linter ∈ engine.applicable workingDirectory filename := by
      rw [split]
      exact List.mem_append_left _ before
    obtain ⟨_, _, -, run, -⟩ := applicable.exists_run ⟨filename, content⟩
      engine.basePath inAll (by
        -- the class whose tabs are too wide comes only once
        rintro ⟨otherWidth, otherGiven, -⟩
        have same :=
          applicable.eq_spaceIndentation_of_tabWidth inAll otherGiven
        have distinct := applicable.distinct
        rw [split, List.map_append, List.nodup_append] at distinct
        exact distinct.2.2 _ (List.mem_map.mpr ⟨linter, before, rfl⟩) _
          (.head _) (congrArg LinterClass.name same))
    rw [run]
  show (runLinters ⟨filename, content⟩ (List.map _ (engine.applicable
    workingDirectory filename))).failure = _
  rw [split, List.map_append, List.map_cons]
  exact failure_of_broken quiet broken

/-- A run that breaks off at once is all that becomes of a file. -/
theorem outcome_of_failure {error : ExecutionError} (autocorrect : Bool)
    (broken : (engine.runOn workingDirectory filename content).failure =
      some error) :
    (engine.runFile workingDirectory filename content autocorrect).outcome =
      .error error := by
  have last : (engine.passes workingDirectory filename content autocorrect).last =
      engine.runOn workingDirectory filename content := by
    cases autocorrect with
    | false => rfl
    | true =>
        rw [passes, if_pos rfl, passLimit, correctingPasses]
        refine congrArg Passes.last (if_pos (.inl ?_))
        exact Option.isSome_iff_exists.mpr ⟨error, broken⟩
  rw [runFile]
  simp only [last, broken]

/-! ## Runs that come to rest -/

/-- Five corrections at most bring a text to rest, and no run breaks off. -/
theorem exists_isCount_of_narrow (builtin : AreBuiltin engine.linters)
    (narrow : ¬engine.Overflows workingDirectory filename content) :
    ∃ count ≤ 5,
      engine.IsCount workingDirectory filename passLimit content count ∧
      engine.RunsThrough workingDirectory filename content count := by
  obtain ⟨count, least⟩ :=
    exists_isCount engine workingDirectory filename passLimit content
  refine ⟨count, least.2 (.inl ?_), least, ?_⟩
  · exact (rests_iff_settled builtin (narrow_iterate builtin narrow 5)).mpr
      (settled_iterate builtin narrow)
  · intro index _
    rw [runOn_of_narrow builtin (narrow_iterate builtin narrow index)]

/-- What is reported of a settled text comes from linters that cannot
correct. -/
theorem not_correctable_of_settled (builtin : AreBuiltin engine.linters)
    (narrow : ¬engine.Overflows workingDirectory filename content)
    (settled : Settled (engine.fixers workingDirectory filename) content)
    {offense : Offense} (reported : offense ∈
      (engine.runOn workingDirectory filename content).offenses) :
    ∃ linter ∈ engine.linters, offense.linterName = linter.1.name ∧
      linter.1.correctable = false := by
  have applicable := @areBuiltin_applicable engine workingDirectory filename builtin
  rw [runOn_of_narrow builtin narrow] at reported
  obtain ⟨finished, inRun, recorded⟩ := List.mem_flatMap.mp reported
  obtain ⟨linter, member, rfl⟩ := List.mem_map.mp inRun
  obtain ⟨findings, offenses, finds, run, corrections, named⟩ :=
    applicable.exists_run ⟨filename, content⟩ engine.basePath member
      fun overflows => narrow ⟨linter, member, overflows⟩
  rw [run] at recorded
  refine ⟨linter, List.mem_of_mem_filter member, named offense recorded, ?_⟩
  by_contra correctable
  have found : offense.correction ∈ (findings content).map (·.correction) := by
    rw [← corrections]
    exact List.mem_map.mpr ⟨offense, recorded, rfl⟩
  obtain ⟨finding, inText, -⟩ := List.mem_map.mp found
  obtain ⟨front, old, new, rest, whole, change, -⟩ :=
    (applicable.change_of_finding member finds inText).2
      (Bool.eq_true_of_not_eq_false correctable)
  exact settled front old new rest whole change

/-- Correction by built-in linters comes to rest before the passes are used
up, whatever the linters, their order and their options.  Nothing is left that
a correctable linter reports, and correcting the text again changes nothing.
The one exception are tabs to be expanded to more than the widest tab: with
them no run over the file ends. -/
theorem runFile_converges (engine : Engine) (workingDirectory : Path)
    (filename : String) (content : Text) (builtin : AreBuiltin engine.linters) :
    (¬engine.Overflows workingDirectory filename content →
      ∃ count final result again,
        engine.IsCount workingDirectory filename passLimit content count ∧
        count < passLimit ∧
        final = (engine.step workingDirectory filename)^[count] content ∧
        engine.Rests workingDirectory filename final ∧
        (engine.runFile workingDirectory filename content true).outcome =
          .ok result ∧
        result.correctedContent = changedFrom content final ∧
        (∀ offense ∈ result.offenses, ∀ linter ∈ engine.linters,
          linter.1.correctable = true → offense.linterName ≠ linter.1.name) ∧
        (engine.runFile workingDirectory filename final true).outcome =
          .ok again ∧
        again.modified = false ∧
        again.corrected = 0 ∧
        again.offenses = result.offenses) ∧
    (engine.Overflows workingDirectory filename content →
      ∀ autocorrect,
        (engine.runFile workingDirectory filename content autocorrect).outcome =
          .error ⟨"SpaceIndentation", filename, .tabWidthTooLarge⟩) := by
  constructor
  · intro narrow
    obtain ⟨count, early, least, quiet⟩ := exists_isCount_of_narrow builtin narrow
    have limit : count < passLimit := Nat.lt_of_le_of_lt early (by decide)
    have narrowFinal := narrow_iterate builtin narrow count
    have rests := least.rests limit
    have settled := (rests_iff_settled builtin narrowFinal).mp rests
    obtain ⟨dropped, outcome⟩ := runFile_of_isCount least quiet
    obtain ⟨droppedAgain, outcomeAgain⟩ :=
      runFile_of_rests rests (quiet count le_rfl)
    refine ⟨count, _, _, _, least, limit, rfl, rests, outcome, rfl, ?_,
      outcomeAgain, rfl, rfl, rfl⟩
    intro offense reported linter member correctable named
    obtain ⟨source, inLinters, sourceNamed, uncorrectable⟩ :=
      not_correctable_of_settled builtin narrowFinal settled reported
    have same : linter.1 = source.1 := LinterClass.eq_of_name_eq
      (builtin.known _ member) (builtin.known _ inLinters)
      (named.symm.trans sourceNamed)
    rw [same, uncorrectable] at correctable
    contradiction
  · intro overflows autocorrect
    exact outcome_of_failure autocorrect (failure_of_overflows builtin overflows)

/-- An engine whose tabs are wider than the widest tab. -/
def wideTabs : Engine :=
  ⟨[(.trailingWhitespace, ⟨false, [], .none⟩),
    (.spaceIndentation, ⟨false, [], .tabWidth 2147483648⟩),
    (.extraNewline, ⟨false, [], .none⟩)], "/work"⟩

/-- The options of this engine pass all checks. -/
theorem build_wideTabs :
    build (.ofEntries [(.text "linters", .table [(.text "SpaceIndentation",
        .table [(.text "tab_width", .int 2147483648)])])] .builtin)
      [.trailingWhitespace, .spaceIndentation, .extraNewline] "/work" =
        .ok wideTabs :=
  rfl

/-- It corrects spaces and newlines, and stops at tabs. -/
theorem runFile_converges_beside_wide_tabs :
    (∃ count final again,
      wideTabs.IsCount (.ofString "/work") "/a.html.erb" passLimit
        "a \n\n\n \nb".toList count ∧ count < passLimit ∧
      (wideTabs.runFile (.ofString "/work") "/a.html.erb" final true).outcome =
        .ok again ∧ again.modified = false) ∧
    (wideTabs.runFile (.ofString "/work") "/a.html.erb" "a\n\t\n\nb".toList
      true).outcome =
      .error ⟨"SpaceIndentation", "/a.html.erb", .tabWidthTooLarge⟩ := by
  have builtin : AreBuiltin wideTabs.linters :=
    areBuiltin_of_build build_wideTabs Registry.filled_builtin
      (by simp [RunnerConfig.ofEntries, Registry.builtin, LinterClass.builtin])
      (by simp [LinterClass.builtin])
      (List.Nodup.of_map (·.name) (by decide))
  constructor
  · have narrow : ¬wideTabs.Overflows (.ofString "/work") "/a.html.erb"
        "a \n\n\n \nb".toList := by
      rintro ⟨_, -, _, -, -, indented⟩
      exact indented (by decide)
    obtain ⟨count, final, _, again, least, limit, -, -, -, -, -, outcome, still, -⟩ :=
      (runFile_converges wideTabs (.ofString "/work") "/a.html.erb" _ builtin).1
        narrow
    exact ⟨count, final, again, least, limit, outcome, still⟩
  · apply (runFile_converges wideTabs _ _ _ builtin).2
    exact ⟨(.spaceIndentation, ⟨false, [], .tabWidth 2147483648⟩),
      List.mem_filter.mpr ⟨by simp [wideTabs], rfl⟩, 2147483648, rfl, by decide,
      by decide⟩

/-- Options that pass their checks can break off the run over a file. -/
theorem runFile_fails_on_wide_tabs :
    build (.ofEntries [(.text "linters", .table [(.text "SpaceIndentation",
        .table [(.text "tab_width", .int 2147483648)])])] .builtin)
      [.trailingWhitespace, .spaceIndentation, .extraNewline] "/work" =
        .ok wideTabs ∧
    (wideTabs.runFile (.ofString "/work") "/a.html.erb" "a\n\t\n\nb".toList
      true).outcome =
      .error ⟨"SpaceIndentation", "/a.html.erb", .tabWidthTooLarge⟩ :=
  ⟨build_wideTabs, rfl⟩

end Engine

end TemplateLint
