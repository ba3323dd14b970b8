import TemplateLint.Linter.Described
import TemplateLint.Proofs.Session.Guarded
import TemplateLint.Proofs.Session.Linting

/-!
# Files are written all together or not at all

A session that halts leaves the file tree as it was.  One that comes to its
end has written exactly the linted files whose final text differs from the
text that was read, provided that no two of the names it lints lead to one
file.
-/

namespace TemplateLint.Session

open FileTree

/-! ## Writing several files -/

section WriteAll

theorem writeAll_cons_of_corrected {tree : FileTree} {result : FileResult}
    {later : List FileResult} {content : Text} {place : Location}
    (corrected : result.correctedContent = some content)
    (leads : tree.placeOf? result.filename = some place) :
    writeAll tree (result :: later) =
      writeAll (tree.write place (Utf8.encode content)) later := by
  simp only [placeOf?] at leads
  simp [writeAll, corrected, writeTo, leads]

theorem writeAll_cons_of_lost {tree : FileTree} {result : FileResult}
    {later : List FileResult}
    (lost : result.correctedContent = none ∨
      tree.placeOf? result.filename = none) :
    writeAll tree (result :: later) = writeAll tree later := by
  rcases lost with unmodified | nowhere
  · simp [writeAll, unmodified]
  · simp only [placeOf?] at nowhere
    cases corrected : result.correctedContent with
    | none => simp [writeAll, corrected]
    | some content => simp [writeAll, corrected, writeTo, nowhere]

/-- Induction over the files to be written: each is either lost or written to
the place where its name leads. -/
theorem writeAll_induction {motive : FileTree → List FileResult → Prop}
    (nil : ∀ tree, motive tree [])
    (lost : ∀ tree result later,
      (result.correctedContent = none ∨
        tree.placeOf? result.filename = none) →
      motive tree later → motive tree (result :: later))
    (written : ∀ tree result later content place,
      result.correctedContent = some content →
      tree.placeOf? result.filename = some place →
      motive (tree.write place (Utf8.encode content)) later →
      motive tree (result :: later))
    (tree : FileTree) (results : List FileResult) : motive tree results := by
  induction results generalizing tree with
  | nil => exact nil tree
  | cons result later induction =>
      cases corrected : result.correctedContent with
      | none => exact lost tree result later (.inl corrected) (induction tree)
      | some content =>
          cases leads : tree.placeOf? result.filename with
          | none => exact lost tree result later (.inr leads) (induction tree)
          | some place =>
              exact written tree result later content place corrected leads
                (induction _)

/-- What is read at a place to which nothing is written. -/
theorem bytesAt?_writeAll_of_unwritten {tree : FileTree}
    {results : List FileResult} {place : Location}
    (unwritten : ∀ result ∈ results, result.modified →
      tree.placeOf? result.filename ≠ some place) :
    (writeAll tree results).bytesAt? place = tree.bytesAt? place := by
  induction tree, results using writeAll_induction with
  | nil tree => rfl
  | lost tree result later gone induction =>
      rw [writeAll_cons_of_lost gone]
      exact induction fun other member => unwritten other (.tail _ member)
  | written tree result later content target corrected leads induction =>
      rw [writeAll_cons_of_corrected corrected leads, induction,
        bytesAt?_write, if_neg]
      · rintro rfl
        exact unwritten result (.head _) (by simp [FileResult.modified, corrected])
          leads
      · intro other member modified
        rw [placeOf?_write]
        exact unwritten other (.tail _ member) modified

/-- What is read at a place to which one content is written. -/
theorem bytesAt?_writeAll_of_written {tree : FileTree}
    {results : List FileResult} {place : Location} {content : Text}
    (written : ∃ result ∈ results, result.modified ∧
      tree.placeOf? result.filename = some place)
    (agree : ∀ result ∈ results, result.modified →
      tree.placeOf? result.filename = some place →
      result.correctedContent = some content) :
    (writeAll tree results).bytesAt? place = some (Utf8.encode content) := by
  induction tree, results using writeAll_induction with
  | nil tree =>
      obtain ⟨result, member, -⟩ := written
      contradiction
  | lost tree result later gone induction =>
      rw [writeAll_cons_of_lost gone]
      apply induction
      · obtain ⟨other, member, modified, leads⟩ := written
        rcases List.mem_cons.mp member with rfl | inLater
        · rcases gone with unmodified | nowhere
          · simp [FileResult.modified, unmodified] at modified
          · rw [nowhere] at leads
            contradiction
        · exact ⟨other, inLater, modified, leads⟩
      · exact fun other member => agree other (.tail _ member)
  | written tree result later own target corrected leads induction =>
      rw [writeAll_cons_of_corrected corrected leads]
      by_cases again : ∃ other ∈ later, other.modified ∧
          tree.placeOf? other.filename = some place
      · apply induction
        · simpa only [placeOf?_write] using again
        · intro other member modified there
          rw [placeOf?_write] at there
          exact agree other (.tail _ member) modified there
      · obtain ⟨other, member, modified, there⟩ := written
        have here : other = result := by
          rcases List.mem_cons.mp member with same | inLater
          · exact same
          · exact absurd ⟨other, inLater, modified, there⟩ again
        subst here
        have samePlace : target = place := by
          rw [leads] at there
          exact Option.some.inj there
        subst samePlace
        have sameContent := agree other (.head _) modified leads
        rw [corrected] at sameContent
        cases sameContent
        rw [bytesAt?_writeAll_of_unwritten, bytesAt?_write, if_pos rfl]
        intro further inLater modifiedFurther
        rw [placeOf?_write]
        exact fun thereToo =>
          again ⟨further, inLater, modifiedFurther, thereToo⟩

/-- Writing files that exist keeps the shape of the tree. -/
theorem sameShape_writeAll {tree : FileTree} {results : List FileResult}
    (existing : ∀ result ∈ results, result.modified →
      ∃ place, tree.placeOf? result.filename = some place ∧
        (tree.bytesAt? place).isSome) :
    SameShape (writeAll tree results) tree := by
  induction tree, results using writeAll_induction with
  | nil tree => exact .refl tree
  | lost tree result later gone induction =>
      rw [writeAll_cons_of_lost gone]
      exact induction fun other member => existing other (.tail _ member)
  | written tree result later content target corrected leads induction =>
      rw [writeAll_cons_of_corrected corrected leads]
      have present : (tree.bytesAt? target).isSome := by
        obtain ⟨place, there, present⟩ :=
          existing result (.head _) (by simp [FileResult.modified, corrected])
        rw [leads] at there
        cases there
        exact present
      have step := sameShape_write (Utf8.encode content) present
      refine (induction ?_).trans step
      intro other member modified
      obtain ⟨place, there, presentThere⟩ :=
        existing other (.tail _ member) modified
      refine ⟨place, (placeOf?_write ..).trans there, ?_⟩
      rw [step.isSome_bytesAt?]
      exact presentThere

end WriteAll

/-! ## Whole sessions -/

section Sessions

variable {workspace : Workspace} {options : Options}

/-- A session reaches its end when its plan and what follows do. -/
theorem run_of_finish {plan : Plan} {outcome : Outcome}
    {written : List FileResult}
    (planned : (Session.plan workspace options).result = .ok plan)
    (done : (finish workspace options plan).result = .ok (outcome, written)) :
    (run workspace options).ending = .ok outcome ∧
      (run workspace options).tree = writeAll workspace.tree written := by
  have staged : (stages workspace options).result = .ok (outcome, written) := by
    rw [stages_eq_plan]
    exact Stage.bind_result_eq_ok_iff.mpr ⟨plan, planned, done⟩
  simp [run, staged]

/-- A session that halts leaves everything as it was. -/
theorem run_of_halt {halt : Halt}
    (halted : (stages workspace options).result = .error halt) :
    (run workspace options).tree = workspace.tree ∧
      (∀ event ∈ (run workspace options).events, ¬event.IsOutput) ∧
      ∀ outcome, (run workspace options).ending = .ok outcome →
        outcome.failure ≠ none := by
  have guarded := guardedUnlessDone_stages workspace options halt halted
  have quiet := guarded.quiet
  cases halt with
  | crashed crash =>
      simp only [run, halted]
      exact ⟨trivial, quiet, by simp⟩
  | ended outcome =>
      simp only [run, halted]
      refine ⟨trivial, quiet, ?_⟩
      intro other same
      cases same
      exact guarded.fails outcome halted

/-- A session without a failure has reached its end. -/
theorem exists_finish_of_run {outcome : Outcome}
    (ending : (run workspace options).ending = .ok outcome)
    (noFailure : outcome.failure = none) :
    ∃ plan written, (Session.plan workspace options).result = .ok plan ∧
      (finish workspace options plan).result = .ok (outcome, written) ∧
      (run workspace options).tree = writeAll workspace.tree written := by
  cases staged : (stages workspace options).result with
  | error halt =>
      exact absurd noFailure ((run_of_halt staged).2.2 outcome ending)
  | ok value =>
      obtain ⟨last, written⟩ := value
      rw [stages_eq_plan] at staged
      obtain ⟨plan, planned, done⟩ := Stage.bind_result_eq_ok_iff.mp staged
      obtain ⟨endingToo, tree⟩ := run_of_finish planned done
      rw [ending] at endingToo
      cases endingToo
      exact ⟨plan, written, planned, done, tree⟩

/-- The text of a planned file that is read and the one with which the file
ends, if linting it has a result. -/
def Plan.ending? (plan : Plan) (workspace : Workspace) (options : Options)
    (filename : String) : Option (Text × Text) :=
  match plan.engine workspace, readText workspace options filename with
  | .ok engine, .ok content =>
      match (engine.runFile workspace.directory filename content
          options.autocorrect).outcome with
      | .ok result => some (content, result.finalText content)
      | .error _ => none
  | _, _ => none

theorem Plan.ending?_eq_some_iff {plan : Plan} {filename : String}
    {content final : Text} :
    plan.ending? workspace options filename = some (content, final) ↔
      ∃ engine result, plan.engine workspace = .ok engine ∧
        Lints workspace options engine filename content result ∧
        result.finalText content = final := by
  constructor
  · intro ends
    simp only [ending?] at ends
    split at ends
    · rename_i engine text built read
      split at ends
      · rename_i result linted
        cases ends
        exact ⟨engine, result, built, ⟨read, linted⟩, rfl⟩
      · contradiction
    · contradiction
  · rintro ⟨engine, result, built, lints, rfl⟩
    simp only [ending?, built, lints.read, lints.linted]

/-- No two of some names lead to one file. -/
def NamedOnce (tree : FileTree) (files : List String) : Prop :=
  ∀ first ∈ files, ∀ second ∈ files, ∀ place,
    tree.placeOf? first = some place → tree.placeOf? second = some place →
      first = second

/-- A session that reaches its end has linted all its files. -/
theorem exists_ends_of_finish {plan : Plan} {outcome : Outcome}
    {written : List FileResult} {filename : String}
    (done : (finish workspace options plan).result = .ok (outcome, written))
    (named : filename ∈ plan.files) :
    ∃ content final,
      plan.ending? workspace options filename = some (content, final) := by
  obtain ⟨engine, outcomes, built, all, -, -⟩ :=
    (finish_result_of_files (List.ne_nil_of_mem named)).mp done
  obtain ⟨outcome, -, lints⟩ := exists_outcome_of_mem all named
  refine ⟨outcome.1, outcome.2.finalText outcome.1, ?_⟩
  exact Plan.ending?_eq_some_iff.mpr ⟨engine, outcome.2, built, lints, rfl⟩

/-- The files that are written are those whose final text differs from the
text that was read. -/
theorem mem_written_iff {plan : Plan} {outcome : Outcome}
    {written : List FileResult} {result : FileResult}
    (fromFiles : options.standardInput = none)
    (done : (finish workspace options plan).result = .ok (outcome, written)) :
    result ∈ written ↔
      ∃ engine content, result.filename ∈ plan.files ∧
        plan.engine workspace = .ok engine ∧
        Lints workspace options engine result.filename content result ∧
        result.finalText content ≠ content := by
  by_cases noFiles : plan.files = []
  · obtain ⟨-, -, rfl⟩ := (finish_result_of_no_files noFiles).mp done
    simp [noFiles]
  · obtain ⟨engine, outcomes, built, all, -, rfl⟩ :=
      (finish_result_of_files noFiles).mp done
    simp only [fromFiles, Option.isNone_none, Bool.true_and, List.mem_filter,
      List.mem_map]
    constructor
    · rintro ⟨⟨outcome, member, rfl⟩, modified⟩
      obtain ⟨filename, named, lints⟩ := exists_lints_of_mem all member
      have same := Engine.filename_of_runFile lints.linted
      subst same
      exact ⟨engine, outcome.1, named, built, lints,
        (FileResult.modified_iff lints.linted).mp modified⟩
    · rintro ⟨otherEngine, content, named, builtToo, lints, differs⟩
      rw [built] at builtToo
      cases builtToo
      obtain ⟨outcome, member, lintsToo⟩ := exists_outcome_of_mem all named
      obtain ⟨-, same⟩ := lints.unique lintsToo
      exact ⟨⟨outcome, member, same.symm⟩,
        (FileResult.modified_iff lints.linted).mpr differs⟩

section Differing

variable {plan : Plan} {outcome : Outcome} {written : List FileResult}

/-- Where no planned file gets another text, nothing differs. -/
theorem bytesAt?_of_unchanged {place : Location}
    (fromFiles : options.standardInput = none)
    (done : (finish workspace options plan).result = .ok (outcome, written))
    (unchanged : ∀ filename ∈ plan.files, ∀ content final,
      workspace.tree.placeOf? filename = some place →
      plan.ending? workspace options filename = some (content, final) →
      final = content) :
    (writeAll workspace.tree written).bytesAt? place =
      workspace.tree.bytesAt? place := by
  apply bytesAt?_writeAll_of_unwritten
  intro result member _ leads
  obtain ⟨engine, content, named, built, lints, differs⟩ :=
    (mem_written_iff fromFiles done).mp member
  apply differs
  apply unchanged result.filename named content _ leads
  exact Plan.ending?_eq_some_iff.mpr ⟨engine, result, built, lints, rfl⟩

/-- A planned file with another text holds it, if it is named once. -/
theorem bytesAt?_of_changed {place : Location} {filename : String}
    {content final : Text}
    (fromFiles : options.standardInput = none)
    (once : NamedOnce workspace.tree plan.files)
    (done : (finish workspace options plan).result = .ok (outcome, written))
    (named : filename ∈ plan.files)
    (leads : workspace.tree.placeOf? filename = some place)
    (ends : plan.ending? workspace options filename = some (content, final))
    (differs : final ≠ content) :
    (writeAll workspace.tree written).bytesAt? place =
      some (Utf8.encode final) := by
  apply bytesAt?_writeAll_of_written
  · obtain ⟨engine, result, built, lints, rfl⟩ :=
      Plan.ending?_eq_some_iff.mp ends
    have same := Engine.filename_of_runFile lints.linted
    subst same
    refine ⟨result, ?_, (FileResult.modified_iff lints.linted).mpr differs,
      leads⟩
    exact (mem_written_iff fromFiles done).mpr
      ⟨engine, content, named, built, lints, differs⟩
  · intro result member modified leadsToo
    obtain ⟨engine, otherContent, namedToo, built, lints, -⟩ :=
      (mem_written_iff fromFiles done).mp member
    have sameName := once filename named _ namedToo place leads leadsToo
    subst sameName
    have endsToo :=
      Plan.ending?_eq_some_iff.mpr ⟨engine, result, built, lints, rfl⟩
    rw [ends] at endsToo
    cases endsToo
    exact FileResult.correctedContent_of_modified lints.linted modified

/-- A file that ends with another text did not hold that text before. -/
theorem Plan.bytesAt?_ne_of_changed (plan : Plan) {place : Location}
    {filename : String} {content final : Text}
    (fromFiles : options.standardInput = none)
    (leads : workspace.tree.placeOf? filename = some place)
    (ends : plan.ending? workspace options filename = some (content, final))
    (differs : final ≠ content) :
    workspace.tree.bytesAt? place ≠ some (Utf8.encode final) := by
  intro same
  obtain ⟨engine, result, -, lints, rfl⟩ := Plan.ending?_eq_some_iff.mp ends
  obtain ⟨other, bytes, leadsToo, held, decoded⟩ :=
    lints.exists_bytes fromFiles
  rw [leads] at leadsToo
  cases leadsToo
  rw [held] at same
  cases same
  rw [Utf8.decode_encode] at decoded
  exact differs (Except.ok.inj decoded)

end Differing

/-- Nothing is to be written without correction or for the standard input. -/
theorem written_eq_nil {plan : Plan} {outcome : Outcome}
    {written : List FileResult}
    (done : (finish workspace options plan).result = .ok (outcome, written))
    (readOnly : options.autocorrect = false ∨
      options.standardInput.isSome) :
    written = [] := by
  by_cases noFiles : plan.files = []
  · obtain ⟨-, -, rfl⟩ := (finish_result_of_no_files noFiles).mp done
    rfl
  · obtain ⟨engine, outcomes, -, all, -, rfl⟩ :=
      (finish_result_of_files noFiles).mp done
    apply List.filter_eq_nil_iff.mpr
    intro result member
    rcases readOnly with uncorrected | viaInput
    · obtain ⟨outcome, inOutcomes, rfl⟩ := List.mem_map.mp member
      obtain ⟨filename, -, lints⟩ := exists_lints_of_mem all inOutcomes
      have linted := lints.linted
      rw [uncorrected] at linted
      simp [FileResult.modified,
        Engine.correctedContent_of_uncorrected linted]
    · cases given : options.standardInput with
      | none => simp [given] at viaInput
      | some path => simp

end Sessions

/-! ## One file under two names -/

/-- A rule that replaces a text wherever it occurs. -/
def replacing (wanted replacement : String) : Rule :=
  .occurrences wanted.toList
    { message := "unwanted".toList, replacement := some replacement.toList }

/-- A workspace whose second linter looks at every file, and whose first one
leaves out those with a name that begins with two slashes. -/
def twoSlashes : Workspace where
  directory := .ofString "/work"
  tree := (FileTree.empty.addFile ["work", "a"] (Utf8.encode "x".toList)).addFile
    ["work", ".erb-lint.toml"]
    (Utf8.encode "[linters.First]\nexclude = [\"//*\"]\n".toList)
  registry := ⟨[
    .described 1 "First" true [replacing "x" "y", replacing "z" "y"],
    .described 2 "Second" true [replacing "x" "z"]]⟩
  metadata := ⟨"", "", "", ""⟩
  standardInput := .ok []

/-- Options that name one file twice. -/
def bothNames : Options where
  files := [.ofString "a", .ofString "//work/a"]
  autocorrect := true
  enableAllLinters := true

end TemplateLint.Session
