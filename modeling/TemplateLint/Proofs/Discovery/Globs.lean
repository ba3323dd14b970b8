import TemplateLint.Discovery

/-!
# Globs that cannot be read

A glob is read when a directory is searched, and not before.  So a search
breaks off on a bad glob exactly if it gets to a directory, which it does
unless it finds only files or comes to a missing path first.
-/

namespace TemplateLint

/-! ## The first item that stops -/

section Failures

variable {Item Result Error : Type} {kinds : Error → Prop}

/-- A computation breaks off with an error of certain kinds. -/
def FailsWith (kinds : Error → Prop) (result : Except Error Result) : Prop :=
  ∃ error, result = .error error ∧ kinds error

@[simp] theorem not_failsWith_ok (value : Result) :
    ¬FailsWith kinds (.ok value) := by
  rintro ⟨error, same, -⟩
  contradiction

@[simp] theorem failsWith_error_iff {error : Error} :
    FailsWith kinds (.error error : Except Error Result) ↔ kinds error := by
  simp [FailsWith]

theorem failsWith_bind_iff {Later : Type} {result : Except Error Result}
    {next : Result → Except Error Later} :
    FailsWith kinds (result >>= next) ↔
      FailsWith kinds result ∨
        ∃ value, result = .ok value ∧ FailsWith kinds (next value) := by
  cases result <;> simp [bind, Except.bind]

theorem failsWith_map_iff {Later : Type} {result : Except Error Result}
    {next : Result → Later} :
    FailsWith kinds (result.map next) ↔ FailsWith kinds result := by
  cases result <;> simp [Except.map]

/-- A step passes an item if it has a result. -/
def Passes (step : Item → Except Error Result) (item : Item) : Prop :=
  ∃ result, step item = .ok result

/-- Some item of a list stops, and all items before it pass. -/
inductive Reaches (passes stops : Item → Prop) : List Item → Prop where
  | here {item : Item} {later : List Item} (stop : stops item) :
      Reaches passes stops (item :: later)
  | later {item : Item} {items : List Item} (pass : passes item)
      (reaches : Reaches passes stops items) :
      Reaches passes stops (item :: items)

variable {passes stops : Item → Prop} {items : List Item}

@[simp] theorem not_reaches_nil : ¬Reaches passes stops [] := by
  intro reaches
  cases reaches

theorem reaches_cons_iff {item : Item} :
    Reaches passes stops (item :: items) ↔
      stops item ∨ passes item ∧ Reaches passes stops items := by
  constructor
  · intro reaches
    cases reaches with
    | here stop => exact .inl stop
    | later pass reaches => exact .inr ⟨pass, reaches⟩
  · rintro (stop | ⟨pass, reaches⟩)
    · exact .here stop
    · exact .later pass reaches

theorem Reaches.exists_mem (reaches : Reaches passes stops items) :
    ∃ item ∈ items, stops item := by
  induction reaches with
  | here stop => exact ⟨_, .head _, stop⟩
  | later _ _ induction =>
      obtain ⟨item, member, stop⟩ := induction
      exact ⟨item, .tail _ member, stop⟩

/-- The first item that does not pass is reached. -/
theorem reaches_of_exists (decided : ∀ item ∈ items, passes item ∨ stops item)
    (fails : ∃ item ∈ items, ¬passes item) : Reaches passes stops items := by
  induction items with
  | nil => simp at fails
  | cons item items induction =>
      rw [List.forall_mem_cons] at decided
      rcases decided.1 with pass | stop
      · refine .later pass (induction decided.2 ?_)
        simpa [pass] using fails
      · exact .here stop

theorem reaches_congr {passesToo stopsToo : Item → Prop}
    (pass : ∀ item ∈ items, (passes item ↔ passesToo item))
    (stop : ∀ item ∈ items, (stops item ↔ stopsToo item)) :
    Reaches passes stops items ↔ Reaches passesToo stopsToo items := by
  induction items with
  | nil => simp
  | cons item items induction =>
      rw [List.forall_mem_cons] at pass stop
      rw [reaches_cons_iff, reaches_cons_iff, pass.1, stop.1,
        induction pass.2 stop.2]

/-- A traversal breaks off with the first step that does. -/
theorem failsWith_mapM_iff {step : Item → Except Error Result} :
    FailsWith kinds (items.mapM step) ↔
      Reaches (Passes step) (fun item => FailsWith kinds (step item)) items := by
  induction items with
  | nil => simp [pure, Except.pure]
  | cons item items induction =>
      rw [List.mapM_cons, failsWith_bind_iff, reaches_cons_iff, ← induction]
      simp [failsWith_bind_iff, Passes, pure, Except.pure]

end Failures

/-! ## Searches -/

/-- A glob is no text, or one of the patterns it stands for cannot be read. -/
def BadGlob (glob : Option Text) : Prop :=
  ∀ pattern, glob = some pattern →
    ∃ expanded ∈ Braces.expand pattern, ¬Passes Glob.ofText expanded

theorem not_badGlob_of_all {pattern : Text}
    (reads : (Braces.expand pattern).all
      (fun expanded => (Glob.ofText expanded).toBool) = true) :
    ¬BadGlob (some pattern) := by
  intro bad
  obtain ⟨expanded, member, unread⟩ := bad _ rfl
  have read := List.all_eq_true.mp reads expanded member
  cases result : Glob.ofText expanded with
  | ok glob => exact unread ⟨glob, result⟩
  | error error => simp [result, Except.toBool] at read

theorem not_badGlob_default : ¬BadGlob (some defaultGlob) :=
  not_badGlob_of_all (by decide +kernel)

/-- The error is about the glob and not about a missing path. -/
def DiscoveryError.AboutGlob : DiscoveryError → Prop
  | .pathNotFound _ => False
  | _ => True

theorem not_failsWith_part {component : String} :
    ¬FailsWith (¬·.AboutGlob) (Glob.part component) := by
  simp only [Glob.part]
  repeat' split
  all_goals simp [DiscoveryError.AboutGlob]

theorem not_failsWith_ofText {pattern : Text} :
    ¬FailsWith (¬·.AboutGlob) (Glob.ofText pattern) := by
  simp only [Glob.ofText]
  split
  · simp [DiscoveryError.AboutGlob]
  · split
    · simp [DiscoveryError.AboutGlob]
    · split
      · split <;> simp [DiscoveryError.AboutGlob]
      · rw [failsWith_bind_iff, failsWith_mapM_iff]
        rintro (reaches | ⟨parts, -, fails⟩)
        · obtain ⟨component, -, fails⟩ := reaches.exists_mem
          exact not_failsWith_part fails
        · exact not_failsWith_ok _ fails

theorem passes_or_failsWith_of_not {Item Result Error : Type}
    {kinds : Error → Prop} {step : Item → Except Error Result} {item : Item}
    (only : ¬FailsWith (¬kinds ·) (step item)) :
    Passes step item ∨ FailsWith kinds (step item) := by
  rw [Passes]
  cases result : step item with
  | ok value => exact .inl ⟨value, rfl⟩
  | error error =>
      rw [result, failsWith_error_iff, Classical.not_not] at only
      exact .inr ⟨error, rfl, only⟩

theorem not_passes_of_failsWith {Item Result Error : Type}
    {kinds : Error → Prop} {step : Item → Except Error Result} {item : Item}
    (fails : FailsWith kinds (step item)) : ¬Passes step item := by
  rintro ⟨result, passed⟩
  rw [passed] at fails
  exact not_failsWith_ok _ fails

section Searches

variable {tree : FileTree} {search : Search} {glob : Option Text}

/-- Searching a directory breaks off exactly on a bad glob. -/
theorem failsWith_searchDirectory_iff {directory : List String} :
    FailsWith (·.AboutGlob) (searchDirectory tree glob directory) ↔
      BadGlob glob := by
  cases glob with
  | none => simp [searchDirectory, BadGlob, DiscoveryError.AboutGlob]
  | some pattern =>
      have bad : BadGlob (some pattern) ↔
          ∃ expanded ∈ Braces.expand pattern, ¬Passes Glob.ofText expanded := by
        simp [BadGlob]
      have decided := fun expanded (_ : expanded ∈ Braces.expand pattern) =>
        passes_or_failsWith_of_not (@not_failsWith_ofText expanded)
      have reads : FailsWith (·.AboutGlob)
          (searchDirectory tree (some pattern) directory) ↔
          Reaches (Passes Glob.ofText)
            (fun expanded => FailsWith (·.AboutGlob) (Glob.ofText expanded))
            (Braces.expand pattern) := by
        simp only [searchDirectory, failsWith_bind_iff, failsWith_mapM_iff,
          pure, Except.pure, not_failsWith_ok, and_false, exists_false, or_false]
        apply reaches_congr
        · intro expanded _
          simp only [Passes]
          cases Glob.ofText expanded <;> simp [bind, Except.bind]
        · intro expanded _
          rfl
      rw [bad, reads]
      constructor
      · intro reaches
        obtain ⟨expanded, member, fails⟩ := reaches.exists_mem
        exact ⟨expanded, member, not_passes_of_failsWith fails⟩
      · exact reaches_of_exists decided

/-- A named path breaks a search off exactly if it leads to a directory and
the glob is bad. -/
theorem Search.failsWith_filesOf_iff {name : String} :
    FailsWith (·.AboutGlob) (search.filesOf tree name) ↔
      tree.isDirectory (search.components (.ofString name)) = true ∧
        BadGlob search.glob := by
  simp only [filesOf]
  split
  · rename_i isDirectory
    rw [failsWith_map_iff, failsWith_searchDirectory_iff, isDirectory]
    simp
  · rename_i noDirectory
    split <;> simp [noDirectory, DiscoveryError.AboutGlob]

/-- Whether a named path leads to a file that is taken as such. -/
def Search.TakesFile (search : Search) (tree : FileTree) (name : String) : Prop :=
  let components := search.components (.ofString name)
  tree.isDirectory components = false ∧ tree.isFile components = true

theorem Search.passes_filesOf_iff {name : String} (bad : BadGlob search.glob) :
    Passes (search.filesOf tree) name ↔ search.TakesFile tree name := by
  simp only [TakesFile]
  cases isDirectory :
      tree.isDirectory (search.components (.ofString name)) with
  | true =>
      have fails := failsWith_filesOf_iff.mpr ⟨isDirectory, bad⟩
      simp [not_passes_of_failsWith fails]
  | false =>
      cases isFile : tree.isFile (search.components (.ofString name)) <;>
        simp [Passes, filesOf, isDirectory, isFile]

/-- A search gets to a directory: it is asked for everything, or all paths
before one that leads to a directory lead to files. -/
def Search.Descends (search : Search) (tree : FileTree) (names : List String) :
    Prop :=
  search.everything = true ∨
    Reaches (search.TakesFile tree)
      (fun name =>
        tree.isDirectory (search.components (.ofString name)) = true) names

/-- A search breaks off exactly if it gets to a directory with a bad glob. -/
theorem Search.failsWith_discover_iff {names : List String} :
    FailsWith (·.AboutGlob) (search.discover tree names) ↔
      BadGlob search.glob ∧ search.Descends tree names := by
  have base : FailsWith (·.AboutGlob) (search.filesOfBase tree) ↔
      search.everything = true ∧ BadGlob search.glob := by
    simp only [filesOfBase]
    split
    · rename_i everything
      rw [failsWith_map_iff, failsWith_searchDirectory_iff, everything]
      simp
    · rename_i named
      simp [named]
  simp only [discover, failsWith_bind_iff, failsWith_mapM_iff, base,
    failsWith_filesOf_iff, pure, Except.pure, not_failsWith_ok, and_false,
    exists_false, or_false, Descends]
  by_cases bad : BadGlob search.glob
  · have named : Reaches (Passes (search.filesOf tree))
        (fun name => tree.isDirectory (search.components (.ofString name)) = true
          ∧ BadGlob search.glob) names ↔
        Reaches (search.TakesFile tree)
          (fun name =>
            tree.isDirectory (search.components (.ofString name)) = true)
          names :=
      reaches_congr (fun _ _ => passes_filesOf_iff bad)
        fun _ _ => and_iff_left bad
    rw [named]
    cases everything : search.everything with
    | true => simp [bad]
    | false => simp [filesOfBase, everything, bad]
  · simp only [bad, and_false, false_and, false_or, iff_false]
    rintro ⟨_, -, reaches⟩
    obtain ⟨_, -, nothing⟩ := reaches.exists_mem
    exact nothing

end Searches

end TemplateLint
