import TemplateLint.FileTree

/-!
# Reading and writing file trees

Writing a file changes what is read at its location and nowhere else.  A file
that exists already keeps its place among the entries of the tree, so the
written tree has the same shape: every path leads where it led before.
-/

namespace TemplateLint.FileTree

/-! ## Single files -/

theorem find?_replaceFile (location other : Location) (bytes : Utf8.Bytes)
    (files : List (Location × Utf8.Bytes)) :
    ((replaceFile location bytes files).find? fun file => file.1 = other) =
      if other = location then some (location, bytes)
      else files.find? fun file => file.1 = other := by
  induction files with
  | nil =>
      by_cases same : other = location
      · subst other
        simp [replaceFile]
      · have different : ¬location = other := fun equal => same equal.symm
        simp [replaceFile, same, different]
  | cons file later induction =>
      by_cases here : file.1 = location
      · by_cases same : other = location
        · subst other
          simp [replaceFile, here]
        · have different : ¬location = other := fun equal => same equal.symm
          simp [replaceFile, here, same, different]
      · by_cases found : file.1 = other
        · have different : ¬other = location := by
            intro equal
            exact here (found.trans equal)
          simp [replaceFile, found, different]
        · simp [replaceFile, here, found, induction]

/-- A written file has its new content, and all others have the one they
had. -/
theorem bytesAt?_write (tree : FileTree) (location other : Location)
    (bytes : Utf8.Bytes) :
    (tree.write location bytes).bytesAt? other =
      if other = location then some bytes else tree.bytesAt? other := by
  simp only [bytesAt?, write, find?_replaceFile]
  split <;> rfl

theorem map_fst_replaceFile {location : Location} (bytes : Utf8.Bytes)
    {files : List (Location × Utf8.Bytes)}
    (existing : location ∈ files.map (·.1)) :
    (replaceFile location bytes files).map (·.1) = files.map (·.1) := by
  induction files with
  | nil => simp at existing
  | cons file later induction =>
      by_cases here : file.1 = location
      · simp [replaceFile, here]
      · have inLater : location ∈ later.map (·.1) := by
          rw [List.map_cons, List.mem_cons] at existing
          exact existing.resolve_left fun equal => here equal.symm
        simp [replaceFile, here, induction inLater]

theorem isSome_bytesAt?_iff (tree : FileTree) (location : Location) :
    (tree.bytesAt? location).isSome ↔ location ∈ tree.files.map (·.1) := by
  simp only [bytesAt?, Option.isSome_map, List.find?_isSome, List.mem_map,
    decide_eq_true_eq]

/-! ## Where paths lead -/

section Directories

variable {first second : FileTree}

theorem isDirectoryAt_congr (same : first.directories = second.directories)
    (location : Location) :
    first.isDirectoryAt location = second.isDirectoryAt location := by
  simp [isDirectoryAt, same]

theorem follow?_congr (same : first.directories = second.directories)
    (location : Location) (components : List String) :
    first.follow? location components = second.follow? location components := by
  induction components generalizing location with
  | nil => rfl
  | cons component rest induction =>
      simp only [follow?, isDirectoryAt_congr same, induction]

/-- Where a path leads depends on the directories alone. -/
theorem locate?_congr (same : first.directories = second.directories)
    (components : List String) :
    first.locate? components = second.locate? components :=
  follow?_congr same [] components

end Directories

/-! ## Double dots -/

section Dots

variable {tree : FileTree} {location : Location}

theorem follow?_append (tree : FileTree) (location : Location)
    (components rest : List String) :
    tree.follow? location (components ++ rest) =
      (tree.follow? location components).bind (tree.follow? · rest) := by
  induction components generalizing location with
  | nil => rfl
  | cons component components induction =>
      simp only [List.cons_append, follow?, induction]
      split
      · split <;> rfl
      · rfl

theorem follow?_name {name : String} (isName : name ≠ "..")
    (directory : tree.isDirectoryAt location = true) :
    tree.follow? location [name] = some (location ++ [name]) := by
  rw [follow?, if_pos directory, if_neg isName, follow?]

/-- The components of a location lead to it, and so do those of the location
above it. -/
theorem locate?_dropLast (named : ".." ∉ location)
    (reached : tree.locate? location = some location) :
    tree.locate? location.dropLast = some location.dropLast := by
  obtain rfl | ⟨above, name, rfl⟩ := location.eq_nil_or_concat
  · exact reached
  · rw [List.concat_eq_append] at named reached ⊢
    rw [locate?, follow?_append] at reached
    rw [List.dropLast_concat]
    obtain ⟨middle, found, last⟩ := Option.bind_eq_some_iff.mp reached
    have isName : name ≠ ".." := by
      rintro rfl
      exact named (by simp)
    rw [follow?, if_neg isName] at last
    split at last
    · rw [follow?, Option.some.injEq, List.append_left_inj] at last
      rw [locate?, found, last]
    · contradiction

/-- Double dots behind components that lead to their own location. -/
theorem locate?_resolveDots_of_reached {done components : List String}
    (named : ".." ∉ done)
    (reached : tree.locate? done.reverse = some done.reverse)
    (found : tree.follow? done.reverse components = some location) :
    tree.locate? (Path.resolveDots done components) = some location := by
  -- what is done leads to its own location, also without its last component
  induction components generalizing done with
  | nil =>
      rw [follow?, Option.some.injEq] at found
      rw [Path.resolveDots, reached, found]
  | cons component components induction =>
      rw [follow?] at found
      rw [Path.resolveDots]
      split at found
      · rename_i directory
        split at found
        · rename_i dots
          rw [if_pos dots]
          have above : (done.drop 1).reverse = done.reverse.dropLast := by
            rw [List.drop_one, List.dropLast_reverse]
          apply induction
          · exact fun member => named (List.mem_of_mem_drop member)
          · rw [above]
            exact locate?_dropLast (by simpa using named) reached
          · rw [above]
            exact found
        · rename_i isName
          rw [if_neg isName]
          apply induction
          · rw [List.mem_cons, not_or]
            exact ⟨Ne.symm isName, named⟩
          · rw [locate?] at reached
            rw [List.reverse_cons, locate?, follow?_append, reached,
              Option.bind_some, follow?_name isName directory]
          · rwa [List.reverse_cons]
      · contradiction

/-- Resolving double dots by the text alone leads to the same place, if
following them leads anywhere. -/
theorem locate?_resolveDots {components : List String}
    (found : tree.locate? components = some location) :
    tree.locate? (Path.resolveDots [] components) = some location :=
  locate?_resolveDots_of_reached List.not_mem_nil rfl found

end Dots

/-- Where a file name leads. -/
def placeOf? (tree : FileTree) (filename : String) : Option Location :=
  tree.locate? (Path.ofString filename).components

theorem locate?_write (tree : FileTree) (location : Location)
    (bytes : Utf8.Bytes) (components : List String) :
    (tree.write location bytes).locate? components = tree.locate? components := by
  have same : (tree.write location bytes).directories = tree.directories := rfl
  exact locate?_congr same components

theorem placeOf?_write (tree : FileTree) (location : Location)
    (bytes : Utf8.Bytes) (filename : String) :
    (tree.write location bytes).placeOf? filename = tree.placeOf? filename :=
  locate?_write tree location bytes _

/-! ## Trees of one shape -/

/-- Two trees with the same directories and the same files, whatever these
hold. -/
structure SameShape (first second : FileTree) : Prop where
  directories : first.directories = second.directories
  files : first.files.map (·.1) = second.files.map (·.1)

namespace SameShape

theorem refl (tree : FileTree) : SameShape tree tree := ⟨rfl, rfl⟩

theorem trans {first second third : FileTree}
    (left : SameShape first second) (right : SameShape second third) :
    SameShape first third :=
  ⟨left.directories.trans right.directories, left.files.trans right.files⟩

variable {first second : FileTree}

theorem locate? (same : SameShape first second) (components : List String) :
    first.locate? components = second.locate? components :=
  locate?_congr same.directories components

theorem placeOf? (same : SameShape first second) (filename : String) :
    first.placeOf? filename = second.placeOf? filename :=
  same.locate? _

theorem isSome_bytesAt? (same : SameShape first second)
    (location : Location) :
    (first.bytesAt? location).isSome = (second.bytesAt? location).isSome := by
  rw [Bool.eq_iff_iff, isSome_bytesAt?_iff, isSome_bytesAt?_iff, same.files]

theorem isDirectory (same : SameShape first second)
    (components : List String) :
    first.isDirectory components = second.isDirectory components := by
  simp only [FileTree.isDirectory, same.locate?]
  congr 1
  exact funext (isDirectoryAt_congr same.directories)

theorem isFile (same : SameShape first second) (components : List String) :
    first.isFile components = second.isFile components := by
  simp only [FileTree.isFile, FileTree.bytes?, same.locate?]
  cases second.locate? components with
  | none => rfl
  | some location => exact same.isSome_bytesAt? location

theorem contains (same : SameShape first second) (components : List String) :
    first.contains components = second.contains components := by
  simp only [FileTree.contains, same.isDirectory, same.isFile]

theorem children (same : SameShape first second) (location : Location) :
    first.children location = second.children location := by
  simp only [FileTree.children, same.directories, same.files]

theorem directoriesBelow (same : SameShape first second)
    (location : Location) :
    first.directoriesBelow location = second.directoriesBelow location := by
  simp only [FileTree.directoriesBelow, same.directories]

end SameShape

theorem sameShape_write {tree : FileTree} {location : Location}
    (bytes : Utf8.Bytes) (existing : (tree.bytesAt? location).isSome) :
    SameShape (tree.write location bytes) tree :=
  ⟨rfl, map_fst_replaceFile bytes ((isSome_bytesAt?_iff tree location).mp existing)⟩

end TemplateLint.FileTree
