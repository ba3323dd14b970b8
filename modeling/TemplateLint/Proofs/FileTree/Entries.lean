import Mathlib.Data.List.Induction
import TemplateLint.Proofs.FileTree
import TemplateLint.Proofs.Path

/-!
# File systems

A tree is a file system if its entries have names, lie in directories, and are
either directories or files.  There the way to an entry leads to it, and every
component of a path that leads to a file is a name or goes up.
-/

namespace TemplateLint

namespace FileTree

/-- The locations of all directories but the root, and of all files. -/
def entries (tree : FileTree) : List Location :=
  tree.directories ++ tree.files.map (·.1)

/-- The entries have names, and lie in directories; none of them is both a
directory and a file. -/
structure IsFileSystem (tree : FileTree) : Prop where
  named : ∀ location ∈ tree.entries, ∀ name ∈ location,
    Path.IsName name ∧ name ≠ ".."
  closed : ∀ location ∈ tree.entries,
    tree.isDirectoryAt location.dropLast = true
  apart : ∀ file ∈ tree.files, tree.isDirectoryAt file.1 = false

instance (tree : FileTree) : Decidable tree.IsFileSystem :=
  decidable_of_iff
    ((∀ location ∈ tree.entries, ∀ name ∈ location,
        Path.IsName name ∧ name ≠ "..") ∧
      (∀ location ∈ tree.entries,
        tree.isDirectoryAt location.dropLast = true) ∧
      ∀ file ∈ tree.files, tree.isDirectoryAt file.1 = false)
    ⟨fun ⟨named, closed, apart⟩ => ⟨named, closed, apart⟩,
      fun ⟨named, closed, apart⟩ => ⟨named, closed, apart⟩⟩

variable {tree : FileTree} {location target : Location}
  {names components rest : List String} {name : String}

theorem isDirectoryAt_iff :
    tree.isDirectoryAt location = true ↔
      location = [] ∨ location ∈ tree.directories := by
  simp [isDirectoryAt]

theorem mem_entries_of_isDirectoryAt (notRoot : location ≠ [])
    (directory : tree.isDirectoryAt location = true) :
    location ∈ tree.entries := by
  rw [isDirectoryAt_iff] at directory
  exact List.mem_append_left _ (directory.resolve_left notRoot)

theorem mem_entries_of_isSome_bytesAt?
    (held : (tree.bytesAt? location).isSome) : location ∈ tree.entries :=
  List.mem_append_right _ ((isSome_bytesAt?_iff tree location).mp held)

theorem isDirectory_iff :
    tree.isDirectory components = true ↔
      ∃ location, tree.locate? components = some location ∧
        tree.isDirectoryAt location = true := by
  simp [isDirectory, Option.any_eq_true]

theorem isFile_iff :
    tree.isFile components = true ↔
      ∃ location, tree.locate? components = some location ∧
        (tree.bytesAt? location).isSome := by
  rw [isFile, bytes?]
  cases tree.locate? components <;> simp

theorem locate?_append (tree : FileTree) (components rest : List String) :
    tree.locate? (components ++ rest) =
      (tree.locate? components).bind (tree.follow? · rest) :=
  follow?_append tree [] components rest

/-! ## Entries of directories -/

theorem below?_eq_some_iff :
    below? location target = some rest ↔ target = location ++ rest := by
  rw [below?]
  split
  · rename_i above
    obtain ⟨found, rfl⟩ := List.isPrefixOf_iff_prefix.mp above
    simp
  · rename_i beside
    simp only [reduceCtorEq, false_iff]
    rintro rfl
    exact beside (List.isPrefixOf_iff_prefix.mpr (List.prefix_append _ _))

theorem mem_children_iff :
    name ∈ tree.children location ↔ location ++ [name] ∈ tree.entries := by
  rw [children, List.mem_filterMap, entries]
  constructor
  · rintro ⟨target, member, found⟩
    split at found
    · rename_i other below
      rw [Option.some.injEq] at found
      rwa [below?_eq_some_iff.mp below, found] at member
    · contradiction
  · intro member
    exact ⟨_, member, by rw [below?_eq_some_iff.mpr rfl]⟩

theorem mem_directoriesBelow_iff :
    names ∈ tree.directoriesBelow location ↔
      names = [] ∨ location ++ names ∈ tree.directories := by
  rw [directoriesBelow, List.mem_cons, List.mem_filter, List.mem_filterMap]
  simp only [below?_eq_some_iff, decide_eq_true_eq]
  constructor
  · rintro (none | ⟨⟨target, member, rfl⟩, -⟩)
    · exact .inl none
    · exact .inr member
  · rintro (none | member)
    · exact .inl none
    · by_cases none : names = []
      · exact .inl none
      · exact .inr ⟨⟨_, member, rfl⟩, none⟩

/-! ## Following names -/

theorem follow?_named (named : ".." ∉ names)
    (found : tree.follow? location names = some target) :
    target = location ++ names := by
  induction names generalizing location with
  | nil =>
      rw [follow?, Option.some.injEq] at found
      rw [← found, List.append_nil]
  | cons name names induction =>
      rw [List.mem_cons, not_or] at named
      rw [follow?] at found
      split at found
      · rw [if_neg (Ne.symm named.1)] at found
        rw [induction named.2 found, List.append_assoc]
        rfl
      · contradiction

theorem isDirectoryAt_of_follow?
    (found : tree.follow? location (name :: names) = some target) :
    tree.isDirectoryAt location = true := by
  rw [follow?] at found
  split at found
  · assumption
  · contradiction

/-- What comes before the last component of a path that leads to a file is a
directory. -/
theorem isDirectory_of_isFile_append
    (isFile : tree.isFile (components ++ name :: rest) = true) :
    tree.isDirectory components = true := by
  obtain ⟨target, found, -⟩ := isFile_iff.mp isFile
  rw [locate?_append, Option.bind_eq_some_iff] at found
  obtain ⟨location, reached, followed⟩ := found
  exact isDirectory_iff.mpr
    ⟨location, reached, isDirectoryAt_of_follow? followed⟩

/-- The location of a path is an entry if a name leads on from it. -/
theorem mem_entries_of_isFile_append (isName : name ≠ "..")
    (reached : tree.locate? components = some location)
    (isFile : tree.isFile (components ++ name :: rest) = true) :
    location ++ [name] ∈ tree.entries := by
  obtain ⟨target, found, held⟩ := isFile_iff.mp isFile
  rw [locate?_append, reached, Option.bind_some, follow?, if_neg isName]
    at found
  split at found
  · cases rest with
    | nil =>
        rw [follow?, Option.some.injEq] at found
        subst found
        exact mem_entries_of_isSome_bytesAt? held
    | cons next rest =>
        exact mem_entries_of_isDirectoryAt (by simp)
          (isDirectoryAt_of_follow? found)
  · contradiction

namespace IsFileSystem

/-- The way to a directory leads to it. -/
theorem follow?_directory (isFileSystem : tree.IsFileSystem)
    (directory : tree.isDirectoryAt (location ++ names) = true) :
    tree.follow? location names = some (location ++ names) := by
  induction names using List.reverseRecOn with
  | nil => simp [follow?]
  | append_singleton names name induction =>
      rw [← List.append_assoc] at directory ⊢
      have entry := mem_entries_of_isDirectoryAt (by simp) directory
      have above := isFileSystem.closed _ entry
      rw [List.dropLast_concat] at above
      have isName := (isFileSystem.named _ entry name (by simp)).2
      rw [follow?_append, induction above, Option.bind_some,
        follow?_name isName above]

theorem not_isDirectory_of_isFile (isFileSystem : tree.IsFileSystem)
    (isFile : tree.isFile components = true) :
    tree.isDirectory components = false := by
  obtain ⟨location, found, held⟩ := isFile_iff.mp isFile
  refine Bool.eq_false_iff.mpr fun isDirectory => ?_
  obtain ⟨other, foundToo, directory⟩ := isDirectory_iff.mp isDirectory
  rw [found, Option.some.injEq] at foundToo
  subst foundToo
  obtain ⟨file, member, rfl⟩ :=
    List.mem_map.mp ((isSome_bytesAt?_iff tree _).mp held)
  rw [isFileSystem.apart file member] at directory
  contradiction

/-- Every component of a path that leads to a file is a name. -/
theorem isName_of_isFile (isFileSystem : tree.IsFileSystem)
    (isFile : tree.isFile components = true) (member : name ∈ components) :
    Path.IsName name := by
  by_cases dots : name = ".."
  · subst dots
    exact Path.isName_dots
  · obtain ⟨before, rest, rfl⟩ := List.append_of_mem member
    obtain ⟨location, reached, -⟩ :=
      isDirectory_iff.mp (isDirectory_of_isFile_append isFile)
    have entry := mem_entries_of_isFile_append dots reached isFile
    exact (isFileSystem.named _ entry name (by simp)).1

end IsFileSystem

end FileTree

end TemplateLint
