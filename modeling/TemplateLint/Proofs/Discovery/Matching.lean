import TemplateLint.Discovery
import TemplateLint.Proofs.FileTree.Entries

/-!
# What a glob selects

A glob walks through directories.  In a file system it comes to exactly those
files whose way below the directory matches the components of the glob one
after the other, whatever is on the way.
-/

namespace TemplateLint

namespace Glob

/-- The components of a glob match a way one after the other: a literal one
itself, a wildcard one name, and double stars any number of names, but not at
the end, where they stand for directories. -/
inductive Matches : List GlobPart → List String → Prop where
  | nil : Matches [] []
  | literal {name : String} {parts : List GlobPart} {way : List String}
      (later : Matches parts way) :
      Matches (.literal name :: parts) (name :: way)
  | wildcard {pattern : Text} {name : String} {parts : List GlobPart}
      {way : List String} (isName : name ≠ "..")
      (fits : Wildcard.isMatch pattern name.toList = true)
      (later : Matches parts way) :
      Matches (.wildcard pattern :: parts) (name :: way)
  | anyDepth {names : List String} {parts : List GlobPart} {way : List String}
      (areNames : ".." ∉ names) (notLast : parts ≠ [])
      (later : Matches parts way) :
      Matches (.anyDepth :: parts) (names ++ way)

variable {tree : FileTree} {parts : List GlobPart}
  {parent way file directory : List String}

theorem Matches.exists_cons (isMatch : Matches parts way)
    (someParts : parts ≠ []) : ∃ name rest, way = name :: rest := by
  induction isMatch with
  | nil => contradiction
  | literal later _ => exact ⟨_, _, rfl⟩
  | wildcard isName fits later _ => exact ⟨_, _, rfl⟩
  | @anyDepth names parts way areNames notLast later induction =>
      obtain ⟨name, rest, rfl⟩ := induction notLast
      cases names with
      | nil => exact ⟨_, _, rfl⟩
      | cons first names => exact ⟨_, _, rfl⟩

/-- The way to a selected file matches. -/
theorem matches_of_mem_select (isFileSystem : tree.IsFileSystem)
    (isFile : tree.isFile file = true)
    (inside : parts ≠ [] → tree.isDirectory parent = true)
    (member : file ∈ select tree parts parent) :
    ∃ way, file = parent ++ way ∧ Matches parts way := by
  induction parts generalizing parent with
  | nil =>
      rw [select, List.mem_singleton] at member
      exact ⟨[], by simp [member], .nil⟩
  | cons part rest induction =>
      cases part with
      | literal name =>
          rw [select, List.mem_ite_nil_right] at member
          have insideChild : rest ≠ [] →
              tree.isDirectory (parent ++ [name]) = true := by
            intro more
            simpa [more] using member.1
          obtain ⟨way, rfl, isMatch⟩ := induction insideChild member.2
          exact ⟨name :: way, by simp, .literal isMatch⟩
      | wildcard pattern =>
          rw [select] at member
          split at member
          · contradiction
          · rename_i location located
            obtain ⟨name, child, member⟩ := List.mem_flatMap.mp member
            rw [List.mem_ite_nil_right, Bool.and_eq_true] at member
            obtain ⟨⟨fits, leads⟩, member⟩ := member
            have insideChild : rest ≠ [] →
                tree.isDirectory (parent ++ [name]) = true := by
              intro more
              simpa [more] using leads
            obtain ⟨way, rfl, isMatch⟩ := induction insideChild member
            have isName := isFileSystem.named _
              (FileTree.mem_children_iff.mp child) name (by simp)
            exact ⟨name :: way, by simp, .wildcard isName.2 fits isMatch⟩
      | anyDepth =>
          obtain ⟨location, reached, directory⟩ :=
            FileTree.isDirectory_iff.mp (inside (List.cons_ne_nil _ _))
          rw [select, reached] at member
          obtain ⟨names, deeper, member⟩ := List.mem_flatMap.mp member
          have below : tree.isDirectoryAt (location ++ names) = true := by
            rcases FileTree.mem_directoriesBelow_iff.mp deeper with
              rfl | deeper
            · rwa [List.append_nil]
            · exact FileTree.isDirectoryAt_iff.mpr (.inr deeper)
          have areNames : ".." ∉ names := by
            intro dots
            have entry := FileTree.mem_entries_of_isDirectoryAt
              (List.ne_nil_of_mem (List.mem_append_right _ dots)) below
            exact (isFileSystem.named _ entry _
              (List.mem_append_right _ dots)).2 rfl
          have insideBelow : tree.isDirectory (parent ++ names) = true := by
            refine FileTree.isDirectory_iff.mpr ⟨_, ?_, below⟩
            rw [FileTree.locate?_append, reached, Option.bind_some,
              isFileSystem.follow?_directory below]
          obtain ⟨way, rfl, isMatch⟩ := induction (fun _ => insideBelow) member
          refine ⟨names ++ way, by simp, .anyDepth areNames ?_ isMatch⟩
          rintro rfl
          cases isMatch
          rw [List.append_nil] at isFile
          rw [isFileSystem.not_isDirectory_of_isFile isFile] at insideBelow
          contradiction

theorem Matches.isDirectory (isMatch : Matches parts way)
    (isFile : tree.isFile (parent ++ way) = true) (more : parts ≠ []) :
    tree.isDirectory parent = true := by
  obtain ⟨name, rest, rfl⟩ := isMatch.exists_cons more
  exact FileTree.isDirectory_of_isFile_append isFile

/-- A file is selected if the way to it matches. -/
theorem mem_select_of_matches (isMatch : Matches parts way)
    (isFile : tree.isFile (parent ++ way) = true) :
    parent ++ way ∈ select tree parts parent := by
  induction isMatch generalizing parent with
  | nil => simp [select]
  | @literal name parts way later induction =>
      rw [List.append_cons] at isFile ⊢
      rw [select, List.mem_ite_nil_right]
      refine ⟨?_, induction isFile⟩
      by_cases last : parts = []
      · subst last
        cases later
        rw [List.append_nil] at isFile
        simp [FileTree.contains, isFile]
      · simp [last, later.isDirectory isFile last]
  | @wildcard pattern name parts way isName fits later induction =>
      obtain ⟨location, reached, -⟩ := FileTree.isDirectory_iff.mp
        (FileTree.isDirectory_of_isFile_append isFile)
      have entry := FileTree.mem_entries_of_isFile_append isName reached isFile
      rw [List.append_cons] at isFile ⊢
      rw [select, reached]
      refine List.mem_flatMap.mpr
        ⟨name, FileTree.mem_children_iff.mpr entry, ?_⟩
      rw [List.mem_ite_nil_right, Bool.and_eq_true]
      refine ⟨⟨fits, ?_⟩, induction isFile⟩
      by_cases last : parts = []
      · simp [last]
      · simp [later.isDirectory isFile last]
  | @anyDepth names parts way areNames notLast later induction =>
      rw [← List.append_assoc] at isFile ⊢
      obtain ⟨below, reached, directory⟩ := FileTree.isDirectory_iff.mp
        (later.isDirectory isFile notLast)
      rw [FileTree.locate?_append, Option.bind_eq_some_iff] at reached
      obtain ⟨location, reached, followed⟩ := reached
      rw [FileTree.follow?_named areNames followed] at directory
      have deeper : names ∈ tree.directoriesBelow location := by
        rw [FileTree.mem_directoriesBelow_iff]
        by_cases none : names = []
        · exact .inl none
        · rw [FileTree.isDirectoryAt_iff] at directory
          exact .inr (directory.resolve_left (by simp [none]))
      rw [select, reached]
      exact List.mem_flatMap.mpr ⟨names, deeper, induction isFile⟩

/-- A glob selects exactly the files whose way below the directory matches. -/
theorem mem_files_iff (isFileSystem : tree.IsFileSystem) {glob : Glob} :
    file ∈ glob.files tree directory ↔
      glob.directoriesOnly = false ∧ tree.isDirectory directory = true ∧
        tree.isFile file = true ∧
        ∃ way, file = directory ++ way ∧ Matches glob.parts way := by
  rw [files, List.mem_ite_nil_left, List.mem_filter]
  simp only [Bool.or_eq_true, Bool.not_eq_true', not_or, Bool.not_eq_true,
    Bool.not_eq_false]
  constructor
  · rintro ⟨⟨filesOnly, inside⟩, member, isFile⟩
    exact ⟨filesOnly, inside, isFile,
      matches_of_mem_select isFileSystem isFile (fun _ => inside) member⟩
  · rintro ⟨filesOnly, inside, isFile, way, rfl, isMatch⟩
    exact ⟨⟨filesOnly, inside⟩, mem_select_of_matches isMatch isFile, isFile⟩

end Glob

end TemplateLint
