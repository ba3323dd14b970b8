import TemplateLint.Discovery
import TemplateLint.Proofs.FileTree

/-!
# Discovery looks at shapes only

What a glob selects and which files a search finds depends on the directories
of a tree and on the names of its files, and not on what the files hold.
-/

namespace TemplateLint.FileTree.SameShape

variable {first second : FileTree}

theorem select (same : SameShape first second) (parts : List GlobPart)
    (parent : List String) :
    Glob.select first parts parent = Glob.select second parts parent := by
  induction parts generalizing parent with
  | nil => simp only [Glob.select]
  | cons part rest induction =>
      cases part with
      | literal name =>
          simp only [Glob.select, same.contains, same.isDirectory, induction]
      | wildcard pattern =>
          simp only [Glob.select, same.locate?, same.children,
            same.isDirectory, induction]
      | anyDepth =>
          simp only [Glob.select, same.locate?, same.directoriesBelow,
            induction]

theorem globFiles (same : SameShape first second) (glob : Glob)
    (directory : List String) :
    glob.files first directory = glob.files second directory := by
  have isFile : first.isFile = second.isFile := funext same.isFile
  simp only [Glob.files, same.isDirectory, same.select, isFile]

theorem searchDirectory (same : SameShape first second) (glob : Option Text)
    (directory : List String) :
    TemplateLint.searchDirectory first glob directory =
      TemplateLint.searchDirectory second glob directory := by
  simp only [TemplateLint.searchDirectory, same.globFiles]

theorem filesOf (same : SameShape first second) (search : Search)
    (name : String) :
    search.filesOf first name = search.filesOf second name := by
  simp only [Search.filesOf, same.isDirectory, same.isFile,
    same.searchDirectory]

theorem discover (same : SameShape first second) (search : Search)
    (names : List String) :
    search.discover first names = search.discover second names := by
  have filesOf : search.filesOf first = search.filesOf second :=
    funext (same.filesOf search)
  have filesOfBase : search.filesOfBase first = search.filesOfBase second := by
    simp only [Search.filesOfBase, same.searchDirectory]
  simp only [Search.discover, filesOf, filesOfBase]

end TemplateLint.FileTree.SameShape
