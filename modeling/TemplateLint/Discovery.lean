import TemplateLint.Braces
import TemplateLint.FileTree
import TemplateLint.Wildcard

/-!
# Discovery of files

A glob is matched against the entries of a directory component by component.
Discovery searches the directories it is given and takes the files it is
given, each file once, in the order in which they are first found.
-/

namespace TemplateLint

/-- Why no list of files can be made. -/
inductive DiscoveryError where
  | pathNotFound (name : String)
  | emptyGlob
  | absoluteGlob
  | globWithoutParts
  | globOfSlash
  | misplacedStars
  | globNotText
  deriving DecidableEq

def DiscoveryError.message : DiscoveryError → Text
  | .pathNotFound name => name.toList ++ ": does not exist"
  | .emptyGlob => "Unacceptable pattern: ''"
  | .absoluteGlob => "Non-relative patterns are unsupported"
  | .globWithoutParts => "the glob has no component"
  | .globOfSlash => "the glob has no component before its slash"
  | .misplacedStars =>
      "Invalid pattern: '**' can only be an entire path component"
  | .globNotText => "the glob is not a text"

/-- One component of a glob. -/
inductive GlobPart where
  | anyDepth
  | wildcard (pattern : Text)
  | literal (name : String)
  deriving DecidableEq

/-- Components of a glob, and whether it asks for directories only. -/
structure Glob where
  parts : List GlobPart
  directoriesOnly : Bool

namespace Glob

/-- Two stars one after the other. -/
def hasDoubleStar : Text → Bool
  | '*' :: '*' :: _ => true
  | _ :: rest => hasDoubleStar rest
  | [] => false

def part (component : String) : Except DiscoveryError GlobPart :=
  let text := component.toList
  if text = ['*', '*'] then .ok .anyDepth
  else if hasDoubleStar text then .error .misplacedStars
  else if text.any fun c => c = '*' || c = '?' || c = '[' then
    .ok (.wildcard text)
  else .ok (.literal component)

/-- Reads a glob without braces.  It must be relative and have a component
that is not a dot. -/
def ofText (pattern : Text) : Except DiscoveryError Glob :=
  if pattern.isEmpty then .error .emptyGlob
  else
    let path := Path.ofText pattern
    let directoriesOnly := pattern.getLast? = some '/'
    if path.isAbsolute then .error .absoluteGlob
    else if path.components.isEmpty then
      .error (if directoriesOnly then .globOfSlash else .globWithoutParts)
    else do
      let parts ← path.components.mapM part
      return ⟨parts, directoriesOnly⟩

/-- The entries that components select below a directory, given by the
components that lead to it.  All but the last must be directories. -/
def select (tree : FileTree) : List GlobPart → List String → List (List String)
  | [], parent => [parent]
  | .literal name :: rest, parent =>
      let child := parent ++ [name]
      if if rest.isEmpty then tree.contains child else tree.isDirectory child then
        select tree rest child
      else []
  | .wildcard pattern :: rest, parent =>
      match tree.locate? parent with
      | none => []
      | some location =>
          (tree.children location).flatMap fun name =>
            let child := parent ++ [name]
            if Wildcard.isMatch pattern name.toList
                && (rest.isEmpty || tree.isDirectory child) then
              select tree rest child
            else []
  | .anyDepth :: rest, parent =>
      match tree.locate? parent with
      | none => []
      | some location =>
          (tree.directoriesBelow location).flatMap fun way =>
            select tree rest (parent ++ way)

/-- The files that a glob selects below a directory. -/
def files (tree : FileTree) (glob : Glob) (directory : List String) :
    List (List String) :=
  if glob.directoriesOnly || !tree.isDirectory directory then []
  else (select tree glob.parts directory).filter tree.isFile

end Glob

/-- The order of files: the first component that differs decides. -/
def precedes : List String → List String → Bool
  | [], _ => true
  | _ :: _, [] => false
  | first :: left, second :: right =>
      if first = second then precedes left right else first < second

/-- Sorted by components, each file once. -/
def sortedFiles (files : List (List String)) : List (List String) :=
  files.eraseDups.mergeSort precedes

/-- The files below a directory that a glob with braces selects. -/
def searchDirectory (tree : FileTree) (glob : Option Text)
    (directory : List String) : Except DiscoveryError (List (List String)) :=
  match glob with
  | none => .error .globNotText
  | some pattern => do
      let found ← (Braces.expand pattern).mapM fun expanded => do
        let glob ← Glob.ofText expanded
        return glob.files tree directory
      return sortedFiles found.flatten

/-- The glob that is used when none is configured. -/
def defaultGlob : Text := "**/*.html\x7b+*,\x7d.erb"

/-- Where to look for files. -/
structure Search where
  workingDirectory : Path
  base : Path
  glob : Option Text
  everything : Bool

namespace Search

/-- The components of a path from the root. -/
def components (search : Search) (path : Path) : List String :=
  (search.workingDirectory.under (search.base.under path)).components

/-- The absolute name of a file without dots. -/
def absoluteName (search : Search) (path : Path) (components : List String) :
    String :=
  (Path.mk (search.workingDirectory.under (search.base.under path)).anchor
    (Path.resolveDots [] components)).toString

/-- The files that one named path stands for. -/
def filesOf (search : Search) (tree : FileTree) (name : String) :
    Except DiscoveryError (List String) :=
  let path := Path.ofString name
  let components := search.components path
  if tree.isDirectory components then
    (searchDirectory tree search.glob components).map
      (·.map (search.absoluteName path))
  else if tree.isFile components then
    .ok [search.absoluteName path components]
  else .error (.pathNotFound name)

/-- The files below the base directory, if everything is asked for. -/
def filesOfBase (search : Search) (tree : FileTree) :
    Except DiscoveryError (List String) :=
  if search.everything then
    let here := Path.mk .relative []
    (searchDirectory tree search.glob (search.components here)).map
      (·.map (search.absoluteName here))
  else .ok []

/-- The absolute names of all files, without repetitions. -/
def discover (search : Search) (tree : FileTree) (names : List String) :
    Except DiscoveryError (List String) := do
  let fromBase ← search.filesOfBase tree
  let named ← names.mapM (search.filesOf tree)
  return (fromBase ++ named.flatten).eraseDups

end Search

end TemplateLint
