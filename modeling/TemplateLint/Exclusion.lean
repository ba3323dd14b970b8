import TemplateLint.Path
import TemplateLint.Wildcard

/-!
# Exclusion of files

A pattern excludes a file when it matches the file's name or its path as seen
from the base directory.  An empty file name names no path.
-/

namespace TemplateLint

/-- A file name without characters has no path. -/
structure EmptyPath where
  deriving DecidableEq

def EmptyPath.message (_ : EmptyPath) : Text := "no path specified"

/-- Whether one pattern excludes a file, given its path from the base. -/
def excludes (filename relative pattern : String) : Bool :=
  Wildcard.isMatch pattern.toList filename.toList
    || Wildcard.isMatch pattern.toList relative.toList

/-- Whether one of several patterns excludes a file, seen from a base
directory. -/
def isExcluded (workingDirectory : Path) (base : String)
    (patterns : List String) (filename : String) : Bool :=
  let relative :=
    Path.seenFrom workingDirectory (.ofString base) (.ofString filename)
  patterns.any (excludes filename relative)

/-- The same for a file name that may be empty. -/
def isExcluded? (workingDirectory : Path) (base : String)
    (patterns : List String) (filename : String) : Except EmptyPath Bool :=
  if filename = "" then .error ⟨⟩
  else .ok (isExcluded workingDirectory base patterns filename)

/-- The files that no pattern excludes. -/
def keepFiles (workingDirectory : Path) (base : String)
    (patterns : List String) (filenames : List String) :
    Except EmptyPath (List String) :=
  filenames.filterM fun filename =>
    (isExcluded? workingDirectory base patterns filename).map (!·)

end TemplateLint
