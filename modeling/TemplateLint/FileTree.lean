import TemplateLint.Path
import TemplateLint.Text.Utf8

/-!
# File trees

A file tree is a finite set of directories and files by their components from
the root.  Double dots are followed through existing directories only.
-/

namespace TemplateLint

/-- The components from the root to a directory or file, without dots. -/
abbrev Location := List String

structure FileTree where
  directories : List Location
  files : List (Location × Utf8.Bytes)

namespace FileTree

/-- The root is always a directory. -/
def isDirectoryAt (tree : FileTree) (location : Location) : Bool :=
  location = [] || tree.directories.contains location

def bytesAt? (tree : FileTree) (location : Location) : Option Utf8.Bytes :=
  (tree.files.find? fun file => file.1 = location).map (·.2)

/-- Where components lead from a location.  Only the last one may be missing
or a file. -/
def follow? (tree : FileTree) (location : Location) :
    List String → Option Location
  | [] => some location
  | component :: rest =>
      if tree.isDirectoryAt location then
        if component = ".." then tree.follow? location.dropLast rest
        else tree.follow? (location ++ [component]) rest
      else none

/-- Where the components of an absolute path lead. -/
def locate? (tree : FileTree) (components : List String) : Option Location :=
  tree.follow? [] components

def isDirectory (tree : FileTree) (components : List String) : Bool :=
  (tree.locate? components).any tree.isDirectoryAt

def bytes? (tree : FileTree) (components : List String) : Option Utf8.Bytes :=
  (tree.locate? components).bind tree.bytesAt?

def isFile (tree : FileTree) (components : List String) : Bool :=
  (tree.bytes? components).isSome

def contains (tree : FileTree) (components : List String) : Bool :=
  tree.isDirectory components || tree.isFile components

/-- The components below a location that lead to another one. -/
def below? (location : Location) : Location → Option (List String)
  | target => if location.isPrefixOf target then
      some (target.drop location.length) else none

/-- The names of the entries of a directory. -/
def children (tree : FileTree) (location : Location) : List String :=
  (tree.directories ++ tree.files.map (·.1)).filterMap fun target =>
    match below? location target with
    | some [name] => some name
    | _ => none

/-- The ways from a directory to itself and to all directories below it. -/
def directoriesBelow (tree : FileTree) (location : Location) :
    List (List String) :=
  [] :: (tree.directories.filterMap (below? location)).filter (· ≠ [])

/-- All directories on the way to a location. -/
def ancestors (location : Location) : List Location :=
  (List.range location.length).map location.take

/-- The tree with a directory and those above it. -/
def addDirectory (tree : FileTree) (location : Location) : FileTree :=
  { tree with
    directories := (ancestors location ++ [location]).foldl
      (fun directories next =>
        if next = [] || directories.contains next then directories
        else directories ++ [next])
      tree.directories }

/-- Files with a new content at one location. -/
def replaceFile (location : Location) (bytes : Utf8.Bytes) :
    List (Location × Utf8.Bytes) → List (Location × Utf8.Bytes)
  | [] => [(location, bytes)]
  | file :: later =>
      if file.1 = location then (location, bytes) :: later
      else file :: replaceFile location bytes later

/-- The tree after a file has been written. -/
def write (tree : FileTree) (location : Location) (bytes : Utf8.Bytes) :
    FileTree :=
  { tree with files := replaceFile location bytes tree.files }

/-- The tree after writing to where the components of an absolute path lead. -/
def writeTo (tree : FileTree) (components : List String)
    (bytes : Utf8.Bytes) : FileTree :=
  match tree.locate? components with
  | some location => tree.write location bytes
  | none => tree

/-- The tree with a file and the directories above it. -/
def addFile (tree : FileTree) (location : Location) (bytes : Utf8.Bytes) :
    FileTree :=
  (tree.addDirectory location.dropLast).write location bytes

def empty : FileTree := ⟨[], []⟩

end FileTree

end TemplateLint
