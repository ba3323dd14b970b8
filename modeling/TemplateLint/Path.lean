import TemplateLint.Text

/-!
# Paths

A path is an anchor and its components.  Reading drops empty components and
single dots; double dots stay until a path is normalised, which resolves them
by the text alone.
-/

namespace TemplateLint

/-- Where a path starts: at the working directory, at the root, or at the
root written with two slashes. -/
inductive Anchor where
  | relative
  | root
  | doubleRoot
  deriving DecidableEq, Repr

def Anchor.text : Anchor → String
  | .relative => ""
  | .root => "/"
  | .doubleRoot => "//"

structure Path where
  anchor : Anchor
  components : List String
  deriving DecidableEq

namespace Path

/-- The components between slashes, without empty ones and single dots. -/
def componentsOf (text : Text) : List String :=
  ((Text.parts '/' text).map String.ofList).filter
    fun component => component ≠ "" ∧ component ≠ "."

/-- Exactly two leading slashes are kept apart from one. -/
def anchorOf : Text → Anchor
  | '/' :: '/' :: '/' :: _ => .root
  | '/' :: '/' :: _ => .doubleRoot
  | '/' :: _ => .root
  | _ => .relative

def ofText (text : Text) : Path := ⟨anchorOf text, componentsOf text⟩

def ofString (text : String) : Path := ofText text.toList

/-- The written form; a path of nothing at all is a dot. -/
def toString (path : Path) : String :=
  let text := path.anchor.text ++ "/".intercalate path.components
  if text = "" then "." else text

def isAbsolute (path : Path) : Bool := path.anchor ≠ .relative

/-- A path seen from a directory; an absolute path stays as it is. -/
def under (directory path : Path) : Path :=
  if path.isAbsolute then path
  else ⟨directory.anchor, directory.components ++ path.components⟩

/-- Resolves double dots, after the components `done` in reverse order. -/
def resolveDots (done : List String) : List String → List String
  | [] => done.reverse
  | component :: rest =>
      if component = ".." then resolveDots (done.drop 1) rest
      else resolveDots (component :: done) rest

/-- The path from the root without double dots. -/
def normalised (workingDirectory path : Path) : Path :=
  let full := workingDirectory.under path
  ⟨full.anchor, resolveDots [] full.components⟩

end Path

/-- The way from one list of components to another. -/
def relativeComponents : List String → List String → List String
  | first :: base, second :: target =>
      if first = second then relativeComponents base target
      else List.replicate (base.length + 1) ".." ++ second :: target
  | base, target => List.replicate base.length ".." ++ target

/-- A path as seen from a base directory; the base itself is a dot. -/
def Path.seenFrom (workingDirectory base path : Path) : String :=
  (Path.mk .relative (relativeComponents
    (normalised workingDirectory base).components
    (normalised workingDirectory path).components)).toString

end TemplateLint
