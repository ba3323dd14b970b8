import TemplateLint.CommandLine

/-!
# The program

Reads the files below the working directory and below the paths that the
arguments mention, runs the command line on them, and carries out what it asks
for: two streams, changed files and an exit code.
-/

namespace TemplateLint.Program

/-- The written path of a location. -/
def nameOf (location : Location) : String := (Path.mk .root location).toString

/-- The tree with everything at and below a location.  Symbolic links are not
followed. -/
partial def addBelow (tree : FileTree) (location : Location) : IO FileTree := do
  let place := (← IO.currentDir) / nameOf location
  if !(← place.pathExists) then return tree
  match (← place.symlinkMetadata).type with
  | .dir =>
      let mut grown := tree.addDirectory location
      for entry in ← place.readDir do
        grown ← addBelow grown (location ++ [entry.fileName])
      return grown
  | .file => return tree.addFile location (← IO.FS.readBinFile place).toList
  | _ => return tree

/-- The tree of the working directory and of the paths outside of it. -/
def readTree (here : Path) (paths : List Path) : IO FileTree := do
  let mut tree ← addBelow .empty here.components
  for path in paths do
    let location := (Path.normalised here path).components
    if !here.components.isPrefixOf location then
      tree ← addBelow tree location
  return tree

/-- Writes the files that differ from what was read. -/
def writeChanges (before after : FileTree) : IO Unit := do
  for (location, bytes) in after.files do
    if before.bytesAt? location ≠ some bytes then
      IO.FS.writeBinFile (nameOf location) ⟨bytes.toArray⟩

def metadata : Metadata :=
  ⟨CommandLine.version, "Lean", "4", "native"⟩

/-- Runs the program in the working directory. -/
def run (arguments : List String) : IO UInt32 := do
  let options := (CommandLine.options? arguments).getD {}
  let here := Path.ofString (← IO.currentDir).toString
  let tree ← readTree here options.paths
  let input ←
    if options.standardInput.isSome then
      (← IO.getStdin).readBinToEnd
    else pure .empty
  let ending := CommandLine.run ⟨here, tree, [], metadata, input.toList⟩ none
    arguments
  IO.print (String.ofList ending.printed.out)
  IO.eprint (String.ofList ending.printed.err)
  match ending.breakdown with
  | some breakdown => IO.eprintln (String.ofList breakdown.message)
  | none => pure ()
  writeChanges tree ending.tree
  return UInt32.ofNat ending.exitCode

end TemplateLint.Program

def main (arguments : List String) : IO UInt32 :=
  TemplateLint.Program.run arguments
