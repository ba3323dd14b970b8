import TemplateLint.FileTree
import TemplateLint.Linter.Described
import TemplateLint.Registry
import TemplateLint.Wildcard

/-!
# Linter modules

A project can bring its own linters in module files.  A module is described by
its definitions; loading a directory registers the linter classes that its
modules define, module by module in the order of their names, and stops at the
first module that fails.
-/

namespace TemplateLint

/-- One definition of a module. -/
inductive Definition where
  | linter (linterClass : LinterClass)
  | imported (linterClass : LinterClass)
  | abstract (name : String)
  | subclass (serial : Nat) (name parent : String)
  | alias (name target : String)
  | unrelated (name : String)
  | failure (message : Text)

/-- What a name of a module stands for. -/
inductive Member where
  | own (linterClass : LinterClass)
  | foreign (linterClass : LinterClass)
  | other
  | abstractClass

/-- The names of a module, in the order of their first definition. -/
abbrev Members := List (String × Member)

namespace Members

def get? (members : Members) (name : String) : Option Member :=
  (members.find? fun member => member.1 = name).map (·.2)

/-- A name defined again keeps its place. -/
def put (name : String) (member : Member) : Members → Members
  | [] => [(name, member)]
  | first :: later =>
      if first.1 = name then (name, member) :: later
      else first :: put name member later

end Members

/-- Why a load stops. -/
inductive LoadError where
  | moduleFailed (message : Text)
  | moduleIsDirectory (file : String)
  | nameTaken (error : Registry.NameTaken)

namespace Definition

/-- The class that a subclass of a member is. -/
def derived (serial : Nat) (name : String) : Option Member → Member
  | some (.own parent) | some (.foreign parent) =>
      .own (.extending serial name parent none)
  | some .abstractClass => .abstractClass
  | some .other | none => .other

/-- The members of a module after one more definition. -/
def define (members : Members) : Definition → Except LoadError Members
  | .linter linterClass => .ok (members.put linterClass.name (.own linterClass))
  | .imported linterClass =>
      .ok (members.put linterClass.name (.foreign linterClass))
  | .abstract name => .ok (members.put name .abstractClass)
  | .subclass serial name parent =>
      .ok (members.put name (derived serial name (members.get? parent)))
  | .alias name target =>
      .ok (members.put name ((members.get? target).getD .other))
  | .unrelated name => .ok (members.put name .other)
  | .failure message => .error (.moduleFailed message)

/-- The linter classes that a module defines itself. -/
def ownClasses (definitions : List Definition) :
    Except LoadError (List LinterClass) := do
  let members ← definitions.foldlM define []
  return members.filterMap fun member =>
    match member.2 with
    | .own linterClass => some linterClass
    | _ => none

end Definition

/-- Module files by their location. -/
abbrev Modules := List (Location × List Definition)

/-- A file without a description defines nothing. -/
def Modules.definitionsAt (modules : Modules) (location : Location) :
    List Definition :=
  ((modules.find? fun entry => entry.1 = location).map (·.2)).getD []

/-- The directory in which a project keeps its linters. -/
def defaultModuleDirectory : String := ".erb-linters"

/-- The state of a registry during a load: the classes loaded so far, each
with the file it comes from, and the error that has stopped the load. -/
structure Loading where
  registry : Registry
  loaded : List (LinterClass × String)
  failure : Option LoadError

namespace Loading

/-- Registers one class, unless the load has stopped. -/
def register (file : String) (loading : Loading) (linterClass : LinterClass) :
    Loading :=
  match loading.failure with
  | some _ => loading
  | none =>
      match loading.registry.register linterClass with
      | .error error => { loading with failure := some (.nameTaken error) }
      | .ok registry =>
          { loading with
            registry, loaded := loading.loaded ++ [(linterClass, file)] }

/-- Loads one module, unless the load has stopped. -/
def loadModule (definitions : List Definition) (file : String)
    (loading : Loading) : Loading :=
  match loading.failure with
  | some _ => loading
  | none =>
      match Definition.ownClasses definitions with
      | .error error => { loading with failure := some error }
      | .ok classes => classes.foldl (register file) loading

end Loading

/-- Stops a load at a directory that is named like a module. -/
def Loading.refuse (file : String) (loading : Loading) : Loading :=
  match loading.failure with
  | some _ => loading
  | none => { loading with failure := some (.moduleIsDirectory file) }

/-- The names of the entries of a directory that are named like modules,
sorted. -/
def moduleNames (tree : FileTree) (location : Location) : List String :=
  ((tree.children location).filter fun name =>
    Wildcard.isMatch "*.py" name.toList).mergeSort fun first second =>
      first ≤ second

/-- Registers what the modules of a directory define.  A directory that does
not exist has no modules. -/
def Registry.load (registry : Registry) (tree : FileTree) (modules : Modules)
    (workingDirectory directory : Path) : Loading :=
  let start : Loading := ⟨registry, [], none⟩
  match tree.locate? (workingDirectory.under directory).components with
  | none => start
  | some location =>
      if tree.isDirectoryAt location then
        (moduleNames tree location).foldl (fun loading name =>
          let file := (directory.under (Path.ofString name)).toString
          if tree.isDirectoryAt (location ++ [name]) then loading.refuse file
          else
            loading.loadModule (modules.definitionsAt (location ++ [name])) file)
          start
      else start

end TemplateLint
