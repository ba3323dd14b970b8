import TemplateLint.Linter.Builtin

/-!
# Registries

A registry lists linter classes in the order of their registration.  A class
is found by its class name or its linter name, and no class is registered
whose name already finds one.
-/

namespace TemplateLint

structure Registry where
  classes : List LinterClass

namespace Registry

def empty : Registry := ⟨[]⟩

/-- The first class that answers to a name. -/
def find? (registry : Registry) (name : String) : Option LinterClass :=
  registry.classes.find? (·.answersTo name)

def contains (registry : Registry) (name : String) : Bool :=
  (registry.find? name).isSome

/-- The linter names of all classes. -/
def linterNames (registry : Registry) : List String :=
  registry.classes.map (·.linterName)

/-- The name of a class is already taken. -/
structure NameTaken where
  name : String
  deriving DecidableEq

def NameTaken.message (error : NameTaken) : Text :=
  error.name.toList ++ ": linter already registered"

def register (registry : Registry) (linterClass : LinterClass) :
    Except NameTaken Registry :=
  if registry.contains linterClass.name then .error ⟨linterClass.name⟩
  else .ok ⟨registry.classes ++ [linterClass]⟩

/-- Registers classes one after another. -/
def registerAll (registry : Registry) (classes : List LinterClass) :
    Except NameTaken Registry :=
  classes.foldlM register registry

/-- The registry of the built-in linters. -/
def builtin : Registry := ⟨LinterClass.builtin⟩

end Registry

end TemplateLint
