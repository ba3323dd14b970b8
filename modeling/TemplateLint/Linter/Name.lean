import TemplateLint.Text.LowerCase
import TemplateLint.Text.Seam

/-!
# Linter names

The name of a linter is its class name in lower case, with an underscore
before each word: `FinalNewline` becomes `final_newline`.  A word begins at
the last capital of an acronym that small letters follow, and at a capital
after a small letter or digit.
-/

namespace TemplateLint.LinterName

def isCapital (c : Char) : Bool := 'A' ≤ c && c ≤ 'Z'

def isSmall (c : Char) : Bool := 'a' ≤ c && c ≤ 'z'

/-- Between an acronym and the capitalised word after it. -/
def acronymSeam : Seam where
  left := isCapital
  repeats := true
  right := [isCapital, isSmall]

/-- Between a small letter or digit and the capital after it. -/
def humpSeam : Seam where
  left c := isSmall c || Character.isDecimalDigit c
  repeats := false
  right := [isCapital]

/-- The linter name of a class name. -/
def underscore (name : List Char) : List Char :=
  LowerCase.lower (humpSeam.fill '_' (acronymSeam.fill '_' name))

end TemplateLint.LinterName
