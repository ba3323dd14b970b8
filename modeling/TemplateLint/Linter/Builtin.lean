import TemplateLint.Linter.LineSpaces
import TemplateLint.Linter.Newlines
import TemplateLint.Linter.TagStyle

/-!
# Built-in linters

The seven linter classes that every registry starts from, in the order in
which they run.
-/

namespace TemplateLint.LinterClass

def finalNewline : LinterClass :=
  ⟨0, "FinalNewline", .finalNewline, true, FinalNewline.check⟩

def rightTrim : LinterClass :=
  ⟨0, "RightTrim", .rightTrim, true, RightTrim.check⟩

def spaceAroundErbTag : LinterClass :=
  ⟨0, "SpaceAroundErbTag", .common, true, SpaceAroundErbTag.check⟩

def spaceIndentation : LinterClass :=
  ⟨0, "SpaceIndentation", .spaceIndentation, true, SpaceIndentation.check⟩

def trailingWhitespace : LinterClass :=
  ⟨0, "TrailingWhitespace", .common, true, TrailingWhitespace.check⟩

def extraNewline : LinterClass :=
  ⟨0, "ExtraNewline", .common, true, ExtraNewline.check⟩

def noJavascriptTagHelper : LinterClass :=
  ⟨0, "NoJavascriptTagHelper", .common, false, NoJavascriptTagHelper.check⟩

def builtin : List LinterClass :=
  [finalNewline, rightTrim, spaceAroundErbTag, spaceIndentation,
    trailingWhitespace, extraNewline, noJavascriptTagHelper]

/-- The built-in class of a class name. -/
def builtin? (name : String) : Option LinterClass :=
  builtin.find? (·.name = name)

end TemplateLint.LinterClass
