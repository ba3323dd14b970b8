import TemplateLint.Linter

/-!
# Checks of tags

`SpaceAroundErbTag` looks at the white space at both ends of a tag's code,
`RightTrim` at its trim mark and `NoJavascriptTagHelper` at the names that the
code mentions.
-/

namespace TemplateLint

namespace SpaceAroundErbTag

/-- White space that separates code from a delimiter: one character, or any
run with a newline. -/
def isAccepted (spaces : Text) : Bool :=
  spaces.length = 1 || spaces.contains '\n'

def countText (count : Nat) : Text :=
  Text.ofNat count ++ (if 1 < count then " spaces" else " space")

def atStart (tag : Tag) : List Finding :=
  let spaces := tag.code.takeWhile Character.isBlank
  if isAccepted spaces then []
  else
    [.replacing tag.codeBegin (tag.codeBegin + spaces.length)
      ("Use 1 space after `<%" ++ tag.indicator.text ++ "` instead of "
        ++ countText spaces.length ++ ".") [' ']]

def atEnd (tag : Tag) : List Finding :=
  let spaces := Text.lastRun Character.isBlank tag.code
  if isAccepted spaces then []
  else
    [.replacing (tag.codeEnd - spaces.length) tag.codeEnd
      ("Use 1 space before `" ++ TrimMark.text tag.trim ++ "%>` instead of "
        ++ countText spaces.length ++ ".") [' ']]

/-- Comments and tags of white space alone are left as they are. -/
def inTag (tag : Tag) : List Finding :=
  if tag.indicator = .comment || tag.code.all Character.isBlank then []
  else atStart tag ++ atEnd tag

def findings (content : Text) : List Finding := content.tags.flatMap inTag

def check (_ : LinterConfig) (source : Source) : List Step :=
  (findings source.content).map .report

end SpaceAroundErbTag

namespace RightTrim

def inTag (style : TrimMark) (tag : Tag) : List Finding :=
  match tag.trim with
  | none => []
  | some mark =>
      if mark = style then []
      else
        [.replacing tag.trimPos (tag.trimPos + 1)
          ("Prefer `" ++ [style.char] ++ "%>` instead of `" ++ [mark.char]
            ++ "%>` for trimming on the right.") [style.char]]

def findings (style : TrimMark) (content : Text) : List Finding :=
  content.tags.flatMap (inTag style)

/-- The option is looked up for every text. -/
def check (config : LinterConfig) (source : Source) : List Step :=
  match config.own with
  | .enforcedStyle style => (findings style source.content).map .report
  | other => [.fail (.missingOption other.schema "enforced_style")]

end RightTrim

namespace NoJavascriptTagHelper

/-- The name of the helper. -/
def helper : Text := "javascript_tag"

/-- Whether a name stands in a text as a whole word; `before` is the character
in front of the text. -/
def mentions (name : Text) (before : Option Char) : Text → Bool
  | [] => false
  | c :: rest =>
      (name.isPrefixOf (c :: rest)
        && !before.any Character.isWord
        && !((c :: rest).drop name.length).head?.any Character.isWord)
      || mentions name (some c) rest

def findings (content : Text) : List Finding :=
  (content.tags.filter fun tag =>
    tag.indicator ≠ .comment && mentions helper none tag.code).map
    fun tag =>
      { beginPos := tag.beginPos
        endPos := tag.endPos
        message :=
          "Avoid using 'javascript_tag do' as it confuses tests that validate "
            ++ "html, use inline <script> instead" }

def check (_ : LinterConfig) (source : Source) : List Step :=
  (findings source.content).map .report

end NoJavascriptTagHelper

end TemplateLint
