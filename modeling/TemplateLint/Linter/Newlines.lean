import TemplateLint.Linter

/-!
# Checks of newlines

`FinalNewline` looks at the newlines at the end of a text, `ExtraNewline` at
runs of three or more newlines before another character.
-/

namespace TemplateLint

namespace FinalNewline

/-- How many newlines end a text. -/
def count (content : Text) : Nat :=
  (Text.lastRun (fun c => c = '\n') content).length

def findings (present : Bool) (content : Text) : List Finding :=
  let size := content.length
  let newlines := count content
  if content.isEmpty then []
  else if present then
    if newlines = 0 then
      [.replacing size size "Missing a trailing newline at the end of the file."
        ['\n']]
    else if newlines = 1 then []
    else
      [.replacing (size - newlines + 1) size
        "Remove multiple trailing newline at the end of the file." []]
  else if newlines = 0 then []
  else
    [.replacing (size - newlines) size
      ("Remove " ++ Text.ofNat newlines
        ++ " trailing newline at the end of the file.") []]

/-- The option is looked up for every text but the empty one. -/
def check (config : LinterConfig) (source : Source) : List Step :=
  match config.own with
  | .present flag => (findings flag source.content).map .report
  | other =>
      if source.content.isEmpty then []
      else [.fail (.missingOption other.schema "present")]

end FinalNewline

namespace ExtraNewline

/-- Runs of newlines that another character follows, without the first two of
each; `count` newlines precede `position`. -/
def runs (position count : Nat) : Text → List (Nat × Nat)
  | [] => []
  | c :: rest =>
      if c = '\n' then runs (position + 1) (count + 1) rest
      else if 2 < count then
        (position - (count - 2), position) :: runs (position + 1) 0 rest
      else runs (position + 1) 0 rest

def findings (content : Text) : List Finding :=
  (runs 0 0 content).map fun run =>
    .replacing run.1 run.2 "Extra blank line detected." []

def check (_ : LinterConfig) (source : Source) : List Step :=
  (findings source.content).map .report

end ExtraNewline

end TemplateLint
