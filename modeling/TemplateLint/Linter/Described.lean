import TemplateLint.Linter.Builtin

/-!
# Described linters

A linter can be described by rules instead of a program.  A rule reports one
range, a text at the beginning, every occurrence of a text, or breaks off
where a text occurs.
-/

namespace TemplateLint

/-- What a rule says of the ranges it finds.  With a replacement it also
proposes a correction, of the range itself unless other ends are given. -/
structure RuleReport where
  message : Text
  severity : Option Severity := none
  context : Json := .null
  replacement : Option Text := none
  correctionBegin : Option Int := none
  correctionEnd : Option Int := none

inductive Rule where
  | range (beginPos endPos : Int) (report : RuleReport)
  | beginning (text : Text) (report : RuleReport)
  | occurrences (text : Text) (report : RuleReport)
  | breakOff (text : Text) (kind : RaisedKind) (message : Text)

/-- Where a text occurs in another one, without overlaps, from left to right.
The first `skipped` characters belong to the occurrence before. -/
def occurrencesFrom (wanted : Text) (skipped position : Nat) : Text → List Nat
  | [] => []
  | c :: rest =>
      match skipped with
      | more + 1 => occurrencesFrom wanted more (position + 1) rest
      | 0 =>
          if wanted ≠ [] ∧ wanted.isPrefixOf (c :: rest) then
            position :: occurrencesFrom wanted (wanted.length - 1) (position + 1) rest
          else occurrencesFrom wanted 0 (position + 1) rest

/-- Whether a text occurs in another one; the empty text always does. -/
def contains (wanted content : Text) : Bool :=
  wanted.isEmpty || !(occurrencesFrom wanted 0 0 content).isEmpty

def RuleReport.finding (report : RuleReport) (beginPos endPos : Int) : Finding :=
  { beginPos, endPos
    message := report.message
    severity := report.severity
    context := report.context
    correction := report.replacement.map fun replacement =>
      ⟨report.correctionBegin.getD beginPos, report.correctionEnd.getD endPos,
        replacement⟩ }

def Rule.steps (content : Text) : Rule → List Step
  | .range beginPos endPos report => [.report (report.finding beginPos endPos)]
  | .beginning text report =>
      if text.isPrefixOf content then [.report (report.finding 0 text.length)]
      else []
  | .occurrences text report =>
      (occurrencesFrom text 0 0 content).map fun (position : Nat) =>
        .report (report.finding position (position + text.length))
  | .breakOff text kind message =>
      if contains text content then [.fail (.raised kind message)] else []

/-- The check that follows rules one after another. -/
def Rule.check (rules : List Rule) (_ : LinterConfig) (source : Source) :
    List Step :=
  rules.flatMap (·.steps source.content)

namespace LinterClass

/-- A class with the common options whose check follows rules. -/
def described (serial : Nat) (name : String) (correctable : Bool)
    (rules : List Rule) : LinterClass :=
  ⟨serial, name, .common, correctable, Rule.check rules⟩

/-- A class like another one under its own name, perhaps with its own
rules. -/
def extending (serial : Nat) (name : String) (base : LinterClass)
    (rules : Option (List Rule)) : LinterClass :=
  { base with
    serial, name
    check := match rules with
      | none => base.check
      | some own => Rule.check own }

end LinterClass

end TemplateLint
