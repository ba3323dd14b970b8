import TemplateLint.Proofs.Linter.Messages
import TemplateLint.Report.Format

/-!
# Reports in lines split back into offenses

Nothing is escaped in a report that is made of lines.  The lines of an offense
can be told apart all the same, because paths and messages stay on one line,
and numbers have no colon.
-/

namespace TemplateLint

/-! ## Splitting at some separators only -/

namespace Text

/-- The parts between the separators of a text, of which only the first `count`
are looked at; the last part keeps the others. -/
def partsWithin (separator : Char) : Nat → Text → List Text
  | 0, text => [text]
  | count + 1, text =>
      if separator ∈ text then
        text.takeWhile (· ≠ separator)
          :: partsWithin separator count (text.dropWhile (· ≠ separator)).tail
      else [text]

/-- The parts in front of the last separator and behind it. -/
def cutLast? (separator : Char) (text : Text) : Option (Text × Text) :=
  if separator ∈ text then
    some ((dropLastRun (· ≠ separator) text).dropLast,
      lastRun (· ≠ separator) text)
  else none

variable {separator : Char} {part : Text}

theorem passes_of_not_mem (outside : separator ∉ part) :
    ∀ c ∈ part, decide (c ≠ separator) = true := by
  intro c member
  apply decide_eq_true
  intro same
  exact outside (same ▸ member)

theorem partsWithin_append (outside : separator ∉ part) (count : Nat)
    (rest : Text) :
    partsWithin separator (count + 1) (part ++ separator :: rest) =
      part :: partsWithin separator count rest := by
  have passes := passes_of_not_mem outside
  have stops : FirstIs (fun c => decide (c ≠ separator) = false)
      (separator :: rest) := by
    simp
  rw [partsWithin, if_pos (by simp), takeWhile_append passes stops,
    dropWhile_append passes stops, List.tail_cons]

theorem cutLast?_append (outside : separator ∉ part) (front : Text) :
    cutLast? separator (front ++ separator :: part) = some (front, part) := by
  have passes := passes_of_not_mem outside
  have fails : LastIs (fun c => decide (c ≠ separator) = false)
      (front ++ [separator]) := by
    simp
  rw [cutLast?, if_pos (by simp), List.append_cons,
    dropLastRun_append fails passes, lastRun_append fails passes,
    List.dropLast_concat]

theorem not_mem_ofInt {c : Char} (sign : c ≠ '-') (digit : c.isDigit = false)
    (number : Int) : c ∉ ofInt number := by
  intro member
  rcases mem_ofInt member with isSign | isDigit
  · exact sign isSign
  · rw [digit] at isDigit
    contradiction

theorem newline_not_mem_ofInt (number : Int) : '\n' ∉ ofInt number :=
  not_mem_ofInt (by decide) (by decide) number

theorem colon_not_mem_ofInt (number : Int) : ':' ∉ ofInt number :=
  not_mem_ofInt (by decide) (by decide) number

end Text

namespace Report

open Text

/-! ## Decoding -/

/-- What one line of the compact report says. -/
structure CompactEntry where
  path : Text
  line : Int
  column : Int
  message : Text
  deriving DecidableEq

/-- Splits a line at its first three colons; a space precedes the message. -/
def compactOffense? (line : Text) : Option CompactEntry :=
  match partsWithin ':' 3 line with
  | [path, line, column, ' ' :: message] => do
      return ⟨path, ← integer? line, ← integer? column, message⟩
  | _ => none

/-- What the multiline report says of one offense. -/
structure MultilineEntry where
  message : Text
  path : Text
  line : Int
  deriving DecidableEq

/-- What stands in front of the path of an offense. -/
def placeLabel : Text := "In file: "

/-- Splits the line that has the place of an offense at its last colon. -/
def multilineOffense? (message place : Text) : Option MultilineEntry := do
  let (path, line) ← cutLast? ':' (← place.dropPrefix? placeLabel)
  return ⟨message, path, ← integer? line⟩

/-- Takes three lines for every offense, of which the first is empty, up to one
last empty line. -/
def multilineOffenses? : List Text → Option (List MultilineEntry)
  | [[]] => some []
  | [] :: message :: place :: later => do
      let entry ← multilineOffense? message place
      return entry :: (← multilineOffenses? later)
  | _ => none

/-! ## What there is to report -/

def compactEntry (style : ReportStyle) (located : String × Offense) :
    CompactEntry :=
  ⟨located.1.toList, located.2.range.line, located.2.range.column,
    style.message located.2⟩

def multilineEntryOf (style : ReportStyle) (located : String × Offense) :
    MultilineEntry :=
  ⟨style.message located.2, located.1.toList, located.2.range.line⟩

/-! ## Decoding what is reported -/

theorem compactOffense?_compactLine (style : ReportStyle) {path : String}
    (noColon : ':' ∉ path.toList) (offense : Offense) :
    compactOffense? (compactLine style (path, offense)) =
      some (compactEntry style (path, offense)) := by
  have parts : partsWithin ':' 3 (compactLine style (path, offense)) =
      [path.toList, ofInt offense.range.line, ofInt offense.range.column,
        ' ' :: style.message offense] := by
    simp only [compactLine, List.append_assoc, List.cons_append]
    rw [partsWithin_append noColon,
      partsWithin_append (colon_not_mem_ofInt _)]
    exact congrArg _ (congrArg _ (partsWithin_append (colon_not_mem_ofInt _) 0 _))
  simp only [compactOffense?, parts, integer?_ofInt]
  rfl

theorem multilineOffense?_place (message : Text) (path : String) (line : Int) :
    multilineOffense? message
        ("In file: ".toList ++ path.toList ++ ':' :: ofInt line) =
      some ⟨message, path.toList, line⟩ := by
  have labelled : ("In file: ".toList ++ path.toList ++ ':' :: ofInt line).dropPrefix?
      placeLabel = some (path.toList ++ ':' :: ofInt line) := by
    rw [List.append_assoc]
    exact List.dropPrefix?_append_of_beq _ rfl
  simp only [multilineOffense?, labelled, Option.bind_eq_bind, Option.bind_some,
    cutLast?_append (colon_not_mem_ofInt line), integer?_ofInt]
  rfl

theorem multilineOffenses?_flatMap (style : ReportStyle)
    (located : List (String × Offense)) :
    multilineOffenses? (located.flatMap (multilineEntry style) ++ [[]]) =
      some (located.map (multilineEntryOf style)) := by
  induction located with
  | nil => rfl
  | cons first located induction =>
      have entry := multilineOffense?_place (style.message first.2) first.1
        first.2.range.line
      have firstLines :
          (first :: located).flatMap (multilineEntry style) ++ [[]] =
            [] :: style.message first.2
              :: ("In file: ".toList ++ first.1.toList
                ++ ':' :: ofInt first.2.range.line)
              :: (located.flatMap (multilineEntry style) ++ [[]]) := by
        rw [List.flatMap_cons]
        rfl
      rw [firstLines, multilineOffenses?, entry, induction]
      rfl

/-! ## Texts of lines -/

theorem newline_not_mem_message (style : ReportStyle) {offense : Offense}
    (builtin : offense.IsBuiltin) : '\n' ∉ style.message offense := by
  obtain ⟨message, name⟩ := builtin.onOneLine
  rw [ReportStyle.message]
  split
  · simp only [List.mem_append, List.mem_cons, not_or]
    exact ⟨⟨⟨by decide, name⟩, by decide⟩, message⟩
  · exact message

theorem newline_not_mem_compactLine (style : ReportStyle) {path : String}
    {offense : Offense} (single : '\n' ∉ path.toList)
    (builtin : offense.IsBuiltin) :
    '\n' ∉ compactLine style (path, offense) := by
  simp only [compactLine, List.mem_append, List.mem_cons, not_or]
  exact ⟨⟨⟨⟨single, by decide, newline_not_mem_ofInt _⟩, by decide,
    newline_not_mem_ofInt _⟩, by decide⟩, newline_not_mem_message style builtin⟩

theorem newline_not_mem_multilineEntry (style : ReportStyle) {path : String}
    {offense : Offense} (single : '\n' ∉ path.toList)
    (builtin : offense.IsBuiltin) :
    ∀ line ∈ multilineEntry style (path, offense), '\n' ∉ line := by
  intro line member
  simp only [multilineEntry, List.mem_cons, List.not_mem_nil, or_false] at member
  rcases member with rfl | rfl | rfl
  · exact List.not_mem_nil
  · exact newline_not_mem_message style builtin
  · simp only [List.mem_append, List.mem_cons, not_or]
    exact ⟨⟨by decide, single⟩, by decide, newline_not_mem_ofInt _⟩

/-- Paths and offenses that can be shown line by line. -/
def AreOnLines (located : List (String × Offense)) : Prop :=
  ∀ item ∈ located, '\n' ∉ item.1.toList ∧ item.2.IsBuiltin

theorem lines_compact (style : ReportStyle) {stats : Stats}
    (onLines : AreOnLines stats.located) (some_located : stats.located ≠ []) :
    lines (compact style stats) = stats.located.map (compactLine style) := by
  apply lines_join
  · intro line member
    obtain ⟨item, isLocated, rfl⟩ := List.mem_map.mp member
    obtain ⟨single, builtin⟩ := onLines item isLocated
    exact newline_not_mem_compactLine style single builtin
  · simpa using some_located

theorem lines_multiline (style : ReportStyle) {stats : Stats}
    (onLines : AreOnLines stats.located) (some_located : stats.located ≠ []) :
    lines (multiline style stats) =
      stats.located.flatMap (multilineEntry style) ++ [[]] := by
  have some_line : stats.located.flatMap (multilineEntry style) ≠ [] := by
    obtain ⟨first, later, located⟩ := List.exists_cons_of_ne_nil some_located
    rw [located, List.flatMap_cons, multilineEntry]
    exact List.cons_ne_nil _ _
  have text : multiline style stats =
      join ['\n'] (stats.located.flatMap (multilineEntry style) ++ [[]]) := by
    simp only [multiline, List.isEmpty_iff, if_neg some_line]
  rw [text]
  apply lines_join
  · intro line member
    rcases List.mem_append.mp member with inEntry | last
    · obtain ⟨item, isLocated, inLines⟩ := List.mem_flatMap.mp inEntry
      obtain ⟨single, builtin⟩ := onLines item isLocated
      exact newline_not_mem_multilineEntry style single builtin line inLines
    · rw [List.mem_singleton.mp last]
      exact List.not_mem_nil
  · simp

theorem length_located (stats : Stats) :
    stats.located.length = stats.totalOffenses := by
  rw [Stats.located, Stats.totalOffenses, Stats.offenses, List.length_flatMap,
    List.length_flatMap]
  simp

theorem located_eq_nil_iff (stats : Stats) :
    stats.located = [] ↔ stats.totalOffenses = 0 := by
  rw [← length_located, List.length_eq_zero_iff]

theorem length_flatMap_multilineEntry (style : ReportStyle)
    (located : List (String × Offense)) :
    (located.flatMap (multilineEntry style)).length = 3 * located.length := by
  induction located with
  | nil => rfl
  | cons first located induction =>
      rw [List.flatMap_cons, List.length_append, induction, List.length_cons]
      change 3 + 3 * located.length = 3 * (located.length + 1)
      omega

theorem map_located {Result : Type} (entry : String × Offense → Result)
    (stats : Stats) :
    stats.located.map entry =
      stats.processedFiles.flatMap fun file =>
        file.2.map fun offense => entry (file.1, offense) := by
  rw [Stats.located, List.map_flatMap]
  simp only [List.map_map]
  rfl

/-- If paths have no newline and the offenses are of built-in linters, the
reports in lines split back into what they were made of, with or without the
names of linters.  The compact report has one line for each offense, which
splits at its first three colons if paths have no colon either; the multiline
report has three lines for each offense and an empty one at its end; and both
are empty if there is no offense.  Offenses come in the order of the files and
of each file. -/
theorem lines_split_back (style : ReportStyle) (stats : Stats)
    (single : ∀ file ∈ stats.processedFiles, '\n' ∉ file.1.toList)
    (builtin : ∀ file ∈ stats.processedFiles, ∀ offense ∈ file.2,
      offense.IsBuiltin) :
    (stats.totalOffenses = 0 →
      ReportFormat.compact.render style stats = [] ∧
      ReportFormat.multiline.render style stats = []) ∧
    (stats.totalOffenses ≠ 0 →
      (lines (ReportFormat.compact.render style stats)).length =
        stats.totalOffenses ∧
      (lines (ReportFormat.multiline.render style stats)).length =
        3 * stats.totalOffenses + 1 ∧
      ((∀ file ∈ stats.processedFiles, ':' ∉ file.1.toList) →
        (lines (ReportFormat.compact.render style stats)).map compactOffense? =
          stats.processedFiles.flatMap fun file => file.2.map fun offense =>
            some ⟨file.1.toList, offense.range.line, offense.range.column,
              style.message offense⟩) ∧
      multilineOffenses? (lines (ReportFormat.multiline.render style stats)) =
        some (stats.processedFiles.flatMap fun file =>
          file.2.map fun offense =>
            ⟨style.message offense, file.1.toList, offense.range.line⟩)) := by
  have onLines : AreOnLines stats.located := by
    intro item isLocated
    obtain ⟨file, processed, inFile⟩ := List.mem_flatMap.mp isLocated
    obtain ⟨offense, member, rfl⟩ := List.mem_map.mp inFile
    exact ⟨single file processed, builtin file processed offense member⟩
  constructor
  · intro none_found
    have nothing := (located_eq_nil_iff stats).mpr none_found
    constructor
    · rw [ReportFormat.render, compact, nothing]
      rfl
    · rw [ReportFormat.render, multiline, nothing]
      rfl
  · intro some_found
    have some_located : stats.located ≠ [] :=
      fun nothing => some_found ((located_eq_nil_iff stats).mp nothing)
    have compactLines :
        lines (ReportFormat.compact.render style stats) = _ :=
      lines_compact style onLines some_located
    have multilineLines :
        lines (ReportFormat.multiline.render style stats) = _ :=
      lines_multiline style onLines some_located
    rw [compactLines, multilineLines]
    refine ⟨?_, ?_, ?_, ?_⟩
    · rw [List.length_map, length_located]
    · rw [List.length_append, length_flatMap_multilineEntry, length_located]
      rfl
    · intro noColon
      refine Eq.trans ?_ (map_located (some ∘ compactEntry style) stats)
      rw [List.map_map]
      apply List.map_congr_left
      intro item isLocated
      obtain ⟨file, processed, inFile⟩ := List.mem_flatMap.mp isLocated
      obtain ⟨offense, _, rfl⟩ := List.mem_map.mp inFile
      exact compactOffense?_compactLine style (noColon file processed) offense
    · rw [multilineOffenses?_flatMap, map_located]
      rfl

/-- A tag without a space behind its indicator, shown with the name of the
linter. -/
theorem lines_split_back_around_tag :
    let offenses := ((Linter.fresh .spaceAroundErbTag ⟨true, [], .none⟩ "/").run
      ⟨"a.html.erb", "\n<%=x %>"⟩).1.offenses
    let stats : Stats := { processedFiles := [("a.html.erb", offenses)] }
    let style : ReportStyle := ⟨false, true, ⟨"", "", "", ""⟩⟩
    let message : Text :=
      "[SpaceAroundErbTag] Use 1 space after `<%=` instead of 0 space."
    (∀ file ∈ stats.processedFiles, '\n' ∉ file.1.toList) ∧
    (∀ file ∈ stats.processedFiles, ∀ offense ∈ file.2, offense.IsBuiltin) ∧
    stats.totalOffenses = 1 ∧
    (lines (ReportFormat.compact.render style stats)).map compactOffense? =
      [some ⟨"a.html.erb", 2, 3, message⟩] ∧
    multilineOffenses? (lines (ReportFormat.multiline.render style stats)) =
      some [⟨message, "a.html.erb", 2⟩] := by
  intro offenses stats style message
  have single : ∀ file ∈ stats.processedFiles, '\n' ∉ file.1.toList := by
    decide
  have builtin : ∀ file ∈ stats.processedFiles, ∀ offense ∈ file.2,
      offense.IsBuiltin := by
    intro file processed offense member
    rw [List.mem_singleton.mp processed] at member
    exact ⟨.spaceAroundErbTag, by simp [LinterClass.builtin], _, _, _, member⟩
  have total : stats.totalOffenses = 1 := by
    decide +kernel
  obtain ⟨-, splits⟩ := lines_split_back style stats single builtin
  obtain ⟨-, -, compactParts, multilineParts⟩ :=
    splits (by rw [total]; exact Nat.one_ne_zero)
  refine ⟨single, builtin, total, ?_, ?_⟩
  · rw [compactParts (by decide)]
    decide +kernel
  · rw [multilineParts]
    decide +kernel

end Report

end TemplateLint
