import TemplateLint.Proofs.Text.Lines

/-!
# What the checks of lines find

Trailing white space is the longest run of spaces and tabs before the end of a
line, where one carriage return belongs to the end.  A tabbed indent is the
longest run of spaces and tabs at the start of a line, if it has a tab.
-/

namespace TemplateLint

open Text

/-- A position before the end of a line or before one carriage return that
ends it. -/
def Text.ClosesLine (rest : Text) : Prop :=
  AtLineEnd rest ∨ ∃ later, rest = '\r' :: later ∧ AtLineEnd later

/-- The last line of a text, which may be empty. -/
theorem Text.exists_lastLine (text : Text) :
    ∃ front line, text = front ++ line ∧ AtLineStart front ∧ '\n' ∉ line := by
  refine ⟨dropLastRun (· ≠ '\n') text, lastRun (· ≠ '\n') text,
    (dropLastRun_append_lastRun text).symm, ?_, ?_⟩
  · intro c last
    have fails := lastIs_dropLastRun text c last
    simpa using fails
  · intro member
    have passes := test_of_mem_lastRun member
    simp at passes

theorem not_newline_of_isSpaceOrTab {c : Char} (blank : isSpaceOrTab c = true) :
    c ≠ '\n' := by
  rintro rfl
  simp [isSpaceOrTab] at blank

theorem not_return_of_isSpaceOrTab {c : Char} (blank : isSpaceOrTab c = true) :
    c ≠ '\r' := by
  rintro rfl
  simp [isSpaceOrTab] at blank

namespace TrailingWhitespace

/-- Spaces and tabs between two parts of a text trail a line. -/
structure Trails (front old rest : Text) : Prop where
  inhabited : old ≠ []
  blank : ∀ c ∈ old, isSpaceOrTab c = true
  longest : LastIs (isSpaceOrTab · = false) front
  closes : ClosesLine rest

def message : Text := "Extra whitespace detected at end of line."

theorem exists_return (line : Text) :
    ∃ rest, line = withoutReturn line ++ rest ∧ (rest = [] ∨ rest = ['\r']) := by
  obtain rfl | ⟨front, c, rfl⟩ := line.eq_nil_or_concat'
  · exact ⟨[], by simp [withoutReturn], .inl rfl⟩
  · by_cases returns : c = '\r'
    · subst returns
      exact ⟨['\r'], by simp [withoutReturn], .inr rfl⟩
    · exact ⟨[], by simp [withoutReturn, returns], .inl rfl⟩

theorem withoutReturn_append {front old rest : Text} (some_old : old ≠ [])
    (blank : ∀ c ∈ old, isSpaceOrTab c = true)
    (ends : rest = [] ∨ rest = ['\r']) :
    withoutReturn (front ++ old ++ rest) = front ++ old := by
  rcases ends with rfl | rfl
  · obtain rfl | ⟨old, c, rfl⟩ := old.eq_nil_or_concat'
    · exact absurd rfl some_old
    · have differs : c ≠ '\r' := not_return_of_isSpaceOrTab (blank c (by simp))
      rw [List.append_nil, ← List.append_assoc]
      simp [withoutReturn, differs]
  · simp [withoutReturn]

theorem inLine_of_trailing {position : Nat} {line front old : Text}
    (body : withoutReturn line = front ++ old)
    (trailing : lastRun isSpaceOrTab (front ++ old) = old) (some_old : old ≠ []) :
    inLine position line =
      [.replacing (position + front.length)
        (position + front.length + old.length) message []] := by
  have found : ¬old.isEmpty = true := by simpa using some_old
  simp only [inLine, body, trailing, if_neg found]
  rw [List.length_append, Nat.add_sub_cancel, Nat.add_assoc]
  rfl

theorem mem_inLine_iff {position : Nat} {line : Text} {finding : Finding} :
    finding ∈ inLine position line ↔
      ∃ front old rest, line = front ++ old ++ rest ∧ old ≠ [] ∧
        (∀ c ∈ old, isSpaceOrTab c = true) ∧
        LastIs (isSpaceOrTab · = false) front ∧
        (rest = [] ∨ rest = ['\r']) ∧
        finding = .replacing (position + front.length)
          (position + front.length + old.length) message [] := by
  constructor
  · intro member
    obtain ⟨rest, lineEq, ends⟩ := exists_return line
    have parts := @dropLastRun_append_lastRun isSpaceOrTab (withoutReturn line)
    generalize blank : lastRun isSpaceOrTab (withoutReturn line) = old at parts
    by_cases some_old : old = []
    · simp [inLine, blank, some_old] at member
    · have trailing := blank
      rw [← parts] at trailing
      rw [inLine_of_trailing parts.symm trailing some_old,
        List.mem_singleton] at member
      refine ⟨_, old, rest, by rw [parts, ← lineEq], some_old, ?_,
        lastIs_dropLastRun _, ends, member⟩
      rw [← blank]
      exact fun c => test_of_mem_lastRun
  · rintro ⟨front, old, rest, rfl, some_old, blank, longest, ends, rfl⟩
    rw [inLine_of_trailing (withoutReturn_append some_old blank ends)
      (lastRun_append longest blank) some_old]
    exact List.mem_singleton.mpr rfl

/-- The findings are the trailing white space of the text. -/
theorem mem_findings_iff {text : Text} {finding : Finding} :
    finding ∈ findings text ↔
      ∃ front old rest, text = front ++ old ++ rest ∧ Trails front old rest ∧
        finding = .replacing front.length (front.length + old.length)
          message [] := by
  rw [findings, mem_overLines_iff]
  constructor
  · rintro ⟨front, line, rest, rfl, -, starts, ends, member⟩
    obtain ⟨inner, old, closing, rfl, some_old, blank, longest, shape, rfl⟩ :=
      mem_inLine_iff.mp member
    refine ⟨front ++ inner, old, closing ++ rest, by simp,
      ⟨some_old, blank, ?_, ?_⟩, by simp⟩
    · obtain rfl | ⟨inner, c, rfl⟩ := inner.eq_nil_or_concat'
      · rw [List.append_nil]
        intro c last
        rw [starts c last]
        rfl
      · rwa [lastIs_append_of_ne_nil (by simp)]
    · rcases shape with rfl | rfl
      · exact .inl ends
      · exact .inr ⟨rest, rfl, ends⟩
  · rintro ⟨front, old, rest, rfl, trails, rfl⟩
    obtain ⟨first, inner, rfl, starts, single⟩ := exists_lastLine front
    obtain ⟨closing, later, rfl, shape, ends⟩ : ∃ closing later,
        rest = closing ++ later ∧ (closing = [] ∨ closing = ['\r']) ∧
          AtLineEnd later := by
      rcases trails.closes with ends | ⟨later, rfl, ends⟩
      · exact ⟨[], rest, rfl, .inl rfl, ends⟩
      · exact ⟨['\r'], later, rfl, .inr rfl, ends⟩
    refine ⟨first, inner ++ old ++ closing, later, by simp, ?_, starts, ends, ?_⟩
    · have oldSingle : '\n' ∉ old := fun member =>
        not_newline_of_isSpaceOrTab (trails.blank _ member) rfl
      rcases shape with rfl | rfl <;> simp [single, oldSingle]
    · apply mem_inLine_iff.mpr
      refine ⟨inner, old, closing, rfl, trails.inhabited, trails.blank, ?_,
        shape, by simp⟩
      obtain rfl | ⟨inner, c, rfl⟩ := inner.eq_nil_or_concat'
      · exact lastIs_nil
      · exact (lastIs_append_of_ne_nil (by simp)).mp trails.longest

end TrailingWhitespace

namespace SpaceIndentation

/-- Spaces and tabs between two parts of a text indent a line, and there is a
tab among them. -/
structure Indents (front old rest : Text) : Prop where
  starts : AtLineStart front
  blank : ∀ c ∈ old, isSpaceOrTab c = true
  tabbed : '\t' ∈ old
  longest : FirstIs (isSpaceOrTab · = false) rest

def message : Text := "Indent with spaces instead of tabs."

theorem tabbedIndent?_eq_some_iff {line indent : Text} :
    tabbedIndent? line = some indent ↔
      ∃ rest, line = indent ++ rest ∧
        (∀ c ∈ indent, isSpaceOrTab c = true) ∧ '\t' ∈ indent ∧
        FirstIs (isSpaceOrTab · = false) rest := by
  constructor
  · intro found
    simp only [tabbedIndent?] at found
    split at found
    · rename_i tabbed
      cases found
      exact ⟨line.dropWhile isSpaceOrTab, List.takeWhile_append_dropWhile.symm,
        fun c => List.mem_takeWhile_imp, tabbed, firstIs_dropWhile line⟩
    · contradiction
  · rintro ⟨rest, rfl, blank, tabbed, longest⟩
    simp [tabbedIndent?, takeWhile_append blank longest, tabbed]

theorem mem_indents_iff {text indent : Text} {position : Nat} :
    (position, indent) ∈ indents text ↔
      ∃ front rest, text = front ++ indent ++ rest ∧
        Indents front indent rest ∧ position = front.length := by
  rw [indents, mem_overLines_iff]
  simp only [List.mem_map, Option.mem_toList, Prod.mk.injEq]
  constructor
  · rintro ⟨front, line, rest, rfl, single, starts, ends, own, found, rfl, rfl⟩
    obtain ⟨inner, rfl, blank, tabbed, longest⟩ :=
      tabbedIndent?_eq_some_iff.mp found
    refine ⟨front, inner ++ rest, by simp, ⟨starts, blank, tabbed, ?_⟩, by simp⟩
    cases inner with
    | nil =>
        intro c first
        rw [ends c first]
        rfl
    | cons c inner => simpa using longest
  · rintro ⟨front, rest, rfl, indents, rfl⟩
    by_cases newline : '\n' ∈ rest
    · obtain ⟨line, later, rfl, single⟩ := List.eq_append_cons_of_mem newline
      refine ⟨front, indent ++ line, '\n' :: later, by simp, ?_, indents.starts,
        by simp, indent, ?_, by simp, rfl⟩
      · have indentSingle : '\n' ∉ indent := fun member =>
          not_newline_of_isSpaceOrTab (indents.blank _ member) rfl
        simp [indentSingle, single]
      · apply tabbedIndent?_eq_some_iff.mpr
        refine ⟨line, rfl, indents.blank, indents.tabbed, ?_⟩
        have longest := indents.longest
        cases line with
        | nil => exact firstIs_nil
        | cons c line => simpa using longest
    · refine ⟨front, indent ++ rest, [], by simp, ?_, indents.starts, by simp,
        indent, ?_, by simp, rfl⟩
      · have indentSingle : '\n' ∉ indent := fun member =>
          not_newline_of_isSpaceOrTab (indents.blank _ member) rfl
        simp [indentSingle, newline]
      · exact tabbedIndent?_eq_some_iff.mpr
          ⟨rest, rfl, indents.blank, indents.tabbed, indents.longest⟩

/-- The findings are the tabbed indents of the text. -/
theorem mem_findings_iff {width : Nat} {text : Text} {finding : Finding} :
    finding ∈ findings width text ↔
      ∃ front old rest, text = front ++ old ++ rest ∧ Indents front old rest ∧
        finding = .replacing front.length (front.length + old.length) message
          (expandTabs width 0 old) := by
  simp only [findings, List.mem_map, Prod.exists, mem_indents_iff]
  constructor
  · rintro ⟨position, old, ⟨front, rest, textEq, indents, rfl⟩, rfl⟩
    exact ⟨front, old, rest, textEq, indents, rfl⟩
  · rintro ⟨front, old, rest, textEq, indents, rfl⟩
    exact ⟨front.length, old, ⟨front, rest, textEq, indents, rfl⟩, rfl⟩

end SpaceIndentation

end TemplateLint
