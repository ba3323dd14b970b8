import TemplateLint.Proofs.Correction.LineByLine
import TemplateLint.Proofs.Linter.LineSpaces

/-!
# Trimmed lines

A pass of `TrailingWhitespace` alone removes the spaces and tabs at the end of
each line, where one carriage return that ends the line is set aside.  One pass
is enough unless it brings a carriage return to the end of a line.
-/

namespace TemplateLint.TrailingWhitespace

open Text Script

/-- The line without the spaces and tabs at its end.  One carriage return that
ends the line is set aside and put back. -/
def trimmed (line : Text) : Text :=
  if line.getLast? = some '\r' then
    dropLastRun isSpaceOrTab line.dropLast ++ ['\r']
  else dropLastRun isSpaceOrTab line

/-- The text with each of its lines trimmed. -/
def reference (text : Text) : Text := text.mapLines trimmed

/-- Carriage returns stand at the ends of lines alone. -/
def ReturnsEndLines (text : Text) : Prop :=
  ∀ front rest, text = front ++ '\r' :: rest → AtLineEnd rest

/-! ## Lines -/

/-- A line by what stands before the white space that trails it, that white
space, and the carriage return that is set aside, if there is one. -/
structure Parts (line front old closing : Text) : Prop where
  whole : line = front ++ old ++ closing
  body : withoutReturn line = front ++ old
  trims : trimmed line = front ++ closing
  blank : ∀ c ∈ old, isSpaceOrTab c = true
  longest : LastIs (isSpaceOrTab · = false) front
  ends : closing = [] ∨ closing = ['\r']

theorem exists_parts (line : Text) :
    ∃ front old closing, Parts line front old closing := by
  by_cases returns : line.getLast? = some '\r'
  · refine ⟨dropLastRun isSpaceOrTab line.dropLast, lastRun isSpaceOrTab line.dropLast,
      ['\r'], ?_, ?_, if_pos returns, fun _ => test_of_mem_lastRun,
      lastIs_dropLastRun _, .inr rfl⟩
    · rw [dropLastRun_append_lastRun, List.dropLast_append_getLast? _ returns]
    · rw [dropLastRun_append_lastRun, withoutReturn, if_pos returns]
  · refine ⟨dropLastRun isSpaceOrTab line, lastRun isSpaceOrTab line, [], ?_, ?_, ?_,
      fun _ => test_of_mem_lastRun, lastIs_dropLastRun _, .inl rfl⟩
    · rw [dropLastRun_append_lastRun, List.append_nil]
    · rw [dropLastRun_append_lastRun, withoutReturn, if_neg returns]
    · rw [trimmed, if_neg returns, List.append_nil]

section Parts

variable {line front old closing : Text} (parts : Parts line front old closing)

include parts

theorem Parts.trimmed_eq_iff : trimmed line = line ↔ old = [] := by
  rw [parts.trims, parts.whole, List.append_cancel_right_eq, List.self_eq_append_right]

theorem Parts.inLine_of_nil (untrailed : old = []) (position : Nat) :
    inLine position line = [] := by
  have trailing := lastRun_append parts.longest parts.blank
  rw [untrailed] at trailing
  simp only [inLine, parts.body, untrailed, trailing, List.isEmpty_nil, if_true]

theorem Parts.inLine_of_ne_nil (trails : old ≠ []) (position : Nat) :
    inLine position line =
      [.replacing (position + front.length)
        (position + front.length + old.length) message []] :=
  inLine_of_trailing parts.body (lastRun_append parts.longest parts.blank) trails

/-- What is left of a line has no newline if the line has none. -/
theorem Parts.single_trimmed (single : '\n' ∉ line) : '\n' ∉ trimmed line := by
  rw [parts.whole] at single
  rw [parts.trims]
  simp only [List.mem_append, not_or] at single ⊢
  exact ⟨single.1.1, single.2⟩

/-- A line whose carriage returns end it is trimmed once and for all. -/
theorem Parts.trimmed_trimmed
    (returns : ∀ ahead rest, line = ahead ++ '\r' :: rest → rest = []) :
    trimmed (trimmed line) = trimmed line := by
  by_cases untrailed : old = []
  · rw [parts.trimmed_eq_iff.mpr untrailed, parts.trimmed_eq_iff.mpr untrailed]
  · rw [parts.trims]
    rcases parts.ends with rfl | rfl
    · -- a carriage return in front of white space would not end the line
      have other : ¬front.getLast? = some '\r' := by
        intro last
        obtain ⟨ahead, rfl⟩ := List.getLast?_eq_some_iff.mp last
        apply untrailed
        apply returns ahead old
        rw [parts.whole]
        simp
      rw [List.append_nil, trimmed, if_neg other, dropLastRun_eq_self parts.longest]
    · have last : (front ++ ['\r']).getLast? = some '\r' := by simp
      rw [trimmed, if_pos last, List.dropLast_concat, dropLastRun_eq_self parts.longest]

end Parts

theorem inLine_eq_nil_iff (position : Nat) (line : Text) :
    inLine position line = [] ↔ trimmed line = line := by
  obtain ⟨front, old, closing, parts⟩ := exists_parts line
  rw [parts.trimmed_eq_iff]
  constructor
  · intro nothing
    by_contra trails
    rw [parts.inLine_of_ne_nil trails] at nothing
    contradiction
  · exact fun untrailed => parts.inLine_of_nil untrailed position

theorem changesLine_trimmed : ChangesLine inLine trimmed := by
  intro line
  obtain ⟨front, old, closing, parts⟩ := exists_parts line
  by_cases untrailed : old = []
  · refine ⟨keeping line, before_keeping line, ?_, fun position => ?_⟩
    · rw [after_keeping, parts.trimmed_eq_iff.mpr untrailed]
    · rw [made_only_keeping, parts.inLine_of_nil untrailed]
      rfl
  · refine ⟨keeping front ++ .swap old [] :: keeping closing, ?_, ?_,
      fun position => ?_⟩
    · simp [parts.whole]
    · simp [parts.trims]
    · rw [made_keeping, made, made_only_keeping, parts.inLine_of_ne_nil untrailed]
      rfl

/-! ## Texts -/

theorem mends_reference (text : Text) :
    Mends (findings text) text (reference text) := by
  apply changesLine_trimmed.mends
  intro finding found
  obtain ⟨front, old, rest, whole, trails, rfl⟩ := mem_findings_iff.mp found
  exact ⟨front, old, rest, message, [], whole, trails.inhabited, rfl⟩

theorem lines_reference (text : Text) :
    (reference text).lines = text.lines.map trimmed := by
  apply lines_mapLines
  intro line single
  obtain ⟨front, old, closing, parts⟩ := exists_parts line
  exact parts.single_trimmed single

/-- Nothing is found exactly in the texts that are their own reference. -/
theorem findings_eq_nil_iff {text : Text} :
    findings text = [] ↔ reference text = text := by
  rw [findings, overLines_eq_nil_iff inLine_eq_nil_iff]
  constructor
  · intro all
    rw [reference, mapLines, List.map_congr_left all, List.map_id', join_lines]
  · intro same line member
    have lines := lines_reference text
    rw [same] at lines
    exact List.map_inj_left.mp (lines.symm.trans (List.map_id' _).symm) line member

/-- In a text whose carriage returns end lines they end each of its lines. -/
theorem ReturnsEndLines.eq_nil {text : Text} (returns : ReturnsEndLines text) :
    ∀ line ∈ text.lines, ∀ ahead rest, line = ahead ++ '\r' :: rest → rest = [] := by
  induction text using lines_induction with
  | last only single =>
      rw [lines_of_not_mem single]
      intro line member ahead rest same
      rw [List.mem_singleton.mp member] at same
      apply (returns ahead rest same).eq_nil
      intro newline
      rw [same] at single
      simp [newline] at single
  | more only later single induction =>
      rw [lines_append later single, List.forall_mem_cons]
      constructor
      · rintro ahead rest rfl
        have ends := returns ahead (rest ++ '\n' :: later) (by simp)
        cases rest with
        | nil => rfl
        | cons c rest =>
            rw [List.cons_append, atLineEnd_cons] at ends
            simp [ends] at single
      · apply induction
        rintro front rest rfl
        exact returns (only ++ '\n' :: front) rest (by simp)

/-- A trimmed text is trimmed once and for all if its carriage returns end
lines. -/
theorem findings_reference {text : Text} (returns : ReturnsEndLines text) :
    findings (reference text) = [] := by
  rw [findings, overLines_eq_nil_iff inLine_eq_nil_iff, lines_reference,
    List.forall_mem_map]
  intro line member
  obtain ⟨front, old, closing, parts⟩ := exists_parts line
  exact parts.trimmed_trimmed (returns.eq_nil line member)

example : reference "a \r\nb \r \t\n" = "a\r\nb \r\n".toList := by decide

end TemplateLint.TrailingWhitespace
