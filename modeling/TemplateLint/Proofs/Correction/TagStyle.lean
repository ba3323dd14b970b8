import TemplateLint.Proofs.Correction.Tags

/-!
# Tag style after a pass

The white space in front of a closing delimiter and the trim mark in it may
both be wrong.  When there is no white space, a pass corrects one of the two and
leaves the other one for the next pass; anything else about the style of tags is
right after one pass.
-/

namespace TemplateLint

open Text Script

/-- The white space that ends the code of a tag and its trim mark are both to be
changed. -/
structure Conflicts (fixers : Fixers) (text : Text) : Prop where
  spaces : fixers.spaceAroundErbTag = true
  conflict : ∃ tag, SpaceAroundErbTag.Checked text tag ∧
    SpaceAroundErbTag.isAccepted (lastRun Character.isBlank tag.code) = false ∧
    ∃ style mark, fixers.rightTrim = some style ∧ tag.trim = some mark ∧
      mark ≠ style

/-- The first character of code that is not white space. -/
theorem Text.exists_first_solid {code : Text}
    (some_code : code.all Character.isBlank = false) :
    ∃ c rest, code = code.takeWhile Character.isBlank ++ c :: rest ∧
      Character.isBlank c = false := by
  have parts := @List.takeWhile_append_dropWhile _ Character.isBlank code
  cases inner : code.dropWhile Character.isBlank with
  | nil =>
      obtain ⟨c, member, other⟩ := SpaceAroundErbTag.exists_not_blank some_code
      rw [inner, List.append_nil] at parts
      rw [← parts] at member
      rw [List.mem_takeWhile_imp member] at other
      contradiction
  | cons c rest =>
      have first := @firstIs_dropWhile Character.isBlank code
      rw [inner, firstIs_cons] at first
      rw [inner] at parts
      exact ⟨c, rest, parts.symm, first⟩

/-- The last character of code that is not white space. -/
theorem Text.exists_last_solid {code : Text}
    (some_code : code.all Character.isBlank = false) :
    ∃ front c, code = front ++ c :: lastRun Character.isBlank code ∧
      Character.isBlank c = false := by
  have parts := @dropLastRun_append_lastRun Character.isBlank code
  obtain inner | ⟨front, c, inner⟩ :=
    (dropLastRun Character.isBlank code).eq_nil_or_concat'
  · obtain ⟨c, member, other⟩ := SpaceAroundErbTag.exists_not_blank some_code
    rw [inner, List.nil_append] at parts
    rw [← parts] at member
    rw [test_of_mem_lastRun member] at other
    contradiction
  · have last := @lastIs_dropLastRun Character.isBlank code
    rw [inner, lastIs_concat] at last
    rw [inner, List.append_assoc] at parts
    exact ⟨front, c, parts.symm, last⟩

namespace Pass

variable {fixers : Fixers} {script : List Piece}

namespace Carries

variable {tag tag' : Tag} {earlier code mark later : List Piece}

/-- The tag before the pass is looked at if the tag after it is. -/
theorem checked_before (carries : Carries script tag earlier code mark later)
    (indicator : tag'.indicator = tag.indicator)
    (checked : SpaceAroundErbTag.Checked (after script) tag') {c : Char}
    (member : c ∈ tag.code) (solid : Character.isBlank c = false) :
    SpaceAroundErbTag.Checked (before script) tag := by
  refine ⟨Tag.mem_tags_iff.mpr ⟨carries.member, ?_⟩, ?_, ?_⟩
  · rw [← indicator]
    exact (Tag.mem_tags_iff.mp checked.member).2
  · rw [← indicator]
    exact checked.effective
  · simp only [List.all_eq_false, Bool.not_eq_true]
    exact ⟨c, member, solid⟩

theorem codeEnd_eq (carries : Carries script tag earlier code mark later) :
    tag.codeEnd = (before (earlier ++ keeping tag.opening ++ code)).length := by
  rw [before_append, List.length_append, carries.code, before_append,
    before_keeping, List.length_append, ← carries.begins, ← Tag.codeBegin_eq]
  rfl

/-- The white space that leads code stands between the opening delimiter and
the first other character. -/
theorem gap_at_start {first last : List Piece} {c : Char} (pass : Pass fixers script)
    (carries : Carries script tag earlier (first ++ .keep c :: last) mark later)
    (solid : Character.isBlank c = false)
    (blank : ∀ d ∈ after first, Character.isBlank d = true) :
    Gap script (earlier ++ keeping tag.opening) first
      (.keep c :: (last ++ (mark ++ (keeping ['%', '>'] ++ later)))) := by
  have split : script = (earlier ++ keeping tag.opening) ++ (first ++
      (.keep c :: (last ++ (mark ++ (keeping ['%', '>'] ++ later))))) := by
    rw [carries.codeSplit]
    simp
  refine ⟨split, Carries.behind_opening earlier tag, ?_, startsSolid_cons.mpr solid⟩
  rwa [← pass.blank_after_iff split]

/-- The white space that ends code stands between the last other character and
the trim mark or closing delimiter. -/
theorem gap_at_end {first last : List Piece} {c : Char} (pass : Pass fixers script)
    (carries : Carries script tag earlier (first ++ .keep c :: last) mark later)
    (solid : Character.isBlank c = false)
    (blank : ∀ d ∈ after last, Character.isBlank d = true) :
    Gap script (earlier ++ keeping tag.opening ++ first ++ [.keep c]) last
      (mark ++ (keeping ['%', '>'] ++ later)) := by
  have split : script = (earlier ++ keeping tag.opening ++ first ++ [.keep c]) ++
      (last ++ (mark ++ (keeping ['%', '>'] ++ later))) := by
    rw [carries.codeSplit]
    simp
  refine ⟨split, ?_, ?_, ?_⟩
  · rw [before_append, before_keep, before_nil, endsSolid_concat]
    exact solid
  · rwa [← pass.blank_after_iff split]
  · rw [before_append, carries.before_mark, before_append, before_keeping]
    obtain ⟨d, rest, closingEq, closingSolid⟩ := Tag.exists_closing tag.trim
    refine ⟨d, rest ++ before later, ?_, closingSolid⟩
    rw [← List.append_assoc, ← Tag.closing, closingEq, List.cons_append]

/-- What is put in directly in front of the trim mark is the white space that
ends the code. -/
theorem conflicts_of_insertion {ahead rest : List Piece} {new : Text}
    (pass : Pass fixers script)
    (carries : Carries script tag earlier code mark later)
    (split : script = (earlier ++ keeping tag.opening ++ code) ++ rest)
    (same : earlier ++ keeping tag.opening ++ code = ahead ++ [.swap [] new])
    (some_rest : before rest ≠ [])
    (marked : ∃ style mark, fixers.rightTrim = some style ∧ tag.trim = some mark ∧
      mark ≠ style) : Conflicts fixers (before script) := by
  rw [same, List.append_assoc, List.singleton_append] at split
  have whole : before script = before ahead ++ [] ++ before rest := by
    rw [split]
    simp
  have place : (before ahead).length = tag.codeEnd := by
    rw [carries.codeEnd_eq, same]
    simp
  have change := pass.changes split
  generalize before rest = behind at *
  cases change with
  | trailing _ trails => exact absurd rfl trails.inhabited
  | indent _ _ indents => exact absurd rfl indents.inhabited
  | extra _ exceeds => exact absurd rfl exceeds.inhabited
  | missing _ _ => exact absurd rfl some_rest
  | unwanted _ _ unwanted => exact absurd rfl unwanted.inhabited
  | mark _ _ _ mismarks =>
      obtain ⟨own, -, -, nothing⟩ := mismarks.mark
      contradiction
  | space tag' active misplaced =>
      have same_of_place : tag' ∈ Tag.scan (before script) →
          tag'.codeBegin ≤ (before ahead).length →
          (before ahead).length ≤ tag'.codeEnd → tag = tag' := by
        intro member' begins ends
        have first := tag.beginPos_lt_codeBegin
        have middle := tag.codeBegin_le_codeEnd
        have last := tag.codeEnd_lt_endPos
        have first' := tag'.beginPos_lt_codeBegin
        have last' := tag'.codeEnd_lt_endPos
        exact @Tag.eq_of_inside _ _ _ (before ahead).length carries.member member'
          (by omega) (by omega) (by omega) (by omega)
      have ordered := tag'.codeBegin_le_codeEnd
      rcases misplaced with leads | ends
      · have checked := leads.checked
        rw [← whole] at checked
        have begins := leads.begins
        obtain rfl := same_of_place (Tag.mem_tags_iff.mp checked.member).1
          (by omega) (by omega)
        have noCode : tag.code = [] := by
          rw [← List.length_eq_zero_iff]
          rw [begins, Tag.codeEnd] at place
          omega
        have some_code := checked.code
        rw [noCode] at some_code
        contradiction
      · have checked := ends.checked
        rw [← whole] at checked
        have reach := ends.ends
        rw [List.length_nil, Nat.add_zero] at reach
        obtain rfl := same_of_place (Tag.mem_tags_iff.mp checked.member).1
          (by omega) (by omega)
        refine ⟨active, tag, checked, ?_, marked⟩
        rw [← ends.spaces]
        exact ends.unaccepted

end Carries

/-- White space that leads code is right after a pass. -/
theorem accepted_at_start {tag' : Tag} (pass : Pass fixers script)
    (active : fixers.spaceAroundErbTag = true)
    (checked : SpaceAroundErbTag.Checked (after script) tag') :
    SpaceAroundErbTag.isAccepted (tag'.code.takeWhile Character.isBlank) = true := by
  by_contra rejected
  rw [Bool.not_eq_true] at rejected
  have member := (Tag.mem_tags_iff.mp checked.member).1
  cases pass.origin_of_mem_scan member with
  | bare noCode _ =>
      have some_code := checked.code
      rw [noCode] at some_code
      contradiction
  | @carried tag earlier code mark later carries indicator codeEq markEq =>
      obtain ⟨c, rest, parts, solid⟩ := exists_first_solid checked.code
      rw [codeEq] at parts rejected
      obtain ⟨first, last, rfl, firstEq, -⟩ := carries.kept_of_solid pass parts solid
      have gap := carries.gap_at_start pass solid (by
        rw [firstEq]
        exact fun d => List.mem_takeWhile_imp)
      rw [← firstEq] at rejected
      have keeps := gap.keeping_of_unaccepted pass rejected
      have kept : after first = before first := by
        rw [keeps, after_keeping, before_keeping]
      rw [kept] at rejected
      have tagCode : tag.code = before first ++ c :: before last := by
        rw [← carries.code]
        simp
      have whole : before script = before (earlier ++ keeping tag.opening) ++
          before first ++
          before (.keep c :: (last ++ (mark ++ (keeping ['%', '>'] ++ later)))) := by
        rw [gap.split]
        simp
      have leads : SpaceAroundErbTag.Leads tag
          (before (earlier ++ keeping tag.opening)) (before first)
          (before (.keep c :: (last ++ (mark ++ (keeping ['%', '>'] ++ later))))) := by
        refine ⟨?_, ?_, ?_, rejected⟩
        · rw [← whole]
          exact carries.checked_before indicator checked (by simp [tagCode]) solid
        · rw [before_append, before_keeping, List.length_append, ← carries.begins,
            ← Tag.codeBegin_eq]
        · rw [tagCode, takeWhile_append gap.blank (firstIs_cons.mpr solid)]
      obtain ⟨front, d, openingEq, -⟩ := tag.exists_opening
      have change : Change fixers (before (earlier ++ keeping front) ++ [d])
          (before first) [' ']
          (before (.keep c :: (last ++ (mark ++ (keeping ['%', '>'] ++ later))))) := by
        have space := Change.space tag active (.inl leads)
        rwa [before_append, before_keeping, openingEq, ← List.append_assoc,
          ← before_keeping front, ← before_append] at space
      have split : script = (earlier ++ keeping front) ++
          (keeping (d :: before first) ++
            .keep c :: (last ++ (mark ++ (keeping ['%', '>'] ++ later)))) := by
        rw [gap.split, openingEq, keeps, before_keeping]
        simp [keeping]
      obtain ⟨-, old, new, rest, same⟩ := pass.exists_swap_of_keeping split change
      simp at same

/-- White space that ends code and is wrong after a pass was so before, and the
trim mark behind it, too. -/
theorem conflicts_of_unaccepted {tag' : Tag} (pass : Pass fixers script)
    (active : fixers.spaceAroundErbTag = true)
    (checked : SpaceAroundErbTag.Checked (after script) tag')
    (rejected : SpaceAroundErbTag.isAccepted
      (lastRun Character.isBlank tag'.code) = false) :
    Conflicts fixers (before script) ∧ tag'.trim = fixers.rightTrim := by
  have member := (Tag.mem_tags_iff.mp checked.member).1
  cases pass.origin_of_mem_scan member with
  | bare noCode _ =>
      have some_code := checked.code
      rw [noCode] at some_code
      contradiction
  | @carried tag earlier code mark later carries indicator codeEq markEq =>
      obtain ⟨front, c, parts, solid⟩ := exists_last_solid checked.code
      rw [codeEq] at parts rejected
      obtain ⟨first, last, rfl, -, lastEq⟩ := carries.kept_of_solid pass parts solid
      have gap := carries.gap_at_end pass solid (by
        rw [lastEq]
        exact fun d => test_of_mem_lastRun)
      rw [← lastEq] at rejected
      have keeps := gap.keeping_of_unaccepted pass rejected
      have kept : after last = before last := by
        rw [keeps, after_keeping, before_keeping]
      rw [kept] at rejected
      have tagCode : tag.code = (before first ++ [c]) ++ before last := by
        rw [← carries.code]
        simp
      have spaces : before last = lastRun Character.isBlank tag.code := by
        rw [tagCode, lastRun_append (lastIs_concat.mpr solid) gap.blank]
      have whole : before script =
          before (earlier ++ keeping tag.opening ++ first ++ [.keep c]) ++
            before last ++ before (mark ++ (keeping ['%', '>'] ++ later)) := by
        rw [gap.split]
        simp
      have checkedBefore :=
        carries.checked_before indicator checked (by simp [tagCode]) solid
      have ends : SpaceAroundErbTag.Ends tag
          (before (earlier ++ keeping tag.opening ++ first ++ [.keep c]))
          (before last) (before (mark ++ (keeping ['%', '>'] ++ later))) := by
        refine ⟨?_, ?_, spaces, rejected⟩
        · rw [← whole]
          exact checkedBefore
        · rw [Tag.codeEnd, tagCode, Tag.codeBegin_eq, carries.begins]
          simp only [before_append, before_keeping, before_keep, before_nil,
            List.length_append, List.length_singleton]
          omega
      have change : Change fixers
          (before (earlier ++ keeping tag.opening ++ first) ++ [c]) (before last)
          [' '] (before (mark ++ (keeping ['%', '>'] ++ later))) := by
        have space := Change.space tag active (.inr ends)
        rwa [before_append, before_keep, before_nil] at space
      have split : script = (earlier ++ keeping tag.opening ++ first) ++
          (keeping (c :: before last) ++ (mark ++ (keeping ['%', '>'] ++ later))) := by
        rw [gap.split, keeps, before_keeping]
        simp [keeping]
      obtain ⟨-, old, new, rest, same⟩ := pass.exists_swap_of_keeping split change
      rcases carries.mark with
        ⟨-, rfl⟩ | ⟨own, trimEq, rfl | ⟨style, rfl⟩⟩
      · simp [keeping] at same
      · simp at same
      · have markSplit : script =
            (earlier ++ keeping tag.opening ++ first ++ keeping (c :: before last)) ++
              .swap [own.char] [style.char] :: (keeping ['%', '>'] ++ later) := by
          rw [split]
          simp
        obtain ⟨enforced, differs⟩ := (pass.changes markSplit).rightTrim_of_mark
        constructor
        · refine ⟨active, tag, checkedBefore, ?_, style, own, enforced, trimEq,
            differs⟩
          rw [← spaces]
          exact rejected
        · rw [enforced]
          cases trimAfter : tag'.trim with
          | none =>
              rw [trimAfter] at markEq
              contradiction
          | some mark =>
              rw [trimAfter] at markEq
              rw [TrimMark.char_injective (List.singleton_inj.mp markEq)]

/-- A trim mark that is wrong after a pass was so before, and the white space in
front of it, too. -/
theorem conflicts_of_mismarked {tag' : Tag} {style mark' : TrimMark}
    (pass : Pass fixers script) (enforced : fixers.rightTrim = some style)
    (member : tag' ∈ (after script).tags) (trimmed : tag'.trim = some mark')
    (differs : mark' ≠ style) : Conflicts fixers (before script) := by
  obtain ⟨inScan, notEscape⟩ := Tag.mem_tags_iff.mp member
  cases pass.origin_of_mem_scan inScan with
  | bare _ noTrim =>
      rw [trimmed] at noTrim
      contradiction
  | @carried tag earlier code mark later carries indicator codeEq markEq =>
      rw [trimmed] at markEq
      rw [indicator] at notEscape
      have whole := carries.split
      rcases carries.mark with
        ⟨-, rfl⟩ | ⟨own, trimEq, rfl | ⟨style', rfl⟩⟩
      · contradiction
      · have sameMark : own = mark' :=
          TrimMark.char_injective (List.singleton_inj.mp markEq)
        subst sameMark
        have split : script = (earlier ++ keeping tag.opening ++ code) ++
            (keeping [own.char] ++ (keeping ['%', '>'] ++ later)) := by
          rw [carries.split]
          simp [keeping]
        have change : Change fixers (before (earlier ++ keeping tag.opening ++ code))
            [own.char] [style.char] (before (keeping ['%', '>'] ++ later)) := by
          refine .mark style tag enforced ⟨?_, carries.codeEnd_eq.symm, own, trimEq,
            differs, rfl⟩
          rw [← before_keeping [own.char], ← before_append, ← before_append,
            List.append_assoc _ (keeping [own.char]), ← split]
          exact Tag.mem_tags_iff.mpr ⟨carries.member, notEscape⟩
        obtain ⟨ahead, new, same⟩ := pass.exists_insertion_of_kept split change
        exact carries.conflicts_of_insertion pass split same (by simp)
          ⟨style, own, enforced, trimEq, differs⟩
      · have markSplit : script = (earlier ++ keeping tag.opening ++ code) ++
            .swap [own.char] [style'.char] :: (keeping ['%', '>'] ++ later) := by
          rw [carries.split]
          simp
        obtain ⟨enforced', -⟩ := (pass.changes markSplit).rightTrim_of_mark
        rw [enforced] at enforced'
        cases enforced'
        have sameMark : style = mark' :=
          TrimMark.char_injective (List.singleton_inj.mp markEq)
        exact absurd sameMark.symm differs

/-- After a pass, no tag has white space and a trim mark that are both wrong. -/
theorem not_conflicts_after (pass : Pass fixers script) :
    ¬Conflicts fixers (after script) := by
  rintro ⟨active, tag, checked, rejected, style, mark, enforced, trimmed, differs⟩
  have styled := (pass.conflicts_of_unaccepted active checked rejected).2
  rw [trimmed, enforced, Option.some.injEq] at styled
  exact differs styled

/-- White space around code is right after a pass without conflicts. -/
theorem not_misplaced_after {tag : Tag} {front old rest : Text}
    (pass : Pass fixers script) (calm : ¬Conflicts fixers (before script))
    (active : fixers.spaceAroundErbTag = true)
    (same : after script = front ++ old ++ rest) :
    ¬(SpaceAroundErbTag.Leads tag front old rest ∨
      SpaceAroundErbTag.Ends tag front old rest) := by
  rintro (leads | ends)
  · have checked := leads.checked
    rw [← same] at checked
    have accepted := pass.accepted_at_start active checked
    rw [← leads.spaces, leads.unaccepted] at accepted
    contradiction
  · have checked := ends.checked
    rw [← same] at checked
    have rejected := ends.unaccepted
    rw [ends.spaces] at rejected
    exact calm (pass.conflicts_of_unaccepted active checked rejected).1

/-- Trim marks are right after a pass without conflicts. -/
theorem not_mismarks_after {style : TrimMark} {tag : Tag} {front old rest : Text}
    (pass : Pass fixers script) (calm : ¬Conflicts fixers (before script))
    (enforced : fixers.rightTrim = some style)
    (same : after script = front ++ old ++ rest) :
    ¬RightTrim.Mismarks style tag front old rest := by
  intro mismarks
  have member := mismarks.member
  rw [← same] at member
  obtain ⟨mark, trimmed, differs, -⟩ := mismarks.mark
  exact calm (pass.conflicts_of_mismarked enforced member trimmed differs)

end Pass

end TemplateLint
