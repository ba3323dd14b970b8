import Mathlib.Data.List.Induction
import TemplateLint.Proofs.Correction.Pass

/-!
# Lines after a pass

What a pass leaves at the ends of lines was there before, except for spaces
that a tabbed indent turns into.  Tabbed indents are therefore gone after one
pass, and trailing white space two passes later: the first of them removes what
stands before the ends of lines, and the second one what stands before the
carriage returns that came to end lines.
-/

namespace TemplateLint

open Text Script

/-! ## Indents -/

/-- A position in the white space at the start of a line. -/
def Text.InIndent (front : Text) : Prop :=
  ∃ earlier blanks, front = earlier ++ blanks ∧ AtLineStart earlier ∧
    ∀ c ∈ blanks, isSpaceOrTab c = true

namespace Text.InIndent

theorem of_atLineStart {front : Text} (starts : AtLineStart front) :
    InIndent front :=
  ⟨front, [], by simp, starts, by simp⟩

theorem append {front blanks : Text} (inside : InIndent front)
    (blank : ∀ c ∈ blanks, isSpaceOrTab c = true) :
    InIndent (front ++ blanks) := by
  obtain ⟨earlier, own, rfl, starts, ownBlank⟩ := inside
  refine ⟨earlier, own ++ blanks, by simp, starts, ?_⟩
  intro c member
  rcases List.mem_append.mp member with inOwn | inBlanks
  · exact ownBlank c inOwn
  · exact blank c inBlanks

theorem of_concat {front : Text} {c : Char} (inside : InIndent (front ++ [c])) :
    c = '\n' ∨ (isSpaceOrTab c = true ∧ InIndent front) := by
  obtain ⟨earlier, blanks, same, starts, blank⟩ := inside
  obtain rfl | ⟨blanks, d, rfl⟩ := blanks.eq_nil_or_concat'
  · rw [List.append_nil] at same
    rw [← same, atLineStart_concat] at starts
    exact .inl starts
  · rw [← List.append_assoc] at same
    obtain ⟨rfl, last⟩ := List.append_inj' same rfl
    cases last
    refine .inr ⟨blank c (by simp), earlier, blanks, rfl, starts, ?_⟩
    exact fun d member => blank d (List.mem_append_left _ member)

theorem not_solid {front : Text} {c : Char}
    (inside : InIndent (front ++ [c])) : Character.isBlank c = true := by
  rcases inside.of_concat with rfl | ⟨blank, -⟩
  · exact isBlank_newline
  · exact isBlank_of_isSpaceOrTab blank

end Text.InIndent

/-- A text with a tabbed indent. -/
def Text.Indented (text : Text) : Prop :=
  ∃ front old rest, text = front ++ old ++ rest ∧
    SpaceIndentation.Indents front old rest

namespace Pass

variable {fixers : Fixers} {script : List Piece}

/-- What stands in the white space at the start of a line after a pass did so
before. -/
theorem inIndent_of_after {earlier later : List Piece}
    (pass : Pass fixers script) (split : script = earlier ++ later)
    (more : before later ≠ []) (inside : InIndent (after earlier)) :
    InIndent (before earlier) := by
  induction earlier using List.reverseRecOn generalizing later with
  | nil => exact inside
  | append_singleton earlier piece induction =>
      rw [List.append_assoc, List.singleton_append] at split
      cases piece with
      | keep c =>
          simp only [after_append, after_keep, after_nil] at inside
          simp only [before_append, before_keep, before_nil]
          rcases inside.of_concat with rfl | ⟨blank, inEarlier⟩
          · exact .of_atLineStart (atLineStart_concat.mpr rfl)
          · exact (induction split (by simp) inEarlier).append (by simpa using blank)
      | swap old new =>
          have moreThere : before (.swap old new :: later) ≠ [] := by
            simp [more]
          have change := pass.changes split
          generalize before later = rest at change more
          simp only [after_append, after_swap, after_nil, List.append_nil] at inside
          simp only [before_append, before_swap, before_nil, List.append_nil]
          cases change with
          | trailing _ trails =>
              rw [List.append_nil] at inside
              exact (induction split moreThere inside).append trails.blank
          | indent width _ indents =>
              exact (InIndent.of_atLineStart indents.starts).append indents.blank
          | extra _ exceeds =>
              obtain rfl | ⟨old, c, rfl⟩ := old.eq_nil_or_concat'
              · exact absurd rfl exceeds.inhabited
              · apply InIndent.of_atLineStart
                rw [← List.append_assoc, atLineStart_concat]
                exact exceeds.newlines c (by simp)
          | missing _ _ => exact absurd rfl more
          | unwanted _ _ _ => exact absurd rfl more
          | space tag _ misplaced =>
              rcases inside.of_concat with newline | ⟨-, inEarlier⟩
              · contradiction
              · have behind := induction split moreThere inEarlier
                obtain ⟨ahead, c, same, solid⟩ :=
                  (Change.separates_of_misplaced misplaced).behind
                rw [same] at behind
                rw [behind.not_solid] at solid
                contradiction
          | mark style tag _ _ =>
              have solid := style.not_isBlank
              rw [inside.not_solid] at solid
              contradiction

/-- Where indents are expanded, none has a tab after a pass. -/
theorem not_indented_after {width : Nat} (pass : Pass fixers script)
    (active : fixers.spaceIndentation = some width) :
    ¬Indented (after script) := by
  rintro ⟨front, old, rest, same, indents⟩
  obtain ⟨begun, left, rfl⟩ := List.append_of_mem indents.tabbed
  have sameTab : after script = (front ++ begun) ++ '\t' :: (left ++ rest) := by
    rw [same]
    simp
  have whole : script = [] ++ (script ++ []) := by simp
  obtain ⟨earlier, later, split, afterEarlier, -⟩ :=
    pass.kept_of_not_fresh whole sameTab Change.not_fresh_tab
  have inside : InIndent (after earlier) := by
    rw [afterEarlier]
    refine (InIndent.of_atLineStart indents.starts).append ?_
    exact fun c member => indents.blank c (List.mem_append_left _ member)
  obtain ⟨line, blanks, beforeEarlier, starts, blank⟩ :=
    pass.inIndent_of_after split (by simp) inside
  have parts : before later = (before later).takeWhile isSpaceOrTab ++
      (before later).dropWhile isSpaceOrTab := List.takeWhile_append_dropWhile.symm
  have allBlank : ∀ c ∈ blanks ++ '\t' :: (before later).takeWhile isSpaceOrTab,
      isSpaceOrTab c = true := by
    intro c member
    simp only [List.mem_append, List.mem_cons] at member
    rcases member with inBlanks | rfl | inLater
    · exact blank c inBlanks
    · rfl
    · exact List.mem_takeWhile_imp inLater
  apply pass.not_kept_of_blanks split beforeEarlier parts allBlank
  exact .indent width active ⟨starts, allBlank, by simp, firstIs_dropWhile _⟩

/-! ## Ends of lines -/

/-- What stands before the end of a line after a pass stood before blanks that
end a line. -/
theorem atLineEnd_of_after {earlier inner later : List Piece}
    (pass : Pass fixers script) (split : script = earlier ++ (inner ++ later))
    (ends : AtLineEnd (after inner)) :
    ∃ blanks tail, before inner = blanks ++ tail ∧
      (∀ c ∈ blanks, isSpaceOrTab c = true) ∧ AtLineEnd tail := by
  induction inner generalizing earlier with
  | nil => exact ⟨[], [], rfl, by simp, atLineEnd_nil⟩
  | cons piece inner induction =>
      have further : script = (earlier ++ [piece]) ++ (inner ++ later) := by
        rw [split]
        simp
      cases piece with
      | keep c =>
          rw [after_keep, atLineEnd_cons] at ends
          exact ⟨[], c :: before inner, rfl, by simp, atLineEnd_cons.mpr ends⟩
      | swap old new =>
          have change := pass.changes split
          generalize restEq : before (inner ++ later) = rest at change
          rw [after_swap] at ends
          rw [before_swap]
          cases change with
          | trailing _ trails =>
              obtain ⟨blanks, tail, innerEq, blank, tailEnds⟩ :=
                induction further ends
              refine ⟨old ++ blanks, tail, by rw [innerEq, List.append_assoc], ?_,
                tailEnds⟩
              intro c member
              rcases List.mem_append.mp member with inOld | inBlanks
              · exact trails.blank c inOld
              · exact blank c inBlanks
          | indent width active indents =>
              have some_new := SpaceIndentation.expandTabs_ne_nil
                (fixers.positive width active) indents.inhabited
              obtain ⟨c, new, newEq⟩ := List.exists_cons_of_ne_nil some_new
              have space := SpaceIndentation.eq_space_of_mem_expandTabs
                indents.blank (c := c) (by rw [newEq]; exact .head _)
              rw [newEq, List.cons_append, atLineEnd_cons, space] at ends
              contradiction
          | extra _ exceeds =>
              obtain ⟨old, rfl⟩ := exceeds.cons
              exact ⟨[], '\n' :: (old ++ before inner), rfl, by simp,
                atLineEnd_cons.mpr rfl⟩
          | missing _ _ =>
              rw [before_append, List.append_eq_nil_iff] at restEq
              exact ⟨[], [], restEq.1, by simp, atLineEnd_nil⟩
          | unwanted _ _ unwanted =>
              obtain ⟨old, rfl⟩ := unwanted.cons
              exact ⟨[], '\n' :: (old ++ before inner), rfl, by simp,
                atLineEnd_cons.mpr rfl⟩
          | space _ _ _ =>
              rw [List.cons_append, atLineEnd_cons] at ends
              contradiction
          | mark style _ _ _ =>
              rw [List.cons_append, atLineEnd_cons] at ends
              have solid := style.not_isBlank
              rw [ends, isBlank_newline] at solid
              contradiction

/-- What closes a line after a pass stood before blanks that close a line, or
that do so but for more blanks behind a carriage return. -/
theorem closesLine_of_after {earlier later : List Piece}
    (pass : Pass fixers script) (split : script = earlier ++ later)
    (closes : ClosesLine (after later)) :
    ∃ blanks tail, before later = blanks ++ tail ∧
      (∀ c ∈ blanks, isSpaceOrTab c = true) ∧
      (AtLineEnd tail ∨ ∃ more rest, tail = '\r' :: (more ++ rest) ∧
        (∀ c ∈ more, isSpaceOrTab c = true) ∧ AtLineEnd rest) := by
  have whole : script = earlier ++ (later ++ []) := by rw [split, List.append_nil]
  rcases closes with ends | ⟨behind, same, ends⟩
  · obtain ⟨blanks, tail, laterEq, blank, tailEnds⟩ :=
      pass.atLineEnd_of_after whole ends
    exact ⟨blanks, tail, laterEq, blank, .inl tailEnds⟩
  · have returns : after later = [] ++ '\r' :: behind := same
    obtain ⟨first, last, rfl, nothing, rfl⟩ :=
      pass.kept_of_not_fresh whole returns Change.not_fresh_return
    have lastSplit :
        script = (earlier ++ first ++ [.keep '\r']) ++ (last ++ []) := by
      rw [split]
      simp
    obtain ⟨blanks, tail, firstEq, blank, tailEnds⟩ :=
      pass.atLineEnd_of_after split (by rw [nothing]; exact atLineEnd_nil)
    obtain ⟨more, rest, lastEq, moreBlank, restEnds⟩ :=
      pass.atLineEnd_of_after lastSplit ends
    refine ⟨blanks, tail ++ '\r' :: before last, ?_, blank, ?_⟩
    · rw [before_append, firstEq, before_keep, List.append_assoc]
    · cases tail with
      | nil => exact .inr ⟨more, rest, by rw [lastEq]; rfl, moreBlank, restEnds⟩
      | cons c tail => exact .inl (atLineEnd_cons.mpr (atLineEnd_cons.mp tailEnds))

end Pass

/-! ## Trailing white space -/

/-- A text with a blank before the end of a line, up to characters that belong
to the end. -/
def Text.BlankBefore (closing text : Text) : Prop :=
  ∃ front c rest, text = front ++ c :: (closing ++ rest) ∧
    isSpaceOrTab c = true ∧ AtLineEnd rest

theorem TrailingWhitespace.Trails.blankBefore {front old rest : Text}
    (trails : Trails front old rest) :
    BlankBefore [] (front ++ old ++ rest) ∨
      BlankBefore ['\r'] (front ++ old ++ rest) := by
  obtain rfl | ⟨old, c, rfl⟩ := old.eq_nil_or_concat'
  · exact absurd rfl trails.inhabited
  · have blank := trails.blank c (by simp)
    rcases trails.closes with ends | ⟨later, rfl, ends⟩
    · exact .inl ⟨front ++ old, c, rest, by simp, blank, ends⟩
    · exact .inr ⟨front ++ old, c, later, by simp, blank, ends⟩

namespace Pass

variable {fixers : Fixers} {script : List Piece}

/-- Where trailing white space is removed, no blank is kept before the end of
a line. -/
theorem not_kept_of_closes {earlier later : List Piece} {c : Char}
    {blanks tail : Text} (pass : Pass fixers script)
    (active : fixers.trailingWhitespace = true)
    (split : script = earlier ++ .keep c :: later)
    (blank : isSpaceOrTab c = true) (laterEq : before later = blanks ++ tail)
    (laterBlank : ∀ c ∈ blanks, isSpaceOrTab c = true) : ¬ClosesLine tail := by
  intro closes
  have parts : before earlier = dropLastRun isSpaceOrTab (before earlier) ++
      lastRun isSpaceOrTab (before earlier) :=
    (dropLastRun_append_lastRun _).symm
  have allBlank : ∀ d ∈ lastRun isSpaceOrTab (before earlier) ++ c :: blanks,
      isSpaceOrTab d = true := by
    intro d member
    simp only [List.mem_append, List.mem_cons] at member
    rcases member with inRun | rfl | inLater
    · exact test_of_mem_lastRun inRun
    · exact blank
    · exact laterBlank d inLater
  apply pass.not_kept_of_blanks split parts laterEq allBlank
  exact .trailing active ⟨by simp, allBlank, lastIs_dropLastRun _, closes⟩

/-- A blank that a pass leaves where a line is closed was kept, unless there
were tabbed indents. -/
theorem kept_or_indented_of_closes {front rest : Text} {c : Char}
    (pass : Pass fixers script) (same : after script = front ++ c :: rest)
    (blank : isSpaceOrTab c = true) (closes : ClosesLine rest) :
    (∃ earlier later, script = earlier ++ .keep c :: later ∧
      after later = rest) ∨
    (fixers.spaceIndentation ≠ none ∧ Indented (before script)) := by
  rcases kept_or_new same with
    ⟨earlier, later, split, -, laterEq⟩ |
    ⟨earlier, old, begun, left, later, split, -, restEq⟩
  · exact .inl ⟨earlier, later, split, laterEq⟩
  · have whole : before script = before earlier ++ old ++ before later := by
      rw [split]
      simp
    have further :
        script = (earlier ++ [.swap old (begun ++ c :: left)]) ++ later := by
      rw [split]
      simp
    have change := pass.changes split
    have behind := pass.closesLine_of_after further
    generalize newEq : begun ++ c :: left = new at change
    generalize before later = tail at change whole behind
    have member : c ∈ new := by simp [← newEq]
    cases change with
    | trailing _ _ => simp at member
    | indent width active indents =>
        exact .inr ⟨by simp [active], _, _, _, whole, indents⟩
    | extra _ _ => simp at member
    | missing _ _ =>
        rw [List.mem_singleton.mp member] at blank
        contradiction
    | unwanted _ _ _ => simp at member
    | space tag _ misplaced =>
        exfalso
        have nothing : begun = [] ∧ left = [] := by
          have sizes := congrArg List.length newEq
          simp only [List.length_append, List.length_cons, List.length_nil] at sizes
          rw [← List.length_eq_zero_iff, ← List.length_eq_zero_iff]
          omega
        rw [restEq, nothing.2, List.nil_append] at closes
        obtain ⟨d, later', tailEq, solid⟩ :=
          (Change.separates_of_misplaced misplaced).before
        obtain ⟨blanks, tail', tailEq', allBlank, shape⟩ := behind closes
        have first : Character.isBlank d = true := by
          cases blanks with
          | cons e blanks =>
              rw [tailEq, List.cons_append, List.cons.injEq] at tailEq'
              rw [tailEq'.1]
              exact isBlank_of_isSpaceOrTab (allBlank e (.head _))
          | nil =>
              rw [List.nil_append] at tailEq'
              rw [← tailEq', tailEq] at shape
              rcases shape with ends | ⟨more, rest', same', -⟩
              · rw [atLineEnd_cons.mp ends]
                exact isBlank_newline
              · rw [List.cons.injEq] at same'
                rw [same'.1]
                exact isBlank_return
        rw [first] at solid
        contradiction
    | mark style _ _ _ =>
        have solid := style.not_isBlank
        rw [← List.mem_singleton.mp member, isBlank_of_isSpaceOrTab blank] at solid
        contradiction

/-- Without tabbed indents, no blank is left before the end of a line. -/
theorem not_blankBefore_end (pass : Pass fixers script)
    (active : fixers.trailingWhitespace = true)
    (expanded : fixers.spaceIndentation ≠ none → ¬Indented (before script)) :
    ¬BlankBefore [] (after script) := by
  rintro ⟨front, c, rest, same, blank, ends⟩
  rcases pass.kept_or_indented_of_closes same blank (.inl ends) with
    ⟨earlier, later, split, laterEq⟩ | ⟨indents, indented⟩
  · have further : script = (earlier ++ [.keep c]) ++ (later ++ []) := by
      rw [split]
      simp
    obtain ⟨blanks, tail, beforeEq, allBlank, tailEnds⟩ :=
      pass.atLineEnd_of_after further (by rw [laterEq]; exact ends)
    exact pass.not_kept_of_closes active split blank beforeEq allBlank
      (.inl tailEnds)
  · exact expanded indents indented

/-- Without tabbed indents, blanks left before a carriage return stood before
one with blanks behind it. -/
theorem not_blankBefore_return (pass : Pass fixers script)
    (active : fixers.trailingWhitespace = true)
    (expanded : fixers.spaceIndentation ≠ none → ¬Indented (before script))
    (clean : ¬BlankBefore [] (before script)) :
    ¬BlankBefore ['\r'] (after script) := by
  rintro ⟨front, c, rest, same, blank, ends⟩
  have closes : ClosesLine (['\r'] ++ rest) := .inr ⟨rest, rfl, ends⟩
  rcases pass.kept_or_indented_of_closes same blank closes with
    ⟨earlier, later, split, laterEq⟩ | ⟨indents, indented⟩
  · have further : script = (earlier ++ [.keep c]) ++ later := by
      rw [split]
      simp
    obtain ⟨blanks, tail, beforeEq, allBlank, shape⟩ :=
      pass.closesLine_of_after further (by rw [laterEq]; exact closes)
    have kept := pass.not_kept_of_closes active split blank beforeEq allBlank
    rcases shape with tailEnds | ⟨more, last, rfl, moreBlank, lastEnds⟩
    · exact kept (.inl tailEnds)
    · obtain rfl | ⟨more, d, rfl⟩ := more.eq_nil_or_concat'
      · exact kept (.inr ⟨last, rfl, lastEnds⟩)
      · apply clean
        refine ⟨before earlier ++ c :: blanks ++ '\r' :: more, d, last, ?_,
          moreBlank d (by simp), lastEnds⟩
        rw [split, before_append, before_keep, beforeEq]
        simp
  · exact expanded indents indented

end Pass

end TemplateLint
