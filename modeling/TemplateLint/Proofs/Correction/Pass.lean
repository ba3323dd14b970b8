import TemplateLint.Proofs.Correction.Change
import TemplateLint.Proofs.Correction.Script

/-!
# Passes over a text

A pass makes some of the changes that are proposed for a text.  Those it makes
do not conflict, and every proposed change conflicts with one that is made.  A
character of a proposed change of blanks or of newlines is therefore never
kept: whatever could be in the way of the change would be a change of the same
characters.
-/

namespace TemplateLint

open Text Script

namespace Script

/-- Two pieces of a script come one after the other. -/
theorem eq_or_apart {earlier later earlier' later' : List Piece}
    {piece piece' : Piece}
    (same : earlier ++ piece :: later = earlier' ++ piece' :: later') :
    (earlier = earlier' ∧ piece = piece' ∧ later = later') ∨
    (∃ middle, earlier' = earlier ++ piece :: middle ∧
      later = middle ++ piece' :: later') ∨
    ∃ middle, earlier = earlier' ++ piece' :: middle ∧
      later' = middle ++ piece :: later := by
  rcases List.append_eq_append_iff.mp same with
    ⟨middle, frontEq, restEq⟩ | ⟨middle, frontEq, restEq⟩
  · cases middle with
    | nil =>
        rw [List.nil_append, List.cons.injEq] at restEq
        exact .inl ⟨by simpa using frontEq.symm, restEq.1, restEq.2⟩
    | cons first middle =>
        rw [List.cons_append, List.cons.injEq] at restEq
        obtain ⟨rfl, restEq⟩ := restEq
        exact .inr (.inl ⟨middle, frontEq, restEq⟩)
  · cases middle with
    | nil =>
        rw [List.nil_append, List.cons.injEq] at restEq
        exact .inl ⟨by simpa using frontEq, restEq.1.symm, restEq.2.symm⟩
    | cons first middle =>
        rw [List.cons_append, List.cons.injEq] at restEq
        obtain ⟨rfl, restEq⟩ := restEq
        exact .inr (.inr ⟨middle, frontEq, restEq⟩)

/-- A character of the text that a script leaves was kept or is new. -/
theorem kept_or_new {script : List Piece} {front rest : Text} {c : Char}
    (same : after script = front ++ c :: rest) :
    (∃ earlier later, script = earlier ++ .keep c :: later ∧
      after earlier = front ∧ after later = rest) ∨
    ∃ earlier old begun left later,
      script = earlier ++ .swap old (begun ++ c :: left) :: later ∧
      front = after earlier ++ begun ∧ rest = left ++ after later := by
  induction script generalizing front with
  | nil => simp at same
  | cons piece script induction =>
      cases piece with
      | keep d =>
          cases front with
          | nil =>
              rw [after_keep, List.nil_append, List.cons.injEq] at same
              obtain ⟨rfl, rfl⟩ := same
              exact .inl ⟨[], script, rfl, rfl, rfl⟩
          | cons e front =>
              rw [after_keep, List.cons_append, List.cons.injEq] at same
              obtain ⟨rfl, same⟩ := same
              rcases induction same with
                ⟨earlier, later, rfl, rfl, rfl⟩ |
                ⟨earlier, old, begun, left, later, rfl, rfl, rfl⟩
              · exact .inl ⟨.keep d :: earlier, later, rfl, rfl, rfl⟩
              · exact .inr ⟨.keep d :: earlier, old, begun, left, later, rfl,
                  rfl, rfl⟩
      | swap old new =>
          rw [after_swap] at same
          rcases List.append_eq_append_iff.mp same with
            ⟨middle, frontEq, restEq⟩ | ⟨middle, newEq, restEq⟩
          · rcases induction restEq with
              ⟨earlier, later, rfl, rfl, rfl⟩ |
              ⟨earlier, other, begun, left, later, rfl, rfl, rfl⟩
            · exact .inl ⟨.swap old new :: earlier, later, rfl, frontEq.symm, rfl⟩
            · exact .inr ⟨.swap old new :: earlier, other, begun, left, later,
                rfl, by simpa using frontEq, rfl⟩
          · cases middle with
            | nil =>
                rw [List.nil_append] at restEq
                have atOnce : after script = [] ++ c :: rest := restEq.symm
                rcases induction atOnce with
                  ⟨earlier, later, rfl, nothing, rfl⟩ |
                  ⟨earlier, other, begun, left, later, rfl, nothing, rfl⟩
                · exact .inl ⟨.swap old new :: earlier, later, rfl,
                    by simpa [nothing] using newEq, rfl⟩
                · exact .inr ⟨.swap old new :: earlier, other, begun, left, later,
                    rfl, by simp [newEq, ← nothing], rfl⟩
            | cons d middle =>
                rw [List.cons_append, List.cons.injEq] at restEq
                obtain ⟨rfl, rfl⟩ := restEq
                exact .inr ⟨[], old, front, middle, script, by rw [newEq]; rfl,
                  by simp, rfl⟩

end Script

/-- Two changes begin together or share a character. -/
def Touches (front old otherFront otherOld : Text) : Prop :=
  front.length = otherFront.length ∨
    (front.length < otherFront.length + otherOld.length ∧
      otherFront.length < front.length + old.length)

/-- A script makes proposed changes, no two of them at one position, such that
every proposed change is touched by one that is made. -/
structure Pass (fixers : Fixers) (script : List Piece) : Prop where
  changes : ∀ {earlier old new later},
    script = earlier ++ .swap old new :: later →
      Change fixers (before earlier) old new (before later)
  apart : ∀ {earlier new old' new' later},
    script ≠ earlier ++ .swap [] new :: .swap old' new' :: later
  complete : ∀ {front old new rest}, before script = front ++ old ++ rest →
    Change fixers front old new rest →
      ∃ earlier old' new' later, script = earlier ++ .swap old' new' :: later ∧
        Touches front old (before earlier) old'

namespace Pass

variable {fixers : Fixers} {script : List Piece}

/-- A character that no change brings in was kept. -/
theorem kept_of_not_fresh {earlier inner later : List Piece} {front rest : Text}
    {c : Char} (pass : Pass fixers script)
    (split : script = earlier ++ (inner ++ later))
    (same : after inner = front ++ c :: rest) (stays : ¬Change.Fresh c) :
    ∃ first last, inner = first ++ .keep c :: last ∧ after first = front ∧
      after last = rest := by
  rcases kept_or_new same with
    kept | ⟨first, old, begun, left, last, rfl, -⟩
  · exact kept
  · rw [List.append_assoc, ← List.append_assoc] at split
    exact absurd ((pass.changes split).fresh_of_mem (by simp)) stays

/-- A change ends in front of a character that passes a test, and there are
such characters in it. -/
def EndsBefore (test : Char → Prop) (old rest : Text) : Prop :=
  (∃ c tail, rest = c :: tail ∧ test c) ∧
    ((∀ c ∈ old, test c) ∨ 2 ≤ old.length ∧ ∃ c ∈ old, test c)

theorem endsBefore_of_append_eq {test : Char → Prop} {c : Char}
    {front begun otherFront old middle tail : Text}
    (same : otherFront ++ old ++ middle = front ++ begun)
    (passes : ∀ d ∈ begun, test d) (last : test c)
    (touches : front.length = otherFront.length ∨
      front.length < otherFront.length + old.length) :
    EndsBefore test old (middle ++ c :: tail) := by
  have follows : (∀ d ∈ middle, test d) →
      ∃ d later, middle ++ c :: tail = d :: later ∧ test d := by
    intro all
    cases middle with
    | nil => exact ⟨c, tail, rfl, last⟩
    | cons d middle => exact ⟨d, middle ++ c :: tail, rfl, all d (.head _)⟩
  rcases List.append_eq_append_iff.mp
      (List.append_assoc otherFront old middle ▸ same) with
    ⟨early, frontEq, begunEq⟩ | ⟨early, frontEq, begunEq⟩
  · rcases List.append_eq_append_iff.mp begunEq with
      ⟨inner, earlyEq, middleEq⟩ | ⟨inner, oldEq, leftEq⟩
    · have sizes := congrArg List.length frontEq
      rw [earlyEq, List.length_append, List.length_append] at sizes
      have nothing : inner = [] ∧ old = [] := by
        rw [← List.length_eq_zero_iff, ← List.length_eq_zero_iff]
        omega
      rw [nothing.1, List.nil_append] at middleEq
      refine ⟨follows fun d member => passes d (middleEq ▸ member), .inl ?_⟩
      simp [nothing.2]
    · refine ⟨follows fun d member => passes d ?_, ?_⟩
      · rw [leftEq]
        exact List.mem_append_right _ member
      · have sizes := congrArg List.length frontEq
        rw [List.length_append] at sizes
        rw [oldEq, List.length_append] at touches ⊢
        cases inner with
        | nil =>
            rw [List.length_nil] at touches
            have nothing : early = [] := by
              rw [← List.length_eq_zero_iff]
              omega
            left
            simp [nothing]
        | cons e inner =>
            have first : test e := passes e (by simp [leftEq])
            cases early with
            | nil =>
                left
                intro d member
                apply passes d
                rw [leftEq]
                exact List.mem_append_left _ member
            | cons d early =>
                right
                refine ⟨?_, e, by simp, first⟩
                simp only [List.length_cons]
                omega
  · refine ⟨follows fun d member => passes d ?_, .inl fun d member => passes d ?_⟩
    · rw [begunEq]
      simp [member]
    · rw [begunEq]
      simp [member]

/-- A change begins behind characters of another one, and what follows begins
with such characters. -/
def BeginsBehind (test : Char → Prop) (front rest otherFront otherRest : Text) :
    Prop :=
  (∃ middle, otherFront = front ++ middle ∧ middle ≠ [] ∧
      ∀ c ∈ middle, test c) ∧
    ∃ c tail, otherRest = c :: tail ++ rest ∧ ∀ d ∈ c :: tail, test d

/-- If a character of a proposed change is kept, then some change is made that
ends before characters of the proposed one or begins behind them. -/
theorem touching_of_kept {earlier later : List Piece} {c : Char}
    {front begun left new rest : Text} {test : Char → Prop}
    (pass : Pass fixers script) (split : script = earlier ++ .keep c :: later)
    (frontEq : before earlier = front ++ begun)
    (restEq : before later = left ++ rest)
    (passes : ∀ d ∈ begun ++ c :: left, test d)
    (change : Change fixers front (begun ++ c :: left) new rest) :
    ∃ otherFront old other otherRest,
      Change fixers otherFront old other otherRest ∧
      (EndsBefore test old otherRest ∨
        BeginsBehind test front rest otherFront (old ++ otherRest)) := by
  have whole : before script = front ++ (begun ++ c :: left) ++ rest := by
    rw [split, before_append, before_keep, frontEq, restEq]
    simp
  obtain ⟨earlier', old, other, later', split', touches⟩ :=
    pass.complete whole change
  refine ⟨before earlier', old, other, before later', pass.changes split', ?_⟩
  rcases eq_or_apart (split.symm.trans split') with
    ⟨-, same, -⟩ | ⟨middle, rfl, rfl⟩ | ⟨middle, rfl, rfl⟩
  · contradiction
  · right
    rw [before_append, before_swap] at restEq
    rw [before_append, before_keep, frontEq] at touches ⊢
    have bound : (before middle).length < left.length := by
      rcases touches with equal | ⟨-, within⟩
      · simp only [List.length_append, List.length_cons] at equal
        omega
      · simp only [List.length_append, List.length_cons] at within
        omega
    constructor
    · refine ⟨begun ++ c :: before middle, by simp, by simp, ?_⟩
      intro d member
      rcases List.append_eq_append_iff.mp restEq with
        ⟨extra, leftEq, -⟩ | ⟨extra, middleEq, -⟩
      · apply passes d
        rw [leftEq]
        simp only [List.mem_append, List.mem_cons] at member ⊢
        rcases member with inBegun | rfl | inMiddle
        · exact .inl inBegun
        · exact .inr (.inl rfl)
        · exact .inr (.inr (.inl inMiddle))
      · rw [middleEq, List.length_append] at bound
        omega
    · rcases List.append_eq_append_iff.mp restEq with
        ⟨extra, leftEq, tailEq⟩ | ⟨extra, middleEq, -⟩
      · cases extra with
        | nil =>
            rw [leftEq, List.append_nil] at bound
            omega
        | cons d extra =>
            refine ⟨d, extra, tailEq, ?_⟩
            intro e member
            apply passes e
            rw [leftEq]
            simp only [List.mem_append, List.mem_cons] at member ⊢
            rcases member with rfl | inExtra
            · exact .inr (.inr (.inr (.inl rfl)))
            · exact .inr (.inr (.inr (.inr inExtra)))
      · rw [middleEq, List.length_append] at bound
        omega
  · left
    rw [before_append, before_swap, ← List.append_assoc] at frontEq
    rw [before_append, before_keep]
    apply endsBefore_of_append_eq frontEq
    · exact fun d member => passes d (List.mem_append_left _ member)
    · exact passes c (by simp)
    · exact touches.imp_right fun both => both.1

/-! ## Blanks that are to be changed -/

/-- No change ends among blanks. -/
theorem not_endsBefore_blanks {front old new rest : Text}
    (change : Change fixers front old new rest) :
    ¬EndsBefore (isSpaceOrTab · = true) old rest := by
  rintro ⟨⟨c, tail, rfl, blank⟩, inside⟩
  cases change with
  | trailing _ trails =>
      rw [trails.closes.not_isSpaceOrTab] at blank
      contradiction
  | indent _ _ indents =>
      rw [firstIs_cons.mp indents.longest] at blank
      contradiction
  | extra _ exceeds =>
      obtain ⟨d, member, blankToo⟩ : ∃ d ∈ old, isSpaceOrTab d = true := by
        rcases inside with all | ⟨-, some_blank⟩
        · obtain ⟨later, rfl⟩ := exceeds.cons
          exact ⟨'\n', .head _, all _ (.head _)⟩
        · exact some_blank
      rw [exceeds.newlines d member] at blankToo
      contradiction
  | space tag _ misplaced =>
      obtain ⟨d, later, same, solid⟩ :=
        (Change.separates_of_misplaced misplaced).before
      rw [List.cons.injEq] at same
      rw [same.1, not_isSpaceOrTab_of_solid solid] at blank
      contradiction
  | mark style tag _ mismarks =>
      obtain ⟨mark, -, -, rfl⟩ := mismarks.mark
      rcases inside with all | ⟨long, -⟩
      · have markBlank : isSpaceOrTab mark.char = true := all mark.char (.head _)
        rw [not_isSpaceOrTab_of_solid mark.not_isBlank] at markBlank
        contradiction
      · simp at long

/-- No change begins among blanks. -/
theorem not_beginsBehind_blanks {front old new rest otherFront otherRest : Text}
    (change : Change fixers front old new rest) :
    ¬BeginsBehind (isSpaceOrTab · = true) otherFront otherRest front
      (old ++ rest) := by
  rintro ⟨⟨middle, frontEq, some_middle, blankMiddle⟩, c, tail, restEq, blank⟩
  obtain rfl | ⟨middle, d, rfl⟩ := middle.eq_nil_or_concat'
  · exact absurd rfl some_middle
  have last : isSpaceOrTab d = true := blankMiddle d (by simp)
  have first : isSpaceOrTab c = true := blank c (.head _)
  rw [← List.append_assoc] at frontEq
  cases change with
  | trailing _ trails =>
      have longest := trails.longest
      rw [frontEq, lastIs_concat, last] at longest
      contradiction
  | indent _ _ indents =>
      have starts := indents.starts
      rw [frontEq, atLineStart_concat] at starts
      exact not_newline_of_isSpaceOrTab last starts
  | extra _ exceeds =>
      obtain ⟨later, rfl⟩ := exceeds.cons
      rw [List.cons_append, List.cons_append, List.cons.injEq] at restEq
      rw [← restEq.1] at first
      contradiction
  | missing _ _ => simp at restEq
  | unwanted _ _ unwanted =>
      obtain ⟨later, rfl⟩ := unwanted.cons
      rw [List.cons_append, List.cons_append, List.cons.injEq] at restEq
      rw [← restEq.1] at first
      contradiction
  | space tag _ misplaced =>
      obtain ⟨earlier, e, same, solid⟩ :=
        (Change.separates_of_misplaced misplaced).behind
      rw [frontEq] at same
      obtain ⟨-, rfl⟩ := List.append_inj' same rfl |>.imp_right
        List.singleton_inj.mp
      rw [not_isSpaceOrTab_of_solid solid] at last
      contradiction
  | mark style tag _ mismarks =>
      obtain ⟨mark, -, -, rfl⟩ := mismarks.mark
      rw [List.cons_append, List.cons_append, List.cons.injEq] at restEq
      rw [← restEq.1, not_isSpaceOrTab_of_solid mark.not_isBlank] at first
      contradiction

/-- No blank is kept that is to be changed together with other blanks. -/
theorem not_kept_of_blanks {earlier later : List Piece} {c : Char}
    {front begun left new rest : Text} (pass : Pass fixers script)
    (split : script = earlier ++ .keep c :: later)
    (frontEq : before earlier = front ++ begun)
    (restEq : before later = left ++ rest)
    (blank : ∀ d ∈ begun ++ c :: left, isSpaceOrTab d = true) :
    ¬Change fixers front (begun ++ c :: left) new rest := by
  intro change
  obtain ⟨otherFront, old, other, otherRest, made, touches⟩ :=
    pass.touching_of_kept split frontEq restEq blank change
  rcases touches with ends | begins
  · exact not_endsBefore_blanks made ends
  · exact not_beginsBehind_blanks made begins

/-! ## Newlines that are to be removed -/

/-- No change ends among newlines. -/
theorem not_endsBefore_newlines {front old new rest : Text}
    (change : Change fixers front old new rest) :
    ¬EndsBefore (· = '\n') old rest := by
  rintro ⟨⟨c, tail, rfl, rfl⟩, inside⟩
  have member_of_inside : old ≠ [] → ∃ d ∈ old, d = '\n' := by
    intro some_old
    rcases inside with all | ⟨-, some_newline⟩
    · cases old with
      | nil => exact absurd rfl some_old
      | cons d old => exact ⟨d, .head _, all d (.head _)⟩
    · exact some_newline
  cases change with
  | trailing _ trails =>
      obtain ⟨d, member, newline⟩ := member_of_inside trails.inhabited
      exact not_newline_of_isSpaceOrTab (trails.blank d member) newline
  | indent _ _ indents =>
      obtain ⟨d, member, newline⟩ := member_of_inside indents.inhabited
      exact not_newline_of_isSpaceOrTab (indents.blank d member) newline
  | extra _ exceeds =>
      obtain ⟨d, later, same, other⟩ := exceeds.followed
      rw [List.cons.injEq] at same
      exact other same.1.symm
  | space tag _ misplaced =>
      obtain ⟨d, later, same, solid⟩ :=
        (Change.separates_of_misplaced misplaced).before
      rw [List.cons.injEq] at same
      exact not_newline_of_solid solid same.1.symm
  | mark style tag _ mismarks =>
      obtain ⟨mark, -, -, rfl⟩ := mismarks.mark
      obtain ⟨d, member, newline⟩ := member_of_inside (List.cons_ne_nil _ _)
      rw [List.mem_singleton.mp member] at newline
      exact not_newline_of_solid mark.not_isBlank newline

/-- Newlines that are to be removed without a replacement. -/
def Removes (fixers : Fixers) (front old rest : Text) : Prop :=
  ExtraNewline.Exceeds front old rest ∨
    ∃ present, fixers.finalNewline = some present ∧
      FinalNewline.Unwanted present front old ∧ rest = []

theorem Removes.newlines {front old rest : Text}
    (removes : Removes fixers front old rest) : ∀ c ∈ old, c = '\n' := by
  rcases removes with exceeds | ⟨present, -, unwanted, -⟩
  · exact exceeds.newlines
  · exact unwanted.newlines

/-- The newlines at the end of a text are the same however it is divided. -/
theorem newlines_eq_of_ends {first second run other : Text}
    (same : first ++ run = second ++ other)
    (firstLast : LastIs (· ≠ '\n') first) (secondLast : LastIs (· ≠ '\n') second)
    (runNewlines : ∀ c ∈ run, c = '\n') (otherNewlines : ∀ c ∈ other, c = '\n') :
    run = other := by
  have runs := congrArg (lastRun fun c => decide (c = '\n')) same
  rwa [lastRun_append (fun c last => by simpa using firstLast c last)
      (by simpa using runNewlines),
    lastRun_append (fun c last => by simpa using secondLast c last)
      (by simpa using otherNewlines)] at runs

/-- No change begins among newlines that are to be removed. -/
theorem not_beginsBehind_newlines
    {front old rest otherFront otherOld other otherRest : Text}
    (change : Change fixers otherFront otherOld other otherRest)
    (removes : Removes fixers front old rest) :
    ¬BeginsBehind (· = '\n') front rest otherFront (otherOld ++ otherRest) := by
  rintro ⟨⟨middle, frontEq, some_middle, middleNewlines⟩, c, tail, restEq,
    newlines⟩
  have first : c = '\n' := newlines c (.head _)
  subst first
  obtain ⟨earlier, middleEq⟩ : ∃ earlier, middle = earlier ++ ['\n'] := by
    obtain rfl | ⟨earlier, d, rfl⟩ := middle.eq_nil_or_concat'
    · exact absurd rfl some_middle
    · exact ⟨earlier, by rw [middleNewlines d (by simp)]⟩
  have lastNewline : otherFront = (front ++ earlier) ++ ['\n'] := by
    rw [frontEq, middleEq, List.append_assoc]
  cases change with
  | trailing _ trails =>
      cases otherOld with
      | nil => exact absurd rfl trails.inhabited
      | cons d otherOld =>
          rw [List.cons_append, List.cons_append, List.cons.injEq] at restEq
          exact not_newline_of_isSpaceOrTab (trails.blank d (.head _)) restEq.1
  | indent _ _ indents =>
      cases otherOld with
      | nil => exact absurd rfl indents.inhabited
      | cons d otherOld =>
          rw [List.cons_append, List.cons_append, List.cons.injEq] at restEq
          exact not_newline_of_isSpaceOrTab (indents.blank d (.head _)) restEq.1
  | extra _ exceeds =>
      obtain ⟨before', beforeEq, beforeLast⟩ := exceeds.behindTwo
      rcases removes with own | ⟨present, -, -, rfl⟩
      · obtain ⟨ahead, rfl, aheadLast⟩ := own.behindTwo
        rw [beforeEq, List.append_assoc] at frontEq
        have runs := newlines_eq_of_ends frontEq beforeLast aheadLast (by simp)
          (ExtraNewline.two_newlines_append middleNewlines)
        rw [middleEq] at runs
        simp at runs
      · obtain ⟨d, later, rfl, different⟩ := exceeds.followed
        rw [List.append_nil] at restEq
        exact different (newlines d (by rw [← restEq]; simp))
  | missing _ _ => simp at restEq
  | unwanted present active unwanted =>
      rw [List.append_nil] at restEq
      rcases removes with own | ⟨ownPresent, ownActive, own, rfl⟩
      · obtain ⟨d, later, rfl, different⟩ := own.followed
        exact different (unwanted.newlines d (by rw [restEq]; simp))
      · rw [active] at ownActive
        cases ownActive
        have kept := unwanted.kept
        have ownKept := own.kept
        cases present with
        | false =>
            simp only [Bool.false_eq_true, if_false] at kept
            rw [lastNewline, lastIs_concat] at kept
            exact kept rfl
        | true =>
            obtain ⟨before', beforeEq, beforeLast⟩ := kept
            obtain ⟨ahead, rfl, aheadLast⟩ := ownKept
            rw [beforeEq, List.append_assoc] at frontEq
            have runs := newlines_eq_of_ends frontEq beforeLast aheadLast
              (by simp) (by simpa using middleNewlines)
            rw [middleEq] at runs
            simp at runs
  | space tag _ misplaced =>
      obtain ⟨ahead, e, same, solid⟩ :=
        (Change.separates_of_misplaced misplaced).behind
      rw [lastNewline] at same
      obtain ⟨-, rfl⟩ := List.append_inj' same rfl |>.imp_right
        List.singleton_inj.mp
      exact not_newline_of_solid solid rfl
  | mark style tag _ mismarks =>
      obtain ⟨mark, -, -, rfl⟩ := mismarks.mark
      rw [List.cons_append, List.cons_append, List.cons.injEq] at restEq
      exact not_newline_of_solid mark.not_isBlank restEq.1

/-- No newline is kept that is to be removed. -/
theorem not_kept_of_newlines {earlier later : List Piece} {c : Char}
    {front begun left rest : Text} (pass : Pass fixers script)
    (split : script = earlier ++ .keep c :: later)
    (frontEq : before earlier = front ++ begun)
    (restEq : before later = left ++ rest)
    (removes : Removes fixers front (begun ++ c :: left) rest) :
    ¬Change fixers front (begun ++ c :: left) [] rest := by
  intro change
  obtain ⟨otherFront, old, other, otherRest, made, touches⟩ :=
    pass.touching_of_kept split frontEq restEq removes.newlines change
  rcases touches with ends | begins
  · exact not_endsBefore_newlines made ends
  · exact not_beginsBehind_newlines made removes begins

end Pass

end TemplateLint
