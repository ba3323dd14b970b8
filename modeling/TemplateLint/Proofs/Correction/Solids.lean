import TemplateLint.Proofs.Correction.Pass

/-!
# What a pass does between other characters than white space

Characters other than white space are kept, except for trim marks.  Two of them
that stand next to each other after a pass did so before.  White space between
two of them keeps its first newline; without a newline it is kept as it is or
becomes one space.
-/

namespace TemplateLint

open Text Script

namespace Script

/-- The script that goes back. -/
def undo (script : List Piece) : List Piece :=
  script.map fun piece =>
    match piece with
    | .keep c => .keep c
    | .swap old new => .swap new old

@[simp] theorem undo_undo (script : List Piece) : undo (undo script) = script := by
  induction script with
  | nil => rfl
  | cons piece script induction =>
      simp only [undo, List.map_cons] at induction ⊢
      rw [induction]
      cases piece <;> rfl

@[simp] theorem after_undo (script : List Piece) :
    after (undo script) = before script := by
  induction script with
  | nil => rfl
  | cons piece script induction =>
      simp only [undo, List.map_cons] at induction ⊢
      cases piece <;> simp [induction]

@[simp] theorem before_undo (script : List Piece) :
    before (undo script) = after script := by
  rw [← after_undo, undo_undo]

@[simp] theorem undo_append (earlier later : List Piece) :
    undo (earlier ++ later) = undo earlier ++ undo later := by
  simp [undo]

/-- A character of the text that a script goes through is kept or swapped. -/
theorem kept_or_old {script : List Piece} {front rest : Text} {c : Char}
    (same : before script = front ++ c :: rest) :
    (∃ earlier later, script = earlier ++ .keep c :: later ∧
      before earlier = front ∧ before later = rest) ∨
    ∃ earlier begun left new later,
      script = earlier ++ .swap (begun ++ c :: left) new :: later ∧
      front = before earlier ++ begun ∧ rest = left ++ before later := by
  rw [← after_undo] at same
  rcases kept_or_new same with
    ⟨earlier, later, split, earlierEq, laterEq⟩ |
    ⟨earlier, new, begun, left, later, split, earlierEq, laterEq⟩
  · refine .inl ⟨undo earlier, undo later, ?_, by simpa using earlierEq,
      by simpa using laterEq⟩
    rw [← undo_undo script, split, undo_append]
    rfl
  · refine .inr ⟨undo earlier, begun, left, new, undo later, ?_,
      by simpa using earlierEq, by simpa using laterEq⟩
    rw [← undo_undo script, split, undo_append]
    rfl

end Script

/-- Another character than white space stands at the end of a text. -/
def Text.EndsSolid (front : Text) : Prop :=
  ∃ earlier c, front = earlier ++ [c] ∧ Character.isBlank c = false

/-- Another character than white space stands at the start of a text. -/
def Text.StartsSolid (rest : Text) : Prop :=
  ∃ c later, rest = c :: later ∧ Character.isBlank c = false

theorem Text.startsSolid_cons {c : Char} {rest : Text} :
    StartsSolid (c :: rest) ↔ Character.isBlank c = false := by
  constructor
  · rintro ⟨d, later, same, solid⟩
    rw [List.cons.injEq] at same
    rwa [same.1]
  · exact fun solid => ⟨c, rest, rfl, solid⟩

theorem Text.endsSolid_concat {front : Text} {c : Char} :
    EndsSolid (front ++ [c]) ↔ Character.isBlank c = false := by
  constructor
  · rintro ⟨earlier, d, same, solid⟩
    obtain ⟨-, last⟩ := List.append_inj' same rfl
    rwa [List.singleton_inj.mp last]
  · exact fun solid => ⟨front, c, rfl, solid⟩

theorem Text.EndsSolid.not_blank {front blanks : Text} {c : Char}
    (ends : EndsSolid (front ++ blanks)) (member : c ∈ blanks)
    (blank : ∀ c ∈ blanks, Character.isBlank c = true) : False := by
  obtain rfl | ⟨blanks, d, rfl⟩ := blanks.eq_nil_or_concat'
  · contradiction
  · rw [← List.append_assoc, endsSolid_concat, blank d (by simp)] at ends
    contradiction

theorem Text.ClosesLine.not_startsSolid {rest : Text} (closes : ClosesLine rest) :
    ¬StartsSolid rest := by
  rintro ⟨c, later, rfl, solid⟩
  rw [closes.isBlank] at solid
  contradiction

theorem Text.not_closesLine {blanks rest : Text} (inline : '\n' ∉ blanks)
    (follows : StartsSolid rest) : ¬ClosesLine (blanks ++ rest) := by
  have not_end : ∀ left : Text, '\n' ∉ left → ¬AtLineEnd (left ++ rest) := by
    intro left none_left ends
    cases left with
    | nil => exact ClosesLine.not_startsSolid (.inl ends) follows
    | cons c left =>
        rw [List.cons_append, atLineEnd_cons] at ends
        exact none_left (ends ▸ .head _)
  rintro (ends | ⟨later, same, ends⟩)
  · exact not_end blanks inline ends
  · cases blanks with
    | nil =>
        rw [List.nil_append] at same
        rw [same, startsSolid_cons, isBlank_return] at follows
        contradiction
    | cons c blanks =>
        rw [List.cons_append, List.cons.injEq] at same
        rw [← same.2] at ends
        exact not_end blanks (fun member => inline (.tail _ member)) ends

theorem Text.not_atLineStart {front blanks : Text} (inline : '\n' ∉ blanks)
    (behind : EndsSolid front) : ¬AtLineStart (front ++ blanks) := by
  intro starts
  obtain rfl | ⟨blanks, c, rfl⟩ := blanks.eq_nil_or_concat'
  · obtain ⟨earlier, c, rfl, solid⟩ := behind
    rw [List.append_nil, atLineStart_concat] at starts
    exact not_newline_of_solid solid starts
  · rw [← List.append_assoc, atLineStart_concat] at starts
    simp [starts] at inline

/-- Where nothing comes in, white space is removed. -/
theorem Change.removes_cases {fixers : Fixers} {front old new rest : Text}
    (change : Change fixers front old new rest) (nothing : new = []) :
    TrailingWhitespace.Trails front old rest ∨
      ExtraNewline.Exceeds front old rest ∨
      (rest = [] ∧ ∃ present, FinalNewline.Unwanted present front old) := by
  cases change with
  | trailing _ trails => exact .inl trails
  | indent width active indents =>
      exact absurd nothing (SpaceIndentation.expandTabs_ne_nil
        (fixers.positive width active) indents.inhabited)
  | extra _ exceeds => exact .inr (.inl exceeds)
  | missing _ _ => contradiction
  | unwanted present _ unwanted => exact .inr (.inr ⟨rfl, present, unwanted⟩)
  | space _ _ _ => contradiction
  | mark _ _ _ _ => contradiction

namespace Pass

variable {fixers : Fixers} {script : List Piece}

/-! ## Neighbours -/

/-- Nothing is removed between two characters that stand next to each other
after the pass. -/
theorem eq_nil_between {earlier inner later : List Piece}
    (pass : Pass fixers script) (split : script = earlier ++ (inner ++ later))
    (behind : EndsSolid (before earlier)) (follows : StartsSolid (before later))
    (nothing : after inner = []) : inner = [] := by
  have some_later : before later ≠ [] := by
    obtain ⟨c, rest, same, -⟩ := follows
    simp [same]
  cases inner with
  | nil => rfl
  | cons piece inner =>
      exfalso
      cases piece with
      | keep c => simp at nothing
      | swap old new =>
          rw [after_swap, List.append_eq_nil_iff] at nothing
          rcases (pass.changes split).removes_cases nothing.1 with
            trails | exceeds | ⟨ended, -⟩
          · cases inner with
            | nil => exact trails.closes.not_startsSolid follows
            | cons piece inner =>
                cases piece with
                | keep c => simp at nothing
                | swap old' new' =>
                    have further : script = (earlier ++ [.swap old new]) ++
                        .swap old' new' :: (inner ++ later) := by
                      rw [split]
                      simp
                    have gone : new' = [] := by
                      have both := nothing.2
                      rw [after_swap, List.append_eq_nil_iff] at both
                      exact both.1
                    obtain ⟨old, c, rfl⟩ :=
                      old.eq_nil_or_concat'.resolve_left trails.inhabited
                    have blank := trails.blank c (by simp)
                    have change := pass.changes further
                    simp only [before_append, before_swap, before_nil,
                      List.append_nil, ← List.append_assoc] at change
                    rcases change.removes_cases gone with
                      trails' | exceeds | ⟨ended, -⟩
                    · rw [lastIs_concat.mp trails'.longest] at blank
                      contradiction
                    · obtain ⟨ahead, same⟩ := exceeds.concat
                      obtain ⟨-, last⟩ := List.append_inj' same rfl
                      rw [List.singleton_inj.mp last] at blank
                      contradiction
                    · simp [some_later] at ended
          · obtain ⟨ahead, same⟩ := exceeds.concat
            rw [same, endsSolid_concat, isBlank_newline] at behind
            contradiction
          · simp [some_later] at ended

/-- A character that no change brings in and that follows another one after a
pass did so before. -/
theorem keep_of_after {earlier inner later : List Piece} {c : Char} {rest : Text}
    (pass : Pass fixers script) (split : script = earlier ++ (inner ++ later))
    (behind : EndsSolid (before earlier)) (same : after inner = c :: rest)
    (solid : Character.isBlank c = false) (stays : ¬Change.Fresh c) :
    ∃ last, inner = .keep c :: last ∧ after last = rest := by
  obtain ⟨first, last, rfl, nothing, rfl⟩ :=
    @kept_of_not_fresh _ _ _ _ _ [] _ _ pass split same stays
  have further : script = earlier ++ (first ++ (.keep c :: last ++ later)) := by
    rw [split]
    simp
  have gone := pass.eq_nil_between further behind (startsSolid_cons.mpr solid)
    nothing
  exact ⟨last, by rw [gone]; rfl, rfl⟩

/-- A closing delimiter after a pass was one before. -/
theorem closes_of_after {earlier inner later : List Piece}
    (pass : Pass fixers script) (split : script = earlier ++ (inner ++ later))
    (closes : Closes (after inner)) : Closes (before inner) := by
  obtain ⟨front, rest, same⟩ := closes
  have percent : after inner = front ++ '%' :: ('>' :: rest) := by
    rw [← same]
    simp
  obtain ⟨first, last, rfl, -, lastEq⟩ :=
    pass.kept_of_not_fresh split percent Change.not_fresh_percent
  have further :
      script = (earlier ++ first ++ [.keep '%']) ++ (last ++ later) := by
    rw [split]
    simp
  have behind : EndsSolid (before (earlier ++ first ++ [.keep '%'])) := by
    rw [before_append, before_keep, before_nil, endsSolid_concat]
    decide
  obtain ⟨last, rfl, -⟩ := pass.keep_of_after further behind lastEq (by decide)
    Change.not_fresh_greater
  rw [before_append, before_keep, before_keep]
  exact closes_append _ _

/-! ## White space -/

/-- White space stays white space, and so does anything else. -/
theorem blank_after_iff {earlier inner later : List Piece}
    (pass : Pass fixers script) (split : script = earlier ++ (inner ++ later)) :
    (∀ c ∈ after inner, Character.isBlank c = true) ↔
      ∀ c ∈ before inner, Character.isBlank c = true := by
  have changes : ∀ {first old new last},
      inner = first ++ .swap old new :: last →
      ((∀ c ∈ old, Character.isBlank c = true) ∧
        ∀ c ∈ new, Character.isBlank c = true) ∨
      ∃ style mark : TrimMark, old = [mark.char] ∧ new = [style.char] ∧
        mark ≠ style := by
    rintro first old new last rfl
    rw [List.append_assoc, ← List.append_assoc] at split
    exact (pass.changes split).blank_or_mark
  constructor
  · intro blank c member
    obtain ⟨front, rest, same⟩ := List.append_of_mem member
    rcases kept_or_old same with
      ⟨first, last, innerEq, -⟩ | ⟨first, begun, left, new, last, innerEq, -⟩
    · exact blank c (by simp [innerEq])
    · rcases changes innerEq with ⟨oldBlank, -⟩ | ⟨style, -, -, rfl, -⟩
      · exact oldBlank c (by simp)
      · have solid := style.not_isBlank
        rw [blank style.char (by simp [innerEq])] at solid
        contradiction
  · intro blank c member
    obtain ⟨front, rest, same⟩ := List.append_of_mem member
    rcases kept_or_new same with
      ⟨first, last, innerEq, -⟩ | ⟨first, old, begun, left, last, innerEq, -⟩
    · exact blank c (by simp [innerEq])
    · rcases changes innerEq with ⟨-, newBlank⟩ | ⟨-, mark, rfl, -⟩
      · exact newBlank c (by simp)
      · have solid := mark.not_isBlank
        rw [blank mark.char (by simp [innerEq])] at solid
        contradiction

/-- White space of the text between two other characters. -/
structure Gap (script earlier inner later : List Piece) : Prop where
  split : script = earlier ++ (inner ++ later)
  behind : EndsSolid (before earlier)
  blank : ∀ c ∈ before inner, Character.isBlank c = true
  follows : StartsSolid (before later)

namespace Gap

variable {earlier inner later : List Piece}

theorem before_ne_nil (gap : Gap script earlier inner later) :
    before later ≠ [] := by
  obtain ⟨c, rest, same, -⟩ := gap.follows
  simp [same]

theorem further (gap : Gap script earlier inner later) {first last : List Piece}
    {piece : Piece} (innerEq : inner = first ++ piece :: last) :
    script = (earlier ++ first) ++ piece :: (last ++ later) := by
  rw [gap.split, innerEq]
  simp

/-- White space keeps its first newline. -/
theorem newline_after (pass : Pass fixers script)
    (gap : Gap script earlier inner later) (newline : '\n' ∈ before inner) :
    '\n' ∈ after inner := by
  obtain ⟨front, rest, same, first_newline⟩ := List.eq_append_cons_of_mem newline
  rcases kept_or_old same with
    ⟨first, last, rfl, -⟩ | ⟨first, begun, left, new, last, innerEq, frontEq, -⟩
  · simp
  · exfalso
    have change := pass.changes (gap.further innerEq)
    have some_rest : before (last ++ later) ≠ [] := by
      simp [gap.before_ne_nil]
    generalize oldEq : begun ++ '\n' :: left = old at change
    generalize before (last ++ later) = tail at change some_rest
    have member : '\n' ∈ old := by simp [← oldEq]
    cases change with
    | trailing _ trails =>
        exact not_newline_of_isSpaceOrTab (trails.blank _ member) rfl
    | indent _ _ indents =>
        exact not_newline_of_isSpaceOrTab (indents.blank _ member) rfl
    | extra _ exceeds =>
        obtain ⟨ahead, aheadEq⟩ := exceeds.concat
        obtain firstEq | ⟨middle, c, firstEq⟩ := (before first).eq_nil_or_concat'
        · have behind := gap.behind
          rw [before_append, firstEq, List.append_nil] at aheadEq
          rw [aheadEq, endsSolid_concat, isBlank_newline] at behind
          contradiction
        · rw [before_append, firstEq, ← List.append_assoc] at aheadEq
          obtain ⟨-, last_newline⟩ := List.append_inj' aheadEq rfl
          rw [frontEq, firstEq, List.singleton_inj.mp last_newline] at first_newline
          simp at first_newline
    | missing _ _ => exact some_rest rfl
    | unwanted _ _ _ => exact some_rest rfl
    | space tag _ misplaced =>
        exact (Change.separates_of_misplaced misplaced).inline member
    | mark style tag _ mismarks =>
        obtain ⟨mark, -, -, rfl⟩ := mismarks.mark
        have solid := mark.not_isBlank
        rw [← List.mem_singleton.mp member, isBlank_newline] at solid
        contradiction

/-- White space in a line is swapped for one space and as a whole. -/
theorem eq_of_swap {first last : List Piece} {old new : Text}
    (pass : Pass fixers script) (gap : Gap script earlier inner later)
    (inline : '\n' ∉ before inner)
    (innerEq : inner = first ++ .swap old new :: last) :
    before first = [] ∧ before last = [] ∧ old.length ≠ 1 ∧ new = [' '] := by
  have change := pass.changes (gap.further innerEq)
  have whole : before inner = before first ++ old ++ before last := by
    rw [innerEq]
    simp
  have blank := gap.blank
  have behind := gap.behind
  have follows := gap.follows
  rw [whole] at inline blank
  rw [before_append, before_append] at change
  have some_rest : before (last ++ later) ≠ [] := by
    simp [gap.before_ne_nil]
  rw [before_append] at some_rest
  generalize before first = front at *
  generalize before last = left at *
  have inOld : ∀ c ∈ old, c ∈ front ++ old ++ left := fun c member => by
    simp [member]
  have inline_left : '\n' ∉ left := fun member => inline (by simp [member])
  generalize restEq : left ++ before later = rest at change some_rest
  cases change with
  | trailing _ trails =>
      rw [← restEq] at trails
      exact absurd trails.closes (not_closesLine inline_left follows)
  | indent _ _ indents =>
      have inline_front : '\n' ∉ front := fun member => inline (by simp [member])
      exact absurd indents.starts (not_atLineStart inline_front behind)
  | extra _ exceeds =>
      obtain ⟨old, rfl⟩ := exceeds.cons
      exact absurd (inOld _ (.head _)) inline
  | missing _ _ => exact absurd rfl some_rest
  | unwanted _ _ _ => exact absurd rfl some_rest
  | space tag _ misplaced =>
      have separates := Change.separates_of_misplaced misplaced
      refine ⟨?_, ?_, separates.misfit, rfl⟩
      · by_contra some_front
        obtain ⟨c, member⟩ := List.exists_mem_of_ne_nil _ some_front
        exact EndsSolid.not_blank separates.behind member
          fun d inFront => blank d (by simp [inFront])
      · have starts : StartsSolid rest := separates.before
        cases left with
        | nil => rfl
        | cons c left =>
            rw [← restEq, List.cons_append, startsSolid_cons,
              blank c (by simp)] at starts
            contradiction
  | mark style tag _ mismarks =>
      obtain ⟨mark, -, -, rfl⟩ := mismarks.mark
      have solid := mark.not_isBlank
      rw [blank mark.char (inOld _ (.head _))] at solid
      contradiction

/-- White space in a line is kept or becomes one space. -/
theorem keeping_or_space (pass : Pass fixers script)
    (gap : Gap script earlier inner later) (inline : '\n' ∉ before inner) :
    inner = keeping (before inner) ∨
      (before inner).length ≠ 1 ∧ inner = [.swap (before inner) [' ']] := by
  by_cases swaps : ∃ first old new last, inner = first ++ .swap old new :: last
  · right
    obtain ⟨first, old, new, last, innerEq⟩ := swaps
    obtain ⟨noFirst, noLast, misfit, rfl⟩ := gap.eq_of_swap pass inline innerEq
    have firstEq : first = [] := by
      obtain nothing | ⟨first, piece, rfl⟩ := first.eq_nil_or_concat'
      · exact nothing
      · exfalso
        obtain ⟨new, rfl⟩ := eq_swap_of_before_eq_nil
          (List.append_eq_nil_iff.mp (before_append _ _ ▸ noFirst)).2
        have adjacent : script = (earlier ++ first) ++
            .swap [] new :: .swap old [' '] :: (last ++ later) := by
          rw [gap.further innerEq]
          simp
        exact pass.apart adjacent
    have lastEq : last = [] := by
      cases last with
      | nil => rfl
      | cons piece last =>
          exfalso
          obtain ⟨new, rfl⟩ := eq_swap_of_before_eq_nil
            (List.append_eq_nil_iff.mp
              (before_append [piece] last ▸ noLast)).1
          have innerEq' : inner = (first ++ [.swap old [' ']]) ++
              .swap [] new :: last := by
            rw [innerEq]
            simp
          obtain ⟨noBefore, -⟩ := gap.eq_of_swap pass inline innerEq'
          simp only [before_append, before_swap, before_nil, List.append_nil,
            List.append_eq_nil_iff] at noBefore
          have adjacent : script = (earlier ++ first) ++
              .swap [] [' '] :: .swap [] new :: (last ++ later) := by
            rw [gap.further innerEq, noBefore.2]
            simp
          exact pass.apart adjacent
    rw [innerEq, firstEq, lastEq]
    simpa using misfit
  · left
    apply eq_keeping
    intro first old new last innerEq
    exact swaps ⟨first, old, new, last, innerEq⟩

/-- What is left unaccepted was kept. -/
theorem keeping_of_unaccepted (pass : Pass fixers script)
    (gap : Gap script earlier inner later)
    (unaccepted : SpaceAroundErbTag.isAccepted (after inner) = false) :
    inner = keeping (before inner) := by
  obtain ⟨misfit, inline⟩ :=
    SpaceAroundErbTag.isAccepted_eq_false_iff.mp unaccepted
  have inlineBefore : '\n' ∉ before inner :=
    fun newline => inline (gap.newline_after pass newline)
  rcases gap.keeping_or_space pass inlineBefore with keeps | ⟨-, swaps⟩
  · exact keeps
  · rw [swaps] at misfit
    simp at misfit

end Gap

/-! ## Conflicts -/

/-- A change of white space that was kept conflicts with one that is made
directly behind it, and there was no white space. -/
theorem exists_swap_of_keeping {earlier later : List Piece} {c : Char}
    {spaces new : Text} (pass : Pass fixers script)
    (split : script = earlier ++ (keeping (c :: spaces) ++ later))
    (change : Change fixers (before earlier ++ [c]) spaces new (before later)) :
    spaces = [] ∧ ∃ old new last, later = .swap old new :: last := by
  have whole : before script = (before earlier ++ [c]) ++ spaces ++ before later := by
    rw [split]
    simp
  obtain ⟨ahead, old, new', rest, split', touches⟩ := pass.complete whole change
  rw [Touches, List.length_append, List.length_singleton] at touches
  rcases swap_of_keeping (split.symm.trans split') with
    ⟨middle, rfl⟩ | ⟨middle, rfl, rfl⟩
  · exfalso
    simp only [before_append, before_swap, List.length_append] at touches
    omega
  · simp only [before_append, before_keeping, List.length_append,
      List.length_cons] at touches
    have none_between : spaces = [] ∧ before middle = [] := by
      rw [← List.length_eq_zero_iff, ← List.length_eq_zero_iff]
      omega
    refine ⟨none_between.1, ?_⟩
    cases middle with
    | nil => exact ⟨old, new', rest, rfl⟩
    | cons piece middle =>
        obtain ⟨new'', rfl⟩ := eq_swap_of_before_eq_nil
          (List.append_eq_nil_iff.mp
            (before_append [piece] middle ▸ none_between.2)).1
        exact ⟨[], new'', _, rfl⟩

/-- A change of a single character that was kept conflicts with an insertion
directly in front of it. -/
theorem exists_insertion_of_kept {earlier later : List Piece} {c : Char}
    {new : Text} (pass : Pass fixers script)
    (split : script = earlier ++ (keeping [c] ++ later))
    (change : Change fixers (before earlier) [c] new (before later)) :
    ∃ ahead new', earlier = ahead ++ [.swap [] new'] := by
  have whole : before script = before earlier ++ [c] ++ before later := by
    rw [split]
    simp
  obtain ⟨ahead, old, new', rest, split', touches⟩ := pass.complete whole change
  rw [Touches, List.length_singleton] at touches
  rcases swap_of_keeping (split.symm.trans split') with
    ⟨middle, rfl⟩ | ⟨middle, rfl, rfl⟩
  · simp only [before_append, before_swap, List.length_append] at touches
    have nothing : old = [] ∧ before middle = [] := by
      rw [← List.length_eq_zero_iff, ← List.length_eq_zero_iff]
      omega
    obtain ⟨rfl, noMiddle⟩ := nothing
    cases middle with
    | nil => exact ⟨ahead, new', rfl⟩
    | cons piece middle =>
        exfalso
        obtain ⟨new'', rfl⟩ := eq_swap_of_before_eq_nil
          (List.append_eq_nil_iff.mp
            (before_append [piece] middle ▸ noMiddle)).1
        rw [List.append_assoc] at split
        exact pass.apart split
  · exfalso
    simp only [before_append, before_keeping, List.length_append,
      List.length_singleton] at touches
    omega

end Pass

end TemplateLint
