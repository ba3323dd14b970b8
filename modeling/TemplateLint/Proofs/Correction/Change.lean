import TemplateLint.Proofs.Linter.Newlines
import TemplateLint.Proofs.Linter.TagStyle

/-!
# Changes that built-in linters propose

Every correction of a built-in linter replaces a part of a text by another
one, and where it does so depends on what stands in front of the part and
behind it.  All changes but those of trim marks replace white space by white
space.
-/

namespace TemplateLint

open Text

/-- The correcting linters at work, with their options. -/
structure Fixers where
  finalNewline : Option Bool
  rightTrim : Option TrimMark
  spaceAroundErbTag : Bool
  spaceIndentation : Option Nat
  trailingWhitespace : Bool
  extraNewline : Bool
  positive : ∀ width, spaceIndentation = some width → 0 < width

/-- A change between what stands in front of it and behind it: the old part and
the new one. -/
inductive Change (fixers : Fixers) : Text → Text → Text → Text → Prop where
  | trailing {front old rest : Text} (active : fixers.trailingWhitespace = true)
      (trails : TrailingWhitespace.Trails front old rest) :
      Change fixers front old [] rest
  | indent {front old rest : Text} (width : Nat)
      (active : fixers.spaceIndentation = some width)
      (indents : SpaceIndentation.Indents front old rest) :
      Change fixers front old (SpaceIndentation.expandTabs width 0 old) rest
  | extra {front old rest : Text} (active : fixers.extraNewline = true)
      (exceeds : ExtraNewline.Exceeds front old rest) :
      Change fixers front old [] rest
  | missing {front : Text} (active : fixers.finalNewline = some true)
      (lacks : FinalNewline.Lacks front) :
      Change fixers front [] ['\n'] []
  | unwanted {front old : Text} (present : Bool)
      (active : fixers.finalNewline = some present)
      (unwanted : FinalNewline.Unwanted present front old) :
      Change fixers front old [] []
  | space {front old rest : Text} (tag : Tag)
      (active : fixers.spaceAroundErbTag = true)
      (misplaced : SpaceAroundErbTag.Leads tag front old rest ∨
        SpaceAroundErbTag.Ends tag front old rest) :
      Change fixers front old [' '] rest
  | mark {front old rest : Text} (style : TrimMark) (tag : Tag)
      (active : fixers.rightTrim = some style)
      (mismarks : RightTrim.Mismarks style tag front old rest) :
      Change fixers front old [style.char] rest

/-! ## White space and other characters -/

theorem isBlank_newline : Character.isBlank '\n' = true := by decide

theorem isBlank_return : Character.isBlank '\r' = true := by decide

theorem TrimMark.not_isBlank (mark : TrimMark) :
    Character.isBlank mark.char = false := by
  cases mark <;> decide

theorem TrimMark.char_injective {mark mark' : TrimMark}
    (same : mark.char = mark'.char) : mark = mark' := by
  cases mark <;> cases mark' <;> first | rfl | contradiction

/-- A character that is not white space is neither a space nor a tab. -/
theorem not_isSpaceOrTab_of_solid {c : Char}
    (solid : Character.isBlank c = false) : isSpaceOrTab c = false := by
  cases blank : isSpaceOrTab c with
  | false => rfl
  | true =>
      rw [isBlank_of_isSpaceOrTab blank] at solid
      contradiction

theorem not_newline_of_solid {c : Char} (solid : Character.isBlank c = false) :
    c ≠ '\n' := by
  rintro rfl
  rw [isBlank_newline] at solid
  contradiction

theorem Text.ClosesLine.first {c : Char} {rest : Text}
    (closes : ClosesLine (c :: rest)) : c = '\n' ∨ c = '\r' := by
  rcases closes with ends | ⟨later, same, -⟩
  · exact .inl (atLineEnd_cons.mp ends)
  · rw [List.cons.injEq] at same
    exact .inr same.1

theorem Text.ClosesLine.not_isSpaceOrTab {c : Char} {rest : Text}
    (closes : ClosesLine (c :: rest)) : isSpaceOrTab c = false := by
  rcases closes.first with rfl | rfl <;> rfl

theorem Text.ClosesLine.isBlank {c : Char} {rest : Text}
    (closes : ClosesLine (c :: rest)) : Character.isBlank c = true := by
  rcases closes.first with rfl | rfl <;> decide

namespace SpaceIndentation

theorem Indents.inhabited {front old rest : Text}
    (indents : Indents front old rest) : old ≠ [] :=
  List.ne_nil_of_mem indents.tabbed

/-- Expanded blanks are spaces. -/
theorem eq_space_of_mem_expandTabs {width column : Nat} {blanks : Text} {c : Char}
    (blank : ∀ c ∈ blanks, isSpaceOrTab c = true)
    (member : c ∈ expandTabs width column blanks) : c = ' ' := by
  induction blanks generalizing column with
  | nil => simp [expandTabs] at member
  | cons d blanks induction =>
      have later : ∀ c ∈ blanks, isSpaceOrTab c = true :=
        fun c inLater => blank c (.tail _ inLater)
      rw [expandTabs] at member
      split at member
      · rcases List.mem_append.mp member with spaces | rest
        · exact List.eq_of_mem_replicate spaces
        · exact induction later rest
      · rename_i other
        rcases List.mem_cons.mp member with rfl | rest
        · have here := blank c (.head _)
          simpa [isSpaceOrTab, other] using here
        · exact induction later rest

/-- Expanding leaves something. -/
theorem expandTabs_ne_nil {width : Nat} {blanks : Text} (positive : 0 < width)
    (some_blanks : blanks ≠ []) : expandTabs width 0 blanks ≠ [] := by
  cases blanks with
  | nil => exact absurd rfl some_blanks
  | cons c blanks =>
      rw [expandTabs]
      split
      · intro nothing
        rw [List.append_eq_nil_iff, List.replicate_eq_nil_iff, Nat.zero_mod,
          Nat.sub_zero] at nothing
        omega
      · exact List.cons_ne_nil _ _

end SpaceIndentation

namespace ExtraNewline.Exceeds

variable {front old rest : Text}

theorem concat (exceeds : Exceeds front old rest) :
    ∃ earlier, front = earlier ++ ['\n'] := by
  obtain ⟨earlier, rfl, -⟩ := exceeds.behindTwo
  exact ⟨earlier ++ ['\n'], by simp⟩

theorem cons (exceeds : Exceeds front old rest) :
    ∃ later, old = '\n' :: later := by
  cases old with
  | nil => exact absurd rfl exceeds.inhabited
  | cons c later => exact ⟨later, by rw [exceeds.newlines c (.head _)]⟩

end ExtraNewline.Exceeds

theorem FinalNewline.Unwanted.cons {present : Bool} {front old : Text}
    (unwanted : Unwanted present front old) : ∃ later, old = '\n' :: later := by
  cases old with
  | nil => exact absurd rfl unwanted.inhabited
  | cons c later => exact ⟨later, by rw [unwanted.newlines c (.head _)]⟩

/-! ## What changes replace -/

namespace Change

variable {fixers : Fixers} {front old new rest : Text}

/-- White space that is changed around code lies in a line between two other
characters. -/
theorem separates_of_misplaced {tag : Tag}
    (misplaced : SpaceAroundErbTag.Leads tag front old rest ∨
      SpaceAroundErbTag.Ends tag front old rest) :
    SpaceAroundErbTag.Separates front old rest := by
  rcases misplaced with leads | ends
  · exact leads.separates
  · exact ends.separates

/-- A change either replaces white space by white space or a trim mark by
another one. -/
theorem blank_or_mark (change : Change fixers front old new rest) :
    ((∀ c ∈ old, Character.isBlank c = true) ∧
      ∀ c ∈ new, Character.isBlank c = true) ∨
    ∃ style mark : TrimMark, old = [mark.char] ∧ new = [style.char] ∧
      mark ≠ style := by
  cases change with
  | trailing _ trails =>
      left
      exact ⟨fun c member => isBlank_of_isSpaceOrTab (trails.blank c member),
        by simp⟩
  | indent width _ indents =>
      left
      refine ⟨fun c member => isBlank_of_isSpaceOrTab (indents.blank c member), ?_⟩
      intro c member
      rw [SpaceIndentation.eq_space_of_mem_expandTabs indents.blank member]
      decide
  | extra _ exceeds =>
      left
      refine ⟨?_, by simp⟩
      intro c member
      rw [exceeds.newlines c member]
      exact isBlank_newline
  | missing _ _ =>
      left
      simp [isBlank_newline]
  | unwanted _ _ unwanted =>
      left
      refine ⟨?_, by simp⟩
      intro c member
      rw [unwanted.newlines c member]
      exact isBlank_newline
  | space tag _ misplaced =>
      left
      refine ⟨(separates_of_misplaced misplaced).blank, ?_⟩
      intro c member
      rw [List.mem_singleton.mp member]
      decide
  | mark style tag _ mismarks =>
      right
      obtain ⟨mark, -, differs, rfl⟩ := mismarks.mark
      exact ⟨style, mark, rfl, rfl, differs⟩

/-- Trim marks are swapped for the style that is enforced. -/
theorem rightTrim_of_mark {own style : TrimMark}
    (change : Change fixers front [own.char] [style.char] rest) :
    fixers.rightTrim = some style ∧ own ≠ style := by
  have notSpace : style.char ≠ ' ' := by cases style <;> decide
  generalize oldEq : [own.char] = old at change
  generalize newEq : [style.char] = new at change
  cases change with
  | trailing _ _ => contradiction
  | indent width _ indents =>
      have member : style.char ∈ SpaceIndentation.expandTabs width 0 old := by
        rw [← newEq]
        exact .head _
      exact absurd
        (SpaceIndentation.eq_space_of_mem_expandTabs indents.blank member) notSpace
  | extra _ _ => contradiction
  | missing _ _ => contradiction
  | unwanted _ _ _ => contradiction
  | space _ _ _ => exact absurd (List.singleton_inj.mp newEq) notSpace
  | mark style' tag active mismarks =>
      obtain ⟨mark, -, differs, rfl⟩ := mismarks.mark
      have sameOwn := TrimMark.char_injective (List.singleton_inj.mp oldEq)
      have sameStyle := TrimMark.char_injective (List.singleton_inj.mp newEq)
      rw [sameOwn, sameStyle]
      exact ⟨active, differs⟩

/-- A character that a change can bring in. -/
def Fresh (c : Char) : Prop :=
  c = ' ' ∨ c = '\n' ∨ ∃ style : TrimMark, c = style.char

theorem fresh_of_mem (change : Change fixers front old new rest) {c : Char}
    (member : c ∈ new) : Fresh c := by
  cases change with
  | trailing _ _ => simp at member
  | indent width _ indents =>
      exact .inl (SpaceIndentation.eq_space_of_mem_expandTabs indents.blank member)
  | extra _ _ => simp at member
  | missing _ _ => exact .inr (.inl (List.mem_singleton.mp member))
  | unwanted _ _ _ => simp at member
  | space _ _ _ => exact .inl (List.mem_singleton.mp member)
  | mark style _ _ _ => exact .inr (.inr ⟨style, List.mem_singleton.mp member⟩)

theorem not_fresh_of_ne {c : Char} (space : c ≠ ' ') (newline : c ≠ '\n')
    (dash : c ≠ '-') (equals : c ≠ '=') : ¬Fresh c := by
  rintro (same | same | ⟨style, same⟩)
  · exact space same
  · exact newline same
  · cases style with
    | dash => exact dash same
    | equals => exact equals same

theorem not_fresh_tab : ¬Fresh '\t' :=
  not_fresh_of_ne (by decide) (by decide) (by decide) (by decide)

theorem not_fresh_return : ¬Fresh '\r' :=
  not_fresh_of_ne (by decide) (by decide) (by decide) (by decide)

theorem not_fresh_percent : ¬Fresh '%' :=
  not_fresh_of_ne (by decide) (by decide) (by decide) (by decide)

theorem not_fresh_greater : ¬Fresh '>' :=
  not_fresh_of_ne (by decide) (by decide) (by decide) (by decide)

end Change

end TemplateLint
