import TemplateLint.Proofs.Text.Lines

/-!
# Positions, lines and columns

The line of a position is told by the newlines in front of it.  Halving finds
this line, because the lines that begin at or before a position are the first
ones.  Together with the range of the line, the column gives the position back.
-/

namespace TemplateLint.Text

/-! ## Lines by what stands around them -/

/-- A numbered line of a text, with the text in front of it and behind it. -/
structure IsLine (text : Text) (number : Nat) (front line rest : Text) :
    Prop where
  parts : text = front ++ line ++ rest
  starts : AtLineStart front
  single : '\n' ∉ line
  ends : AtLineEnd rest
  number_eq : number = front.count '\n' + 1

theorem length_lines (text : Text) :
    (lines text).length = text.count '\n' + 1 := by
  induction text using lines_induction with
  | last line single =>
      rw [lines_of_not_mem single, List.count_eq_zero_of_not_mem single]
      rfl
  | more line rest single induction =>
      rw [lines_append rest single, List.length_cons, induction,
        List.count_append, List.count_eq_zero_of_not_mem single,
        List.count_cons_self]
      omega

theorem exists_isLine {text : Text} {number : Nat} (positive : 1 ≤ number)
    (within : number ≤ (lines text).length) :
    ∃ front line rest, IsLine text number front line rest := by
  induction text using lines_induction generalizing number with
  | last line single =>
      rw [lines_of_not_mem single, List.length_singleton] at within
      have first : number = 1 := Nat.le_antisymm within positive
      exact ⟨[], line, [], by simp, lastIs_nil, single, firstIs_nil, first⟩
  | more line rest single induction =>
      rw [lines_append rest single, List.length_cons] at within
      by_cases first : number = 1
      · exact ⟨[], line, '\n' :: rest, by simp, lastIs_nil, single,
          firstIs_cons.mpr rfl, first⟩
      · obtain ⟨front, later, behind, isLine⟩ :=
          @induction (number - 1) (by omega) (by omega)
        refine ⟨line ++ '\n' :: front, later, behind, ?_, ?_, isLine.single,
          isLine.ends, ?_⟩
        · simp [isLine.parts]
        · exact atLineStart_append_newline.mpr isLine.starts
        · have before := isLine.number_eq
          rw [List.count_append, List.count_eq_zero_of_not_mem single,
            List.count_cons_self]
          omega

section IsLine

variable {text front line rest : Text} {number : Nat}

/-- In front of a line stands nothing or a newline. -/
theorem AtLineStart.eq_nil_or_concat (starts : AtLineStart front) :
    front = [] ∨ ∃ before, front = before ++ ['\n'] := by
  obtain rfl | ⟨before, c, rfl⟩ := front.eq_nil_or_concat'
  · exact .inl rfl
  · rw [atLineStart_concat] at starts
    exact .inr ⟨before, by rw [starts]⟩

theorem IsLine.lines_eq (isLine : IsLine text number front line rest) :
    (lines text)[number - 1]? = some line := by
  obtain ⟨rfl, starts, single, ends, rfl⟩ := isLine
  have first : (lines (line ++ rest))[0]? = some line := by
    cases rest with
    | nil =>
        rw [List.append_nil, lines_of_not_mem single]
        rfl
    | cons c rest =>
        rw [atLineEnd_cons] at ends
        rw [ends, lines_append rest single]
        rfl
  obtain rfl | ⟨before, rfl⟩ := starts.eq_nil_or_concat
  · simpa using first
  · have newlines : ((before ++ ['\n']).count '\n' + 1) - 1 =
        (lines before).length := by
      rw [length_lines, List.count_append, List.count_singleton_self,
        Nat.add_sub_cancel]
    rw [newlines, List.append_assoc, List.append_assoc, List.singleton_append,
      lines_append_newline, List.getElem?_append_right (Nat.le_refl _),
      Nat.sub_self]
    exact first

/-! ## Where lines begin -/

/-- Behind every newline begins a line. -/
theorem startsAfterNewlines_append_newline (position : Nat)
    (before behind : Text) :
    (startsAfterNewlines position (before ++ '\n' :: behind))[before.count '\n']? =
      some (position + before.length + 1) := by
  induction before generalizing position with
  | nil => simp [startsAfterNewlines]
  | cons c before induction =>
      rw [List.cons_append, startsAfterNewlines, List.length_cons]
      by_cases newline : c = '\n'
      · rw [if_pos newline, newline, List.count_cons_self,
          List.getElem?_cons_succ, induction]
        congr 1
        omega
      · rw [if_neg newline, List.count_cons_of_ne newline, induction]
        congr 1
        omega

/-- A line begins where the text in front of it ends. -/
theorem IsLine.lineStarts_eq (isLine : IsLine text number front line rest) :
    (lineStarts text)[number - 1]? = some front.length := by
  obtain ⟨rfl, starts, single, ends, rfl⟩ := isLine
  obtain rfl | ⟨before, rfl⟩ := starts.eq_nil_or_concat
  · rfl
  · rw [List.count_append, List.count_singleton_self, Nat.add_sub_cancel,
      lineStarts, List.getElem?_cons_succ, List.append_assoc, List.append_assoc,
      List.singleton_append, startsAfterNewlines_append_newline]
    simp

theorem IsLine.lineRange?_eq (isLine : IsLine text number front line rest) :
    lineRange? text number =
      some ((front.length : Int), (front.length + line.length : Int)) := by
  have positive : 1 ≤ number := by
    have number_eq := isLine.number_eq
    omega
  have index : (number : Int) - 1 = (number - 1 : Nat) := by omega
  have entry {α : Type} (items : List α) :
      entry? items ((number : Int) - 1) = items[number - 1]? := by
    rw [index, entry?, if_pos (Int.natCast_nonneg _), Int.toNat_natCast]
  rw [lineRange?, entry, entry, isLine.lineStarts_eq, isLine.lines_eq]
  rfl

end IsLine

/-! ## Newlines in front of a position -/

/-- How many newlines precede a position. -/
def newlinesBefore (text : Text) (position : Int) : Nat :=
  (text.take position.toNat).count '\n'

theorem newlinesBefore_le (text : Text) (position : Int) :
    newlinesBefore text position ≤ text.count '\n' :=
  (List.take_sublist _ _).count_le _

theorem newlinesBefore_mono (text : Text) {first second : Int}
    (ordered : first ≤ second) :
    newlinesBefore text first ≤ newlinesBefore text second := by
  apply List.Sublist.count_le
  apply List.IsPrefix.sublist
  exact List.take_prefix_take_left (Int.toNat_le_toNat ordered)

theorem newlinesBefore_of_neg (text : Text) {position : Int}
    (negative : position < 0) : newlinesBefore text position = 0 := by
  rw [newlinesBefore, Int.toNat_of_nonpos (Int.le_of_lt negative)]
  rfl

theorem newlinesBefore_of_length_le (text : Text) {position : Int}
    (behind : (text.length : Int) ≤ position) :
    newlinesBefore text position = text.count '\n' := by
  rw [newlinesBefore, List.take_of_length_le (by omega)]

/-- A line has begun at a position if its newline stands in front of it. -/
theorem startsAfterNewlines_le_iff {base index start : Nat} {text : Text}
    (entry : (startsAfterNewlines base text)[index]? = some start)
    (position : Nat) :
    start ≤ base + position ↔ index < (text.take position).count '\n' := by
  induction text generalizing base index position with
  | nil => simp [startsAfterNewlines] at entry
  | cons c text induction =>
      rw [startsAfterNewlines] at entry
      by_cases newline : c = '\n'
      · rw [if_pos newline] at entry
        cases index with
        | zero =>
            rw [List.getElem?_cons_zero, Option.some.injEq] at entry
            cases position with
            | zero => simp [← entry]
            | succ position =>
                rw [List.take_succ_cons, newline, List.count_cons_self]
                omega
        | succ index =>
            rw [List.getElem?_cons_succ] at entry
            cases position with
            | zero =>
                have later := induction entry 0
                simp at later ⊢
                omega
            | succ position =>
                have later := induction entry position
                rw [List.take_succ_cons, newline, List.count_cons_self]
                omega
      · rw [if_neg newline] at entry
        cases position with
        | zero =>
            have later := induction entry 0
            simp at later ⊢
            omega
        | succ position =>
            have later := induction entry position
            rw [List.take_succ_cons, List.count_cons_of_ne newline]
            omega

/-- Of the lines behind the first, those that begin at or before a position
are as many as the newlines in front of it. -/
theorem lineStarts_le_iff {text : Text} {index start : Nat} {position : Int}
    (entry : (lineStarts text)[index]? = some start) (later : 0 < index) :
    (start : Int) ≤ position ↔ index ≤ newlinesBefore text position := by
  obtain ⟨index, rfl⟩ := Nat.exists_eq_succ_of_ne_zero (Nat.ne_of_gt later)
  rw [lineStarts, List.getElem?_cons_succ] at entry
  by_cases negative : position < 0
  · rw [newlinesBefore_of_neg text negative]
    omega
  · have within := startsAfterNewlines_le_iff entry position.toNat
    rw [newlinesBefore]
    omega

/-! ## Halving -/

/-- Halving finds the last line that has begun, if all lines up to it have and
none behind it has. -/
theorem lastBegun_eq {starts : Array Nat} {position : Int}
    {low high last : Fin starts.size}
    (begun : ∀ line, low < line → (starts[line] ≤ position ↔ line ≤ last))
    (atLeast : low ≤ last) (atMost : last ≤ high) :
    lastBegun starts position low high = last := by
  fun_induction lastBegun starts position low high with
  | case1 low high less middle isBegun induction =>
      have behindLow : low < middle := by
        rw [Fin.lt_def]
        simp only [middle]
        omega
      apply induction
      · exact fun line behind => begun line (Fin.lt_trans behindLow behind)
      · exact (begun middle behindLow).mp isBegun
      · exact atMost
  | case2 low high less middle notBegun induction =>
      have behindLow : low < middle := by
        rw [Fin.lt_def]
        simp only [middle]
        omega
      have notLast : ¬middle ≤ last :=
        fun before => notBegun ((begun middle behindLow).mpr before)
      apply induction begun atLeast
      rw [Fin.le_def] at notLast ⊢
      simp only
      omega
  | case3 low high notLess =>
      rw [Fin.lt_def] at notLess
      rw [Fin.le_def] at atLeast atMost
      apply Fin.ext
      omega

theorem lineAndColumn_eq {text : Text} {position : Int} {start : Nat}
    (entry : (lineStarts text)[newlinesBefore text position]? = some start) :
    lineAndColumn text position =
      (newlinesBefore text position + 1, position - start) := by
  obtain ⟨inside, startEq⟩ := List.getElem?_eq_some_iff.mp entry
  have found : lastBegun text.lineTable.starts position
      ⟨0, text.lineTable.begins⟩
      ⟨text.lineTable.starts.size - 1,
        Nat.sub_one_lt_of_lt text.lineTable.begins⟩ =
        ⟨newlinesBefore text position, inside⟩ := by
    apply lastBegun_eq
    · intro line later
      have lineEntry : (lineStarts text)[line.val]? =
          some text.lineTable.starts[line] :=
        List.getElem?_eq_some_iff.mpr ⟨line.isLt, rfl⟩
      exact lineStarts_le_iff lineEntry later
    · exact Nat.zero_le _
    · exact Nat.le_sub_one_of_lt inside
  simp only [lineAndColumn, LineTable.place, found]
  rw [← startEq]
  rfl

/-- Every position belongs to the line behind the newlines in front of it, and
its column counts from the start of this line. -/
theorem exists_isLine_lineAndColumn (text : Text) (position : Int) :
    ∃ front line rest,
      IsLine text (newlinesBefore text position + 1) front line rest ∧
      lineAndColumn text position =
        (newlinesBefore text position + 1, position - front.length) := by
  have within : newlinesBefore text position + 1 ≤ (lines text).length := by
    rw [length_lines]
    exact Nat.succ_le_succ (newlinesBefore_le text position)
  obtain ⟨front, line, rest, isLine⟩ :=
    exists_isLine (Nat.le_add_left 1 _) within
  exact ⟨front, line, rest, isLine, lineAndColumn_eq isLine.lineStarts_eq⟩

/-! ## Positions of a line -/

section IsLine

variable {text front line rest : Text} {number : Nat}

theorem IsLine.newlinesBefore_eq_iff
    (isLine : IsLine text number front line rest) {position : Int}
    (nonnegative : 0 ≤ position) (within : position ≤ text.length) :
    newlinesBefore text position + 1 = number ↔
      (front.length : Int) ≤ position ∧
        position ≤ (front.length + line.length : Int) := by
  obtain ⟨position, rfl⟩ := Int.eq_ofNat_of_zero_le nonnegative
  obtain ⟨rfl, starts, single, ends, rfl⟩ := isLine
  simp only [newlinesBefore, Int.toNat_natCast, Nat.add_right_cancel_iff,
    Int.ofNat_le] at within ⊢
  constructor
  · intro same
    constructor
    · by_contra before
      obtain rfl | ⟨ahead, rfl⟩ := starts.eq_nil_or_concat
      · exact before (Nat.zero_le _)
      · have shorter : position ≤ ahead.length := by
          rw [List.length_append, List.length_singleton] at before
          omega
        have fewer : (ahead.take position).count '\n' ≤ ahead.count '\n' :=
          (List.take_sublist _ _).count_le _
        rw [List.append_assoc, List.append_assoc,
          List.take_append_of_le_length shorter, List.count_append,
          List.count_singleton_self] at same
        omega
    · by_contra behind
      cases rest with
      | nil =>
          simp only [List.append_nil, List.length_append] at within behind
          omega
      | cons c rest =>
          rw [atLineEnd_cons] at ends
          have longer : (front ++ line ++ [c]).length ≤ position := by
            simp only [List.length_append, List.length_singleton] at behind ⊢
            omega
          rw [List.append_cons, List.take_append,
            List.take_of_length_le longer, ends] at same
          simp only [List.count_append, List.count_singleton_self] at same
          omega
  · rintro ⟨atLeast, atMost⟩
    have outside : '\n' ∉ line.take (position - front.length) :=
      fun member => single (List.mem_of_mem_take member)
    rw [List.take_append_of_le_length
        (by rw [List.length_append]; exact_mod_cast atMost),
      List.take_append, List.take_of_length_le atLeast, List.count_append,
      List.count_eq_zero_of_not_mem outside, Nat.add_zero]

/-- Exactly the positions from the start of a line to its end have its number
and count their columns from its start. -/
theorem IsLine.lineAndColumn_eq_iff
    (isLine : IsLine text number front line rest) {position : Int}
    (nonnegative : 0 ≤ position) (within : position ≤ text.length) :
    lineAndColumn text position = (number, position - front.length) ↔
      (front.length : Int) ≤ position ∧
        position ≤ (front.length + line.length : Int) := by
  rw [← isLine.newlinesBefore_eq_iff nonnegative within]
  obtain ⟨ahead, _, _, found, place⟩ := exists_isLine_lineAndColumn text position
  rw [place]
  constructor
  · exact congrArg Prod.fst
  · intro same
    have startEq : ahead.length = front.length := by
      have entry := isLine.lineStarts_eq
      rw [← same, found.lineStarts_eq] at entry
      exact Option.some.inj entry
    rw [same, startEq]

end IsLine

/-! ## Back to positions -/

/-- The position of a column in a numbered line. -/
def positionAt? (text : Text) (line column : Int) : Option Int :=
  (lineRange? text line).map fun range => range.1 + column

theorem positionAt?_lineAndColumn (text : Text) (position : Int) :
    positionAt? text (lineAndColumn text position).1
      (lineAndColumn text position).2 = some position := by
  obtain ⟨front, line, rest, isLine, place⟩ :=
    exists_isLine_lineAndColumn text position
  rw [place, positionAt?, isLine.lineRange?_eq, Option.map_some,
    Option.some.injEq]
  change (front.length : Int) + (position - front.length) = position
  omega

end TemplateLint.Text

namespace TemplateLint.Source

open Text

/-- A place is not behind another. -/
def NotBehind (line column lastLine lastColumn : Int) : Prop :=
  line < lastLine ∨ line = lastLine ∧ column ≤ lastColumn

theorem notBehind_lineAndColumn (text : Text) {first second : Int}
    (ordered : first ≤ second) :
    NotBehind (lineAndColumn text first).1 (lineAndColumn text first).2
      (lineAndColumn text second).1 (lineAndColumn text second).2 := by
  obtain ⟨front, _, _, isLine, place⟩ := exists_isLine_lineAndColumn text first
  obtain ⟨frontBehind, _, _, isLineBehind, placeBehind⟩ :=
    exists_isLine_lineAndColumn text second
  rw [place, placeBehind]
  rcases Nat.lt_or_eq_of_le (newlinesBefore_mono text ordered) with fewer | same
  · left
    exact_mod_cast Nat.succ_lt_succ fewer
  · right
    have startEq : front.length = frontBehind.length := by
      have entry := isLine.lineStarts_eq
      rw [same, isLineBehind.lineStarts_eq] at entry
      exact (Option.some.inj entry).symm
    refine ⟨by rw [same], ?_⟩
    rw [startEq]
    exact Int.sub_le_sub_right ordered _

theorem range_eq_ok_iff {source : Source} {beginPos endPos : Int}
    {range : SourceRange} :
    source.range beginPos endPos = .ok range ↔
      (0 ≤ beginPos ∧ beginPos ≤ endPos ∧
        endPos ≤ source.content.length) ∧
      range = ⟨beginPos, endPos,
        (lineAndColumn source.content beginPos).1,
        (lineAndColumn source.content beginPos).2,
        (lineAndColumn source.content endPos).1,
        (lineAndColumn source.content endPos).2⟩ := by
  rw [Source.range, rangeWithin]
  by_cases inside : 0 ≤ beginPos ∧ beginPos ≤ endPos ∧
      endPos ≤ source.lineTable.size
  · rw [if_pos inside, Except.ok.injEq, eq_comm]
    exact (and_iff_right inside).symm
  · rw [if_neg inside]
    exact iff_of_false (by simp) fun both => inside both.1

/-- Positions and lines of a source are two views of the same.  The line of a
position is the number of newlines in front of it and one more: the first line
for positions before the text, the last line for those behind it; and the
column is the distance from the start of this line.  Every numbered line
stands in the text between the ends of its range, has no newline and is
followed by one or by the end; exactly the positions from its start to its end
have its number.  There is a range between two positions if and only if they
lie in order inside the text; its beginning is not behind its end as lines and
columns either, and these give back both positions. -/
theorem positions_and_lines (source : Source) :
    (∀ position,
      (lineAndColumn source.content position).1 =
        1 + newlinesBefore source.content position ∧
      ∃ start stop,
        lineRange? source.content (lineAndColumn source.content position).1 =
          some (start, stop) ∧
        (lineAndColumn source.content position).2 = position - start) ∧
    (∀ position < 0, (lineAndColumn source.content position).1 = 1) ∧
    (∀ position ≥ (source.content.length : Int),
      (lineAndColumn source.content position).1 =
        (lines source.content).length) ∧
    (∀ number : Nat, 1 ≤ number → number ≤ (lines source.content).length →
      ∃ front line rest,
        source.content = front ++ line ++ rest ∧
        lineRange? source.content number =
          some ((front.length : Int), (front.length + line.length : Int)) ∧
        (lines source.content)[number - 1]? = some line ∧
        '\n' ∉ line ∧ AtLineEnd rest ∧
        ∀ position : Int, 0 ≤ position → position ≤ source.content.length →
          (lineAndColumn source.content position =
              (number, position - front.length) ↔
            (front.length : Int) ≤ position ∧
              position ≤ (front.length + line.length : Int))) ∧
    (∀ beginPos endPos,
      (∃ range, source.range beginPos endPos = .ok range) ↔
        0 ≤ beginPos ∧ beginPos ≤ endPos ∧ endPos ≤ source.content.length) ∧
    ∀ beginPos endPos range, source.range beginPos endPos = .ok range →
      NotBehind range.line range.column range.lastLine range.lastColumn ∧
      positionAt? source.content range.line range.column = some beginPos ∧
      positionAt? source.content range.lastLine range.lastColumn =
        some endPos := by
  have lineOf (position : Int) :
      (lineAndColumn source.content position).1 =
        1 + newlinesBefore source.content position := by
    obtain ⟨_, _, _, _, place⟩ :=
      exists_isLine_lineAndColumn source.content position
    rw [place, Nat.add_comm]
  refine ⟨?_, ?_, ?_, ?_, ?_, ?_⟩
  · intro position
    obtain ⟨front, line, rest, isLine, place⟩ :=
      exists_isLine_lineAndColumn source.content position
    refine ⟨lineOf position, front.length, front.length + line.length, ?_, ?_⟩
    · rw [place]
      exact isLine.lineRange?_eq
    · rw [place]
  · intro position negative
    rw [lineOf, newlinesBefore_of_neg _ negative]
  · intro position behind
    rw [lineOf, newlinesBefore_of_length_le _ behind, length_lines,
      Nat.add_comm]
  · intro number positive within
    obtain ⟨front, line, rest, isLine⟩ := exists_isLine positive within
    exact ⟨front, line, rest, isLine.parts, isLine.lineRange?_eq,
      isLine.lines_eq, isLine.single, isLine.ends,
      fun _ => isLine.lineAndColumn_eq_iff⟩
  · intro beginPos endPos
    constructor
    · rintro ⟨range, found⟩
      exact (range_eq_ok_iff.mp found).1
    · intro inside
      exact ⟨_, range_eq_ok_iff.mpr ⟨inside, rfl⟩⟩
  · intro beginPos endPos range found
    obtain ⟨⟨_, ordered, _⟩, rfl⟩ := range_eq_ok_iff.mp found
    exact ⟨notBehind_lineAndColumn _ ordered, positionAt?_lineAndColumn _ _,
      positionAt?_lineAndColumn _ _⟩

example : (Source.mk "a.html.erb" "ab\n\nc").range 1 4 =
    .ok ⟨1, 4, 1, 1, 3, 0⟩ := by
  decide

end TemplateLint.Source
