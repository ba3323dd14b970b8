import Mathlib.Data.List.Basic
import Mathlib.Data.List.TakeWhile
import TemplateLint.Linter.LineSpaces
import TemplateLint.Proofs.Text.Parts

/-!
# Where lines begin and end

A line of a text is a part without a newline that begins at the start of the
text or behind a newline and ends at the end of the text or before a newline.
The module also has the tests on the first and the last character of a text
that describe where findings begin and end.
-/

namespace TemplateLint.Text

/-- The first character of a text, if there is one, passes a test. -/
def FirstIs (test : Char → Prop) (text : Text) : Prop :=
  ∀ c ∈ text.head?, test c

/-- The last character of a text, if there is one, passes a test. -/
def LastIs (test : Char → Prop) (text : Text) : Prop :=
  ∀ c ∈ text.getLast?, test c

section Ends

variable {test : Char → Prop}

@[simp] theorem firstIs_nil : FirstIs test [] := by simp [FirstIs]

@[simp] theorem firstIs_cons {c : Char} {rest : Text} :
    FirstIs test (c :: rest) ↔ test c := by
  simp [FirstIs]

@[simp] theorem lastIs_nil : LastIs test [] := by simp [LastIs]

@[simp] theorem lastIs_concat {front : Text} {c : Char} :
    LastIs test (front ++ [c]) ↔ test c := by
  simp [LastIs]

theorem lastIs_append_of_ne_nil {front rest : Text} (some_left : rest ≠ []) :
    LastIs test (front ++ rest) ↔ LastIs test rest := by
  obtain rfl | ⟨rest, c, rfl⟩ := rest.eq_nil_or_concat'
  · exact absurd rfl some_left
  · rw [← List.append_assoc, lastIs_concat, lastIs_concat]

@[simp] theorem lastIs_append_cons {front rest : Text} {c : Char} :
    LastIs test (front ++ c :: rest) ↔ LastIs test (c :: rest) :=
  lastIs_append_of_ne_nil (List.cons_ne_nil c rest)

@[simp] theorem lastIs_singleton {c : Char} : LastIs test [c] ↔ test c := by
  simp [LastIs]

theorem lastIs_cons_of_ne_nil {c : Char} {rest : Text} (some_left : rest ≠ []) :
    LastIs test (c :: rest) ↔ LastIs test rest :=
  @lastIs_append_of_ne_nil test [c] rest some_left

theorem LastIs.of_mem {text : Text} (all : ∀ c ∈ text, test c) :
    LastIs test text :=
  fun c last => all c (List.mem_of_getLast? last)

theorem FirstIs.of_mem {text : Text} (all : ∀ c ∈ text, test c) :
    FirstIs test text :=
  fun c first => all c (List.mem_of_head? first)

end Ends

/-! ## Last runs -/

section Runs

variable {test : Char → Bool}

theorem dropLastRun_append_lastRun (text : Text) :
    dropLastRun test text ++ lastRun test text = text := by
  rw [dropLastRun, lastRun, ← List.reverse_append, List.takeWhile_append_dropWhile,
    List.reverse_reverse]

theorem test_of_mem_lastRun {text : Text} {c : Char}
    (member : c ∈ lastRun test text) : test c = true := by
  rw [lastRun, List.mem_reverse] at member
  exact List.mem_takeWhile_imp member

theorem lastIs_dropLastRun (text : Text) :
    LastIs (fun c => test c = false) (dropLastRun test text) := by
  intro c last
  rw [dropLastRun, List.getLast?_reverse] at last
  have fails := List.head?_dropWhile_not test text.reverse
  rw [last] at fails
  simpa using fails

/-- The last run is what follows a character that fails the test. -/
theorem lastRun_append {front run : Text}
    (fails : LastIs (fun c => test c = false) front)
    (passes : ∀ c ∈ run, test c = true) : lastRun test (front ++ run) = run := by
  have stops : front.reverse.takeWhile test = [] := by
    obtain rfl | ⟨front, c, rfl⟩ := front.eq_nil_or_concat'
    · rfl
    · rw [lastIs_concat] at fails
      simp [fails]
  rw [lastRun, List.reverse_append, List.takeWhile_append_of_pos (by simpa),
    stops, List.append_nil, List.reverse_reverse]

/-- What is left without the last run ends with a character that fails the
test. -/
theorem dropLastRun_append {front run : Text}
    (fails : LastIs (fun c => test c = false) front)
    (passes : ∀ c ∈ run, test c = true) : dropLastRun test (front ++ run) = front := by
  have parts := @dropLastRun_append_lastRun test (front ++ run)
  rw [lastRun_append fails passes] at parts
  exact List.append_cancel_right parts

theorem dropLastRun_eq_self {front : Text}
    (fails : LastIs (fun c => test c = false) front) :
    dropLastRun test front = front := by
  simpa using @dropLastRun_append test front [] fails (by simp)

/-- The first run is what precedes a character that fails the test. -/
theorem takeWhile_append {run rest : Text}
    (passes : ∀ c ∈ run, test c = true)
    (fails : FirstIs (fun c => test c = false) rest) :
    (run ++ rest).takeWhile test = run := by
  have stops : rest.takeWhile test = [] := by
    cases rest with
    | nil => rfl
    | cons c rest =>
        rw [firstIs_cons] at fails
        simp [fails]
  rw [List.takeWhile_append_of_pos passes, stops, List.append_nil]

theorem dropWhile_append {run rest : Text}
    (passes : ∀ c ∈ run, test c = true)
    (fails : FirstIs (fun c => test c = false) rest) :
    (run ++ rest).dropWhile test = rest := by
  have parts := @List.takeWhile_append_dropWhile _ test (run ++ rest)
  rw [takeWhile_append passes fails] at parts
  exact List.append_cancel_left parts

theorem firstIs_dropWhile (text : Text) :
    FirstIs (fun c => test c = false) (text.dropWhile test) := by
  intro c first
  have fails := List.head?_dropWhile_not test text
  rw [first] at fails
  simpa using fails

end Runs

/-! ## Lines -/

/-- A position at which a line begins, by the text in front of it. -/
def AtLineStart (front : Text) : Prop := LastIs (· = '\n') front

/-- A position at which a line ends, by the text behind it. -/
def AtLineEnd (rest : Text) : Prop := FirstIs (· = '\n') rest

@[simp] theorem atLineStart_nil : AtLineStart [] := lastIs_nil

@[simp] theorem atLineStart_concat {front : Text} {c : Char} :
    AtLineStart (front ++ [c]) ↔ c = '\n' :=
  lastIs_concat

@[simp] theorem atLineEnd_nil : AtLineEnd [] := firstIs_nil

@[simp] theorem atLineEnd_cons {c : Char} {rest : Text} :
    AtLineEnd (c :: rest) ↔ c = '\n' :=
  firstIs_cons

theorem AtLineStart.eq_nil {front : Text} (starts : AtLineStart front)
    (single : '\n' ∉ front) : front = [] := by
  obtain rfl | ⟨front, c, rfl⟩ := front.eq_nil_or_concat'
  · rfl
  · rw [atLineStart_concat] at starts
    simp [starts] at single

theorem AtLineEnd.eq_nil {rest : Text} (ends : AtLineEnd rest)
    (single : '\n' ∉ rest) : rest = [] := by
  cases rest with
  | nil => rfl
  | cons c rest =>
      rw [atLineEnd_cons] at ends
      simp [ends] at single

/-- What precedes the start of a line does so behind a newline, too. -/
theorem atLineStart_append_newline {line front : Text} :
    AtLineStart (line ++ '\n' :: front) ↔ AtLineStart front := by
  obtain rfl | ⟨front, c, rfl⟩ := front.eq_nil_or_concat'
  · simp
  · rw [← List.cons_append, ← List.append_assoc, atLineStart_concat,
      atLineStart_concat]

theorem lines_of_not_mem {line : Text} (single : '\n' ∉ line) :
    lines line = [line] := by
  rw [lines, parts_eq_splitOn, List.splitOn_eq_singleton single]

theorem lines_append {line : Text} (rest : Text) (single : '\n' ∉ line) :
    lines (line ++ '\n' :: rest) = line :: lines rest := by
  rw [lines, lines, parts_eq_splitOn, parts_eq_splitOn,
    List.splitOn_append_cons_self_of_not_mem single]

/-- A newline separates the lines in front of it from those behind it. -/
theorem lines_append_newline (front rest : Text) :
    lines (front ++ '\n' :: rest) = lines front ++ lines rest := by
  rw [lines, lines, lines, parts_eq_splitOn, parts_eq_splitOn, parts_eq_splitOn,
    List.splitOn_append_cons_self]

theorem lines_ne_nil (text : Text) : lines text ≠ [] := List.cons_ne_nil _ _

/-- Lines are put together to the text again. -/
theorem join_lines (text : Text) : join ['\n'] (lines text) = text := by
  rw [join, lines, parts_eq_splitOn, List.intercalate_splitOn]

theorem join_cons {line : Text} {later : List Text} (some_later : later ≠ []) :
    join ['\n'] (line :: later) = line ++ '\n' :: join ['\n'] later := by
  rw [join, join, List.intercalate_cons_of_ne_nil some_later, List.append_assoc]
  rfl

theorem join_append {front rest : List Text} (some_front : front ≠ [])
    (some_rest : rest ≠ []) :
    join ['\n'] (front ++ rest) = join ['\n'] front ++ '\n' :: join ['\n'] rest := by
  induction front with
  | nil => contradiction
  | cons line front induction =>
      by_cases last : front = []
      · rw [last, List.singleton_append, join_cons some_rest, join, join,
          List.intercalate_singleton]
      · rw [List.cons_append, join_cons (List.append_ne_nil_of_left_ne_nil last rest),
          induction last, join_cons last, List.append_assoc, List.cons_append]

/-- Texts without newlines are the lines of what they are put together to. -/
theorem lines_join {texts : List Text} (single : ∀ line ∈ texts, '\n' ∉ line)
    (some_text : texts ≠ []) : lines (join ['\n'] texts) = texts := by
  rw [lines, join, parts_eq_splitOn, List.splitOn_intercalate '\n' single some_text]

/-- The lines of a text are divided by a newline between them. -/
theorem lines_eq_append_iff {text : Text} {front rest : List Text}
    (some_front : front ≠ []) (some_rest : rest ≠ []) :
    lines text = front ++ rest ↔
      ∃ ahead behind, text = ahead ++ '\n' :: behind ∧
        lines ahead = front ∧ lines behind = rest := by
  constructor
  · intro divided
    have single : ∀ line ∈ front ++ rest, '\n' ∉ line := by
      rw [← divided]
      exact fun line => not_mem_of_mem_parts
    refine ⟨join ['\n'] front, join ['\n'] rest, ?_, ?_, ?_⟩
    · rw [← join_append some_front some_rest, ← divided, join_lines]
    · apply lines_join _ some_front
      exact fun line member => single line (List.mem_append_left _ member)
    · apply lines_join _ some_rest
      exact fun line member => single line (List.mem_append_right _ member)
  · rintro ⟨ahead, behind, rfl, rfl, rfl⟩
    exact lines_append_newline ahead behind

theorem lines_eq_nil_cons_iff {text : Text} {later : List Text}
    (some_later : later ≠ []) :
    lines text = [] :: later ↔ ∃ rest, text = '\n' :: rest ∧ lines rest = later := by
  constructor
  · intro divided
    obtain ⟨ahead, rest, rfl, blank, behind⟩ :=
      (lines_eq_append_iff (List.cons_ne_nil [] []) some_later).mp divided
    have nothing := join_lines ahead
    rw [blank] at nothing
    rw [← nothing]
    exact ⟨rest, rfl, behind⟩
  · rintro ⟨rest, rfl, rfl⟩
    exact lines_append rest List.not_mem_nil

/-- Induction over the lines of a text. -/
theorem lines_induction {motive : Text → Prop}
    (last : ∀ line, '\n' ∉ line → motive line)
    (more : ∀ line rest, '\n' ∉ line → motive rest →
      motive (line ++ '\n' :: rest))
    (text : Text) : motive text := by
  induction size : text.length using Nat.strongRecOn generalizing text with
  | ind size induction =>
      by_cases member : '\n' ∈ text
      · obtain ⟨line, rest, rfl, single⟩ := List.eq_append_cons_of_mem member
        apply more line rest single
        apply induction rest.length _ rest rfl
        rw [← size, List.length_append, List.length_cons]
        omega
      · exact last text member

/-- A part that ends before the first newline of a text is a line of its own
or ends in it. -/
theorem line_eq_of_append_eq {line part rest behind : Text}
    (same : line ++ '\n' :: rest = part ++ behind)
    (lineSingle : '\n' ∉ line) (partSingle : '\n' ∉ part)
    (ends : AtLineEnd behind) : line = part ∧ behind = '\n' :: rest := by
  rcases List.append_eq_append_iff.mp same with
    ⟨middle, partEq, restEq⟩ | ⟨middle, lineEq, behindEq⟩
  · cases middle with
    | nil => exact ⟨by simpa using partEq.symm, by simpa using restEq.symm⟩
    | cons c middle =>
        rw [List.cons_append, List.cons.injEq] at restEq
        rw [partEq, ← restEq.1] at partSingle
        simp at partSingle
  · cases middle with
    | nil => exact ⟨by simpa using lineEq, by simpa using behindEq⟩
    | cons c middle =>
        rw [behindEq, List.cons_append, atLineEnd_cons] at ends
        rw [lineEq, ends] at lineSingle
        simp at lineSingle

/-- A front that goes beyond the first newline of a text. -/
theorem exists_front_of_append_eq {line rest front behind : Text}
    (same : line ++ '\n' :: rest = front ++ behind)
    (single : '\n' ∉ line) (member : '\n' ∈ front) :
    ∃ later, front = line ++ '\n' :: later ∧ rest = later ++ behind := by
  rcases List.append_eq_append_iff.mp same with
    ⟨middle, frontEq, restEq⟩ | ⟨middle, lineEq, -⟩
  · cases middle with
    | nil =>
        rw [frontEq, List.append_nil] at member
        exact absurd member single
    | cons c middle =>
        rw [List.cons_append, List.cons.injEq] at restEq
        obtain ⟨rfl, restEq⟩ := restEq
        exact ⟨middle, frontEq, restEq⟩
  · rw [lineEq] at single
    exact absurd (List.mem_append_left _ member) single

/-- What a function says of some line. -/
theorem mem_overLines_iff {visit : Nat → Text → List α} {position : Nat}
    {text : Text} {item : α} :
    item ∈ overLines visit position (lines text) ↔
      ∃ front line rest, text = front ++ line ++ rest ∧
        '\n' ∉ line ∧ AtLineStart front ∧ AtLineEnd rest ∧
        item ∈ visit (position + front.length) line := by
  induction text using lines_induction generalizing position with
  | last only single =>
      rw [lines_of_not_mem single]
      simp only [overLines, List.append_nil]
      constructor
      · intro member
        exact ⟨[], only, [], by simp, single, lastIs_nil, firstIs_nil,
          by simpa using member⟩
      · rintro ⟨front, line, rest, rfl, -, starts, ends, member⟩
        have noFront : front = [] :=
          starts.eq_nil fun member => single (by simp [member])
        have noRest : rest = [] :=
          ends.eq_nil fun member => single (by simp [member])
        subst noFront
        subst noRest
        simpa using member
  | more only later single induction =>
      rw [lines_append later single]
      simp only [overLines, List.mem_append, induction]
      constructor
      · rintro (member | ⟨front, line, rest, rfl, lineSingle, starts, ends,
          member⟩)
        · exact ⟨[], only, '\n' :: later, by simp, single, lastIs_nil,
            firstIs_cons.mpr rfl, by simpa using member⟩
        · refine ⟨only ++ '\n' :: front, line, rest, by simp, lineSingle, ?_,
            ends, ?_⟩
          · exact atLineStart_append_newline.mpr starts
          · rw [List.length_append, List.length_cons]
            rwa [show position + (only.length + (front.length + 1)) =
              position + only.length + 1 + front.length by omega]
      · rintro ⟨front, line, rest, same, lineSingle, starts, ends, member⟩
        by_cases newline : '\n' ∈ front
        · right
          rw [List.append_assoc] at same
          obtain ⟨further, rfl, rfl⟩ :=
            exists_front_of_append_eq same single newline
          refine ⟨further, line, rest, by simp, lineSingle,
            atLineStart_append_newline.mp starts, ends, ?_⟩
          rw [List.length_append, List.length_cons] at member
          rwa [show position + only.length + 1 + further.length =
            position + (only.length + (further.length + 1)) by omega]
        · left
          have noFront : front = [] := starts.eq_nil newline
          subst noFront
          obtain ⟨rfl, -⟩ := line_eq_of_append_eq same single lineSingle ends
          simpa using member

end TemplateLint.Text
