import TemplateLint.Linter.TagStyle
import TemplateLint.Proofs.Linter.LineSpaces
import TemplateLint.Proofs.Source.Tag

/-!
# What the checks of tags find

White space at an end of a tag's code lies between a character of the tag and
one of the code, neither of which is white space.  A trim mark stands directly
before the closing delimiter.
-/

namespace TemplateLint

open Text

theorem isBlank_of_isSpaceOrTab {c : Char} (blank : isSpaceOrTab c = true) :
    Character.isBlank c = true := by
  simp only [isSpaceOrTab, Bool.or_eq_true, decide_eq_true_eq] at blank
  rcases blank with rfl | rfl <;> decide

namespace Tag

theorem mem_tags_iff {text : Text} {tag : Tag} :
    tag ∈ text.tags ↔ tag ∈ scan text ∧ tag.indicator ≠ .escape := by
  simp [Text.tags]

/-- The opening delimiter of a tag with its indicator. -/
def opening (tag : Tag) : Text := '<' :: '%' :: tag.indicator.text

theorem codeBegin_eq (tag : Tag) :
    tag.codeBegin = tag.beginPos + tag.opening.length := by
  simp only [codeBegin, opening, List.length_cons]
  omega

theorem exists_opening (tag : Tag) :
    ∃ front c, tag.opening = front ++ [c] ∧ Character.isBlank c = false := by
  cases shape : tag.indicator with
  | plain => exact ⟨['<'], '%', by simp [opening, shape, Indicator.text], by decide⟩
  | output =>
      exact ⟨['<', '%'], '=', by simp [opening, shape, Indicator.text], by decide⟩
  | rawOutput =>
      exact ⟨['<', '%', '='], '=', by simp [opening, shape, Indicator.text],
        by decide⟩
  | trimLeft =>
      exact ⟨['<', '%'], '-', by simp [opening, shape, Indicator.text], by decide⟩
  | comment =>
      exact ⟨['<', '%'], '#', by simp [opening, shape, Indicator.text], by decide⟩
  | escape =>
      exact ⟨['<', '%'], '%', by simp [opening, shape, Indicator.text], by decide⟩

theorem exists_closing (trim : Option TrimMark) :
    ∃ c rest, closing trim = c :: rest ∧ Character.isBlank c = false := by
  cases trim with
  | none => exact ⟨'%', ['>'], rfl, by decide⟩
  | some mark =>
      cases mark with
      | dash => exact ⟨'-', ['%', '>'], rfl, by decide⟩
      | equals => exact ⟨'=', ['%', '>'], rfl, by decide⟩

/-- The parts of a text around the code of a scanned tag. -/
theorem exists_code_of_mem_scan {text : Text} {tag : Tag}
    (member : tag ∈ scan text) :
    ∃ front rest, text = (front ++ tag.opening) ++
        (tag.code ++ (closing tag.trim ++ rest)) ∧
      (front ++ tag.opening).length = tag.codeBegin ∧
      tag.beginPos = front.length := by
  obtain ⟨front, rest, same, begins, -⟩ := exists_parts_of_mem_scanFrom member
  rw [Nat.zero_add] at begins
  refine ⟨front, rest, ?_, ?_, begins⟩
  · rw [same, text_append]
    simp [opening]
  · rw [List.length_append, codeBegin_eq, begins]

end Tag

namespace SpaceAroundErbTag

/-- A tag whose code is looked at. -/
structure Checked (text : Text) (tag : Tag) : Prop where
  member : tag ∈ text.tags
  effective : tag.indicator ≠ .comment
  code : tag.code.all Character.isBlank = false

/-- White space that leads the code of a tag and is to be one space. -/
structure Leads (tag : Tag) (front old rest : Text) : Prop where
  checked : Checked (front ++ old ++ rest) tag
  begins : front.length = tag.codeBegin
  spaces : old = tag.code.takeWhile Character.isBlank
  unaccepted : isAccepted old = false

/-- White space that ends the code of a tag and is to be one space. -/
structure Ends (tag : Tag) (front old rest : Text) : Prop where
  checked : Checked (front ++ old ++ rest) tag
  ends : front.length + old.length = tag.codeEnd
  spaces : old = lastRun Character.isBlank tag.code
  unaccepted : isAccepted old = false

def leadingMessage (tag : Tag) (count : Nat) : Text :=
  "Use 1 space after `<%" ++ tag.indicator.text ++ "` instead of "
    ++ countText count ++ "."

def endingMessage (tag : Tag) (count : Nat) : Text :=
  "Use 1 space before `" ++ TrimMark.text tag.trim ++ "%>` instead of "
    ++ countText count ++ "."

theorem mem_atStart_iff {tag : Tag} {finding : Finding} :
    finding ∈ atStart tag ↔
      isAccepted (tag.code.takeWhile Character.isBlank) = false ∧
      finding = .replacing tag.codeBegin
        (tag.codeBegin + (tag.code.takeWhile Character.isBlank).length)
        (leadingMessage tag (tag.code.takeWhile Character.isBlank).length)
        [' '] := by
  cases accepted : isAccepted (tag.code.takeWhile Character.isBlank) with
  | true => simp [atStart, accepted]
  | false =>
      simp only [atStart, accepted, Bool.false_eq_true, if_false, true_and,
        List.mem_singleton]
      rfl

theorem mem_atEnd_iff {tag : Tag} {finding : Finding} :
    finding ∈ atEnd tag ↔
      isAccepted (lastRun Character.isBlank tag.code) = false ∧
      finding = .replacing
        (tag.codeEnd - (lastRun Character.isBlank tag.code).length) tag.codeEnd
        (endingMessage tag (lastRun Character.isBlank tag.code).length)
        [' '] := by
  cases accepted : isAccepted (lastRun Character.isBlank tag.code) with
  | true => simp [atEnd, accepted]
  | false =>
      simp only [atEnd, accepted, Bool.false_eq_true, if_false, true_and,
        List.mem_singleton]
      rfl

theorem mem_findings_of_tags {text : Text} {finding : Finding} :
    finding ∈ findings text ↔
      ∃ tag, Checked text tag ∧ (finding ∈ atStart tag ∨ finding ∈ atEnd tag) := by
  simp only [findings, List.mem_flatMap, inTag]
  constructor
  · rintro ⟨tag, member, found⟩
    split at found
    · contradiction
    · rename_i checked
      rw [Bool.or_eq_true, not_or, decide_eq_true_eq, Bool.not_eq_true] at checked
      exact ⟨tag, ⟨member, checked.1, checked.2⟩, List.mem_append.mp found⟩
  · rintro ⟨tag, checked, found⟩
    refine ⟨tag, checked.member, ?_⟩
    simp only [checked.effective, decide_false, checked.code, Bool.or_self,
      Bool.false_eq_true, if_false]
    exact List.mem_append.mpr found

/-- The findings are the white space at both ends of the code of tags. -/
theorem mem_findings_iff {text : Text} {finding : Finding} :
    finding ∈ findings text ↔
      ∃ tag front old rest, text = front ++ old ++ rest ∧
        ((Leads tag front old rest ∧
          finding = .replacing front.length (front.length + old.length)
            (leadingMessage tag old.length) [' ']) ∨
        (Ends tag front old rest ∧
          finding = .replacing front.length (front.length + old.length)
            (endingMessage tag old.length) [' '])) := by
  rw [mem_findings_of_tags]
  constructor
  · rintro ⟨tag, checked, found⟩
    obtain ⟨front, rest, same, size, -⟩ :=
      Tag.exists_code_of_mem_scan (Tag.mem_tags_iff.mp checked.member).1
    rcases found with leading | ending
    · obtain ⟨unaccepted, rfl⟩ := mem_atStart_iff.mp leading
      have whole : text = front ++ tag.opening ++
          tag.code.takeWhile Character.isBlank ++
          (tag.code.dropWhile Character.isBlank ++
            (Tag.closing tag.trim ++ rest)) := by
        rw [List.append_assoc (front ++ tag.opening),
          ← List.append_assoc (tag.code.takeWhile _),
          List.takeWhile_append_dropWhile, same]
      refine ⟨tag, front ++ tag.opening, tag.code.takeWhile Character.isBlank,
        tag.code.dropWhile Character.isBlank ++ (Tag.closing tag.trim ++ rest),
        whole, .inl ⟨⟨?_, size, rfl, unaccepted⟩, by rw [size]⟩⟩
      rw [← whole]
      exact checked
    · obtain ⟨unaccepted, rfl⟩ := mem_atEnd_iff.mp ending
      have parts := @dropLastRun_append_lastRun Character.isBlank tag.code
      have sizes := congrArg List.length parts
      rw [List.length_append] at sizes
      have whole : text = front ++ tag.opening ++
          dropLastRun Character.isBlank tag.code ++
          lastRun Character.isBlank tag.code ++ (Tag.closing tag.trim ++ rest) := by
        rw [List.append_assoc (front ++ tag.opening), parts, same,
          ← List.append_assoc]
      have reach : (front ++ tag.opening ++
          dropLastRun Character.isBlank tag.code).length +
          (lastRun Character.isBlank tag.code).length = tag.codeEnd := by
        rw [List.length_append, size, Tag.codeEnd, ← sizes, Nat.add_assoc]
      refine ⟨tag, front ++ tag.opening ++ dropLastRun Character.isBlank tag.code,
        lastRun Character.isBlank tag.code, Tag.closing tag.trim ++ rest, whole,
        .inr ⟨⟨?_, reach, rfl, unaccepted⟩, ?_⟩⟩
      · rw [← whole]
        exact checked
      · rw [reach, ← reach, Nat.add_sub_cancel]
  · rintro ⟨tag, front, old, rest, rfl, ⟨leads, rfl⟩ | ⟨ends, rfl⟩⟩
    · refine ⟨tag, leads.checked, .inl (mem_atStart_iff.mpr ?_)⟩
      rw [← leads.spaces, leads.begins]
      exact ⟨leads.unaccepted, rfl⟩
    · refine ⟨tag, ends.checked, .inr (mem_atEnd_iff.mpr ?_)⟩
      rw [← ends.spaces, ← ends.ends, Nat.add_sub_cancel]
      exact ⟨ends.unaccepted, rfl⟩

/-! ## Around the white space -/

/-- White space in a line between two other characters, which is not one
character. -/
structure Separates (front old rest : Text) : Prop where
  blank : ∀ c ∈ old, Character.isBlank c = true
  inline : '\n' ∉ old
  misfit : old.length ≠ 1
  behind : ∃ earlier c, front = earlier ++ [c] ∧ Character.isBlank c = false
  before : ∃ c later, rest = c :: later ∧ Character.isBlank c = false

theorem isAccepted_eq_false_iff {spaces : Text} :
    isAccepted spaces = false ↔ spaces.length ≠ 1 ∧ '\n' ∉ spaces := by
  simp [isAccepted]

theorem exists_not_blank {code : Text}
    (some_code : code.all Character.isBlank = false) :
    ∃ c ∈ code, Character.isBlank c = false := by
  simpa using some_code

/-- The parts of a text around white space that leads the code of a tag. -/
theorem Leads.exists_parts {tag : Tag} {front old rest : Text}
    (leads : Leads tag front old rest) :
    ∃ earlier inner behind, front = earlier ++ tag.opening ∧
      earlier.length = tag.beginPos ∧ tag.code = old ++ inner ∧
      rest = inner ++ (Tag.closing tag.trim ++ behind) ∧
      ∃ c later, inner = c :: later ∧ Character.isBlank c = false := by
  obtain ⟨earlier, behind, same, size, begins⟩ :=
    Tag.exists_code_of_mem_scan (Tag.mem_tags_iff.mp leads.checked.member).1
  rw [List.append_assoc] at same
  obtain ⟨frontEq, restEq⟩ :=
    List.append_inj same (leads.begins.trans size.symm)
  have codeEq : tag.code = old ++ tag.code.dropWhile Character.isBlank := by
    rw [leads.spaces, List.takeWhile_append_dropWhile]
  refine ⟨earlier, tag.code.dropWhile Character.isBlank, behind, frontEq,
    begins.symm, codeEq, ?_, ?_⟩
  · rw [codeEq, List.append_assoc] at restEq
    exact List.append_cancel_left restEq
  · cases inner : tag.code.dropWhile Character.isBlank with
    | cons c later =>
        have first := @firstIs_dropWhile Character.isBlank tag.code
        rw [inner, firstIs_cons] at first
        exact ⟨c, later, rfl, first⟩
    | nil =>
        obtain ⟨c, member, other⟩ := exists_not_blank leads.checked.code
        rw [codeEq, inner, List.append_nil, leads.spaces] at member
        rw [List.mem_takeWhile_imp member] at other
        contradiction

/-- The parts of a text around white space that ends the code of a tag. -/
theorem Ends.exists_parts {tag : Tag} {front old rest : Text}
    (ends : Ends tag front old rest) :
    ∃ earlier inner behind, front = (earlier ++ tag.opening) ++ inner ∧
      earlier.length = tag.beginPos ∧ tag.code = inner ++ old ∧
      rest = Tag.closing tag.trim ++ behind ∧
      ∃ first c, inner = first ++ [c] ∧ Character.isBlank c = false := by
  obtain ⟨earlier, behind, same, size, begins⟩ :=
    Tag.exists_code_of_mem_scan (Tag.mem_tags_iff.mp ends.checked.member).1
  have codeEq : tag.code = dropLastRun Character.isBlank tag.code ++ old := by
    rw [ends.spaces, dropLastRun_append_lastRun]
  have reach : (front ++ old).length =
      ((earlier ++ tag.opening) ++ tag.code).length := by
    rw [List.length_append, ends.ends, List.length_append, size, Tag.codeEnd]
  rw [← List.append_assoc (earlier ++ tag.opening)] at same
  obtain ⟨bodyEq, restEq⟩ := List.append_inj same reach
  refine ⟨earlier, dropLastRun Character.isBlank tag.code, behind, ?_,
    begins.symm, codeEq, restEq, ?_⟩
  · rw [codeEq, ← List.append_assoc] at bodyEq
    exact List.append_cancel_right bodyEq
  · have last := @lastIs_dropLastRun Character.isBlank tag.code
    obtain none_left | ⟨first, c, inner⟩ :=
      (dropLastRun Character.isBlank tag.code).eq_nil_or_concat'
    · obtain ⟨c, member, other⟩ := exists_not_blank ends.checked.code
      rw [codeEq, none_left, List.nil_append, ends.spaces] at member
      rw [test_of_mem_lastRun member] at other
      contradiction
    · rw [inner, lastIs_concat] at last
      exact ⟨first, c, inner, last⟩

theorem Leads.separates {tag : Tag} {front old rest : Text}
    (leads : Leads tag front old rest) : Separates front old rest := by
  obtain ⟨earlier, inner, behind, frontEq, -, -, restEq, c, later, innerEq,
    other⟩ := leads.exists_parts
  obtain ⟨misfit, inline⟩ := isAccepted_eq_false_iff.mp leads.unaccepted
  refine ⟨?_, inline, misfit, ?_, c, later ++ (Tag.closing tag.trim ++ behind),
    by rw [restEq, innerEq]; rfl, other⟩
  · rw [leads.spaces]
    exact fun c => List.mem_takeWhile_imp
  · obtain ⟨first, d, openingEq, solid⟩ := tag.exists_opening
    exact ⟨earlier ++ first, d, by rw [frontEq, openingEq, List.append_assoc],
      solid⟩

theorem Ends.separates {tag : Tag} {front old rest : Text}
    (ends : Ends tag front old rest) : Separates front old rest := by
  obtain ⟨earlier, inner, behind, frontEq, -, -, restEq, first, c, innerEq,
    other⟩ := ends.exists_parts
  obtain ⟨misfit, inline⟩ := isAccepted_eq_false_iff.mp ends.unaccepted
  refine ⟨?_, inline, misfit, ⟨earlier ++ tag.opening ++ first, c,
    by rw [frontEq, innerEq, ← List.append_assoc], other⟩, ?_⟩
  · rw [ends.spaces]
    exact fun c => test_of_mem_lastRun
  · obtain ⟨d, later, closingEq, solid⟩ := Tag.exists_closing tag.trim
    exact ⟨d, later ++ behind, by rw [restEq, closingEq]; rfl, solid⟩

end SpaceAroundErbTag

namespace RightTrim

/-- A trim mark of another style. -/
structure Mismarks (style : TrimMark) (tag : Tag) (front old rest : Text) :
    Prop where
  member : tag ∈ (front ++ old ++ rest).tags
  begins : front.length = tag.codeEnd
  mark : ∃ mark, tag.trim = some mark ∧ mark ≠ style ∧ old = [mark.char]

def message (style mark : TrimMark) : Text :=
  "Prefer `" ++ [style.char] ++ "%>` instead of `" ++ [mark.char]
    ++ "%>` for trimming on the right."

theorem trimPos_eq {tag : Tag} {mark : TrimMark} (trimmed : tag.trim = some mark) :
    tag.trimPos = tag.codeEnd := by
  simp [Tag.trimPos, Tag.endPos, trimmed, TrimMark.text]

theorem mem_inTag_iff {style : TrimMark} {tag : Tag} {finding : Finding} :
    finding ∈ inTag style tag ↔
      ∃ mark, tag.trim = some mark ∧ mark ≠ style ∧
        finding = .replacing tag.codeEnd (tag.codeEnd + 1) (message style mark)
          [style.char] := by
  unfold inTag
  split
  · rename_i untrimmed
    simp [untrimmed]
  · rename_i mark trimmed
    rw [trimPos_eq trimmed]
    split
    · rename_i same
      simp [trimmed, same]
    · rename_i differs
      simp only [List.mem_singleton, trimmed, Option.some.injEq,
        exists_eq_left', differs, ne_eq, not_false_eq_true, true_and]
      rfl

/-- The findings are the trim marks of another style. -/
theorem mem_findings_iff {style : TrimMark} {text : Text} {finding : Finding} :
    finding ∈ findings style text ↔
      ∃ tag front old rest mark, text = front ++ old ++ rest ∧
        Mismarks style tag front old rest ∧ tag.trim = some mark ∧
        finding = .replacing front.length (front.length + old.length)
          (message style mark) [style.char] := by
  simp only [findings, List.mem_flatMap, mem_inTag_iff]
  constructor
  · rintro ⟨tag, member, mark, trimmed, differs, rfl⟩
    obtain ⟨front, rest, same, size, -⟩ :=
      Tag.exists_code_of_mem_scan (Tag.mem_tags_iff.mp member).1
    have reach : (front ++ tag.opening ++ tag.code).length = tag.codeEnd := by
      rw [List.length_append, size, Tag.codeEnd]
    have whole : text = front ++ tag.opening ++ tag.code ++ [mark.char] ++
        ('%' :: '>' :: rest) := by
      rw [same, Tag.closing, trimmed]
      simp [TrimMark.text]
    refine ⟨tag, front ++ tag.opening ++ tag.code, [mark.char],
      '%' :: '>' :: rest, mark, whole, ⟨?_, reach, mark, trimmed, differs, rfl⟩,
      trimmed, ?_⟩
    · rw [← whole]
      exact member
    · rw [reach]
      rfl
  · rintro ⟨tag, front, old, rest, mark, rfl, mismarks, trimmed, rfl⟩
    obtain ⟨own, ownTrim, differs, rfl⟩ := mismarks.mark
    rw [trimmed] at ownTrim
    cases ownTrim
    refine ⟨tag, mismarks.member, mark, trimmed, differs, ?_⟩
    rw [mismarks.begins]
    rfl

end RightTrim

end TemplateLint
