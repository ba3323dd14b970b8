import TemplateLint.Proofs.Correction.Rewriting
import TemplateLint.Proofs.Correction.Tags

/-!
# Trim marks of one style

A pass of `RightTrim` alone puts one character in the place of another one.
The tags stay where they are with their code, and have the enforced mark.
There is one exception: the mark `=` of an output tag without code is read as
part of the indicator, so `<%=-%>` becomes a raw output tag without a mark.
-/

namespace TemplateLint.RightTrim

open Text Script

/-- Whether the enforced mark would stand directly behind an indicator that it
makes longer. -/
def swallows (style : TrimMark) (tag : Tag) : Bool :=
  tag.indicator = .output && tag.code = [] && tag.trim = some .dash
    && style = .equals

/-- What a match becomes. -/
def restyled (style : TrimMark) (tag : Tag) : Tag :=
  if tag.indicator = .escape || tag.trim = none then tag
  else if swallows style tag then { tag with indicator := .rawOutput, trim := none }
  else { tag with trim := some style }

theorem swallows_iff {style : TrimMark} {tag : Tag} :
    swallows style tag = true ↔
      tag.indicator = .output ∧ tag.code = [] ∧ tag.trim = some .dash ∧
        style = .equals := by
  simp [swallows, and_assoc]

theorem restyled_of_escape {style : TrimMark} {tag : Tag}
    (escape : tag.indicator = .escape) : restyled style tag = tag := by
  rw [restyled, if_pos (by simp [escape])]

theorem restyled_of_none {style : TrimMark} {tag : Tag}
    (untrimmed : tag.trim = none) : restyled style tag = tag := by
  rw [restyled, if_pos (by simp [untrimmed])]

section Trimmed

variable {style mark : TrimMark} {tag : Tag}

theorem restyled_of_swallows (swallowed : swallows style tag = true) :
    restyled style tag = { tag with indicator := .rawOutput, trim := none } := by
  obtain ⟨output, -, trimmed, -⟩ := swallows_iff.mp swallowed
  rw [restyled, if_neg (by simp [output, trimmed]), if_pos swallowed]

theorem restyled_of_some (noEscape : tag.indicator ≠ .escape)
    (trimmed : tag.trim = some mark) (apart : swallows style tag = false) :
    restyled style tag = { tag with trim := some style } := by
  rw [restyled, if_neg (by simp [noEscape, trimmed]), if_neg (by simp [apart])]

end Trimmed

theorem restyled_text_length (style : TrimMark) (tag : Tag) :
    (restyled style tag).text.length = tag.text.length := by
  by_cases escape : tag.indicator = .escape
  · rw [restyled_of_escape escape]
  · cases trimmed : tag.trim with
    | none => rw [restyled_of_none trimmed]
    | some mark =>
        cases swallowed : swallows style tag with
        | true =>
            rw [restyled_of_swallows swallowed]
            obtain ⟨output, -, -, -⟩ := swallows_iff.mp swallowed
            simp [Tag.text, trimmed, output, Indicator.text, TrimMark.text]
        | false =>
            rw [restyled_of_some escape trimmed swallowed]
            simp [Tag.text, trimmed, TrimMark.text]

theorem restyled_beginPos (style : TrimMark) (tag : Tag) :
    (restyled style tag).beginPos = tag.beginPos := by
  rw [restyled]
  split
  · rfl
  · split <;> rfl

/-! ## Reading the changed tags -/

/-- Behind an indicator that fits, the enforced mark is no part of it unless it
is swallowed. -/
theorem fits_of_style {style mark : TrimMark} {tag : Tag} {rest rest' : Text}
    (trimmed : tag.trim = some mark) (apart : swallows style tag = false)
    (fits : Tag.Fits tag.indicator
      (tag.code ++ (Tag.closing tag.trim ++ rest))) :
    Tag.Fits tag.indicator
      (tag.code ++ (Tag.closing (some style) ++ rest')) := by
  by_cases some_code : tag.code = []
  · rw [trimmed, some_code] at fits
    cases shape : tag.indicator with
    | plain =>
        rw [shape] at fits
        obtain ⟨first, -⟩ := fits
        cases mark <;>
          simp [Tag.closing, TrimMark.text, TrimMark.char, firstIs_cons] at first
    | output =>
        rw [shape] at fits
        rw [some_code]
        cases mark with
        | equals => simp [Tag.Fits, Tag.closing, TrimMark.text, TrimMark.char] at fits
        | dash =>
            cases style with
            | dash => exact fits
            | equals => simp [swallows, shape, some_code, trimmed] at apart
    | rawOutput => trivial
    | trimLeft => trivial
    | comment => trivial
    | escape => trivial
  · exact fits.of_code some_code

theorem follows_restyled (style : TrimMark) : Tag.Follows (restyled style) := by
  refine ⟨?_, ?_, ?_⟩
  · intro tag rest rest' position found closes
    by_cases escape : tag.indicator = .escape
    · rw [restyled_of_escape escape]
      exact Tag.at?_movedTo position found closes
    cases trimmed : tag.trim with
    | none =>
        rw [restyled_of_none trimmed]
        exact Tag.at?_movedTo position found closes
    | some mark =>
        obtain ⟨behind, -, -, shortest, fits⟩ := Tag.at?_eq_some_iff.mp found
        cases swallowed : swallows style tag with
        | true =>
            obtain ⟨-, noCode, -, -⟩ := swallows_iff.mp swallowed
            rw [restyled_of_swallows swallowed]
            refine Tag.at?_eq_some_iff.mpr ⟨rest', rfl, rfl, ?_, trivial⟩
            simp only [Tag.movedTo, noCode]
            exact Tag.shortest_nil none
        | false =>
            rw [restyled_of_some escape trimmed swallowed]
            refine Tag.at?_eq_some_iff.mpr ⟨rest', rfl, rfl, ?_, ?_⟩
            · exact Tag.shortest_iff.mpr
                ⟨(Tag.shortest_iff.mp shortest).1, fun untrimmed => by contradiction⟩
            · exact @fits_of_style _ _ tag _ _ trimmed swallowed fits
  · exact fun escape => restyled_of_escape escape
  · intro tag noEscape
    rw [restyled]
    split
    · exact noEscape
    · split
      · simp
      · exact noEscape

/-! ## Corrections of one tag -/

theorem inTag_of_none {style : TrimMark} {tag : Tag} (untrimmed : tag.trim = none) :
    inTag style tag = [] := by
  rw [inTag, untrimmed]

theorem inTag_of_same {style : TrimMark} {tag : Tag}
    (trimmed : tag.trim = some style) : inTag style tag = [] := by
  rw [inTag, trimmed]
  exact if_pos rfl

theorem inTag_of_differs {style mark : TrimMark} {tag : Tag}
    (trimmed : tag.trim = some mark) (differs : mark ≠ style) :
    inTag style tag = [.replacing tag.codeEnd (tag.codeEnd + 1)
      (message style mark) [style.char]] := by
  rw [inTag, trimmed, trimPos_eq trimmed]
  exact if_neg differs

/-- The correction of a tag changes it. -/
theorem exists_script_inTag {style : TrimMark} {tag : Tag}
    (noEscape : tag.indicator ≠ .escape) :
    ∃ script, before script = tag.text ∧ after script = (restyled style tag).text ∧
      made tag.beginPos script = (inTag style tag).filterMap (·.correction) := by
  cases trimmed : tag.trim with
  | none =>
      exact Tag.exists_script_of_kept (inTag_of_none trimmed)
        (restyled_of_none trimmed)
  | some mark =>
      by_cases differs : mark = style
      · subst differs
        have apart : swallows mark tag = false := by
          cases mark <;> simp [swallows, trimmed]
        refine Tag.exists_script_of_kept (inTag_of_same trimmed) ?_
        rw [restyled_of_some noEscape trimmed apart, ← trimmed]
      · refine ⟨keeping tag.opening ++ (keeping tag.code ++
          .swap [mark.char] [style.char] :: keeping ['%', '>']), ?_, ?_, ?_⟩
        · simp [Tag.text, Tag.opening, trimmed, TrimMark.text]
        · cases swallowed : swallows style tag with
          | true =>
              obtain ⟨output, noCode, -, rfl⟩ := swallows_iff.mp swallowed
              rw [restyled_of_swallows swallowed]
              simp [Tag.text, Tag.opening, noCode, output, Indicator.text,
                TrimMark.text, TrimMark.char]
          | false =>
              rw [restyled_of_some noEscape trimmed swallowed]
              simp [Tag.text, Tag.opening, TrimMark.text]
        · rw [made_keeping, ← Tag.codeBegin_eq, made_keeping, ← Tag.codeEnd,
            inTag_of_differs trimmed differs]
          rfl

theorem edits_restyled (style : TrimMark) :
    Tag.Edits (inTag style) (restyled style) := by
  refine ⟨follows_restyled style, fun _ => exists_script_inTag, ?_, ?_⟩
  · intro tag finding found
    obtain ⟨mark, trimmed, -, rfl⟩ := mem_inTag_iff.mp found
    refine ⟨_, _, _, _, rfl, ?_, Nat.le_succ _, ?_⟩
    · exact tag.beginPos_lt_codeBegin.trans_le tag.codeBegin_le_codeEnd
    · rw [Tag.endPos, trimmed, TrimMark.text, List.length_singleton]
      omega
  · intro tag
    cases trimmed : tag.trim with
    | none => simp [inTag_of_none trimmed]
    | some mark =>
        by_cases differs : mark = style
        · subst differs
          simp [inTag_of_same trimmed]
        · simp [inTag_of_differs trimmed differs]

/-- Nothing is found in a restyled tag. -/
theorem inTag_restyled {style : TrimMark} {tag : Tag} (position : Nat)
    (noEscape : tag.indicator ≠ .escape) :
    inTag style ((restyled style tag).movedTo position) = [] := by
  cases trimmed : tag.trim with
  | none =>
      rw [restyled_of_none trimmed]
      exact inTag_of_none trimmed
  | some mark =>
      cases swallowed : swallows style tag with
      | true =>
          rw [restyled_of_swallows swallowed]
          exact inTag_of_none rfl
      | false =>
          rw [restyled_of_some noEscape trimmed swallowed]
          exact inTag_of_same rfl

/-! ## A pass -/

/-- The same tags at the same positions with the same indicator and code, where
every tag with a trim mark has the enforced one. -/
def Keeps (style : TrimMark) (text text' : Text) : Prop :=
  List.Forall₂ (fun tag tag' =>
      tag'.beginPos = tag.beginPos ∧ tag'.endPos = tag.endPos ∧
      tag'.indicator = tag.indicator ∧ tag'.code = tag.code ∧
      (tag.trim ≠ none → tag'.trim = some style))
    text.tags text'.tags

/-- A tag keeps its indicator and gets the mark unless it swallows the mark. -/
theorem keeps_tag_iff {style : TrimMark} {tag : Tag}
    (noEscape : tag.indicator ≠ .escape) :
    ((restyled style tag).beginPos = tag.beginPos ∧
      (restyled style tag).endPos = tag.endPos ∧
      (restyled style tag).indicator = tag.indicator ∧
      (restyled style tag).code = tag.code ∧
      (tag.trim ≠ none → (restyled style tag).trim = some style)) ↔
    swallows style tag = false := by
  have ends : (restyled style tag).endPos = tag.endPos := by
    rw [Tag.endPos_eq, Tag.endPos_eq, restyled_beginPos, restyled_text_length]
  constructor
  · rintro ⟨-, -, indicator, -, -⟩
    by_contra swallowed
    rw [Bool.not_eq_false] at swallowed
    rw [restyled_of_swallows swallowed, (swallows_iff.mp swallowed).1] at indicator
    contradiction
  · intro apart
    refine ⟨restyled_beginPos style tag, ends, ?_⟩
    cases trimmed : tag.trim with
    | none => simp [restyled_of_none trimmed]
    | some mark => simp [restyled_of_some noEscape trimmed apart]

/-- A pass over any text breaks off nowhere and leaves the text around the tags
as it is.  The tags of the result are the restyled ones at their old positions.
So they are the same but for their trim marks exactly if no mark is
swallowed. -/
theorem pass_restyles (style : TrimMark) (enabled : Bool) (exclude : List String)
    (basePath : String) (source : Source) :
    ∃ text,
      LinterClass.rightTrim.pass ⟨enabled, exclude, .enforcedStyle style⟩ basePath
        source = .ok text ∧
      text.tags = source.content.tags.map (restyled style) ∧
      text.around 0 text.tags = source.content.around 0 source.content.tags ∧
      (Keeps style source.content text ↔
        ∀ tag ∈ source.content.tags, swallows style tag = false) := by
  obtain ⟨text, passed, rewritten⟩ := (edits_restyled style).exists_pass
    LinterClass.rightTrim ⟨enabled, exclude, .enforcedStyle style⟩ basePath source
    rfl rfl
  have tags : text.tags = source.content.tags.map (restyled style) :=
    rewritten.tags_eq_map (follows_restyled style) (restyled_beginPos style)
      (restyled_text_length style)
  refine ⟨text, passed, tags, rewritten.around_tags (follows_restyled style), ?_⟩
  rw [Keeps, tags, List.forall₂_map_right_iff, List.forall₂_same]
  refine forall₂_congr fun tag member => ?_
  exact keeps_tag_iff (of_decide_eq_true (List.mem_filter.mp member).2)

/-- The mark of an output tag without code is swallowed. -/
theorem pass_swallows_mark :
    ∃ text,
      LinterClass.rightTrim.pass ⟨true, [], .enforcedStyle .equals⟩ "/"
        ⟨"a.html.erb", "<%=-%>"⟩ = .ok text ∧
      Text.tags "<%=-%>" = [⟨0, .output, [], some .dash⟩] ∧
      text = "<%==%>" ∧
      text.tags = [⟨0, .rawOutput, [], none⟩] ∧
      ¬Keeps .equals "<%=-%>" text := by
  have before : Text.tags "<%=-%>" = [⟨0, .output, [], some .dash⟩] := by
    decide +kernel
  have after : Text.tags "<%==%>" = [⟨0, .rawOutput, [], none⟩] := by
    decide +kernel
  refine ⟨"<%==%>", ?_, before, rfl, after, ?_⟩
  · decide +kernel
  · rw [Keeps, before, after]
    simp

end TemplateLint.RightTrim
