import TemplateLint.Proofs.Correction.Rewriting
import TemplateLint.Proofs.Correction.TagStyle

/-!
# Code set off by white space

A pass of `SpaceAroundErbTag` alone changes white space at the ends of code.
Every tag is read again with the same indicator, the same trim mark and the
same code between the white space, and the text around the tags stays.
-/

namespace TemplateLint

open Text Script

namespace Text

/-! ## White space around other characters -/

section Parts

variable {lead core trail : Text}

/-- Two runs of white space around something that neither begins nor ends with
white space. -/
structure Frames (lead core trail : Text) : Prop where
  leading : ∀ c ∈ lead, Character.isBlank c = true
  trailing : ∀ c ∈ trail, Character.isBlank c = true
  inhabited : core ≠ []
  first : FirstIs (fun c => Character.isBlank c = false) core
  last : LastIs (fun c => Character.isBlank c = false) core

theorem Frames.takeWhile_eq (frames : Frames lead core trail) :
    (lead ++ (core ++ trail)).takeWhile Character.isBlank = lead := by
  apply takeWhile_append frames.leading
  obtain ⟨c, rest, rfl⟩ := List.exists_cons_of_ne_nil frames.inhabited
  have first := firstIs_cons.mp frames.first
  exact firstIs_cons.mpr first

theorem Frames.lastRun_eq (frames : Frames lead core trail) :
    lastRun Character.isBlank (lead ++ (core ++ trail)) = trail := by
  rw [← List.append_assoc]
  apply lastRun_append _ frames.trailing
  exact (lastIs_append_of_ne_nil frames.inhabited).mpr frames.last

theorem Frames.trim_eq (frames : Frames lead core trail) :
    (lead ++ (core ++ trail)).trim = core := by
  have parts := @List.takeWhile_append_dropWhile _ Character.isBlank
    (lead ++ (core ++ trail))
  rw [frames.takeWhile_eq] at parts
  have dropped := List.append_cancel_left parts
  have ends := @dropLastRun_append_lastRun Character.isBlank (core ++ trail)
  rw [lastRun_append frames.last frames.trailing] at ends
  rw [trim, dropped]
  exact List.append_cancel_right ends

/-- Code that is not white space throughout is framed by the white space at its
ends. -/
theorem exists_frames {code : Text}
    (some_code : code.all Character.isBlank = false) :
    ∃ lead core trail, code = lead ++ (core ++ trail) ∧
      Frames lead core trail := by
  obtain ⟨c, rest, parts, solid⟩ := exists_first_solid some_code
  have inner : (c :: rest).all Character.isBlank = false := by simp [solid]
  obtain ⟨front, d, ends, solid'⟩ := exists_last_solid inner
  refine ⟨code.takeWhile Character.isBlank, front ++ [d],
    lastRun Character.isBlank (c :: rest), ?_, ?_⟩
  · rw [List.append_assoc, List.singleton_append, ← ends, ← parts]
  · refine ⟨fun _ => List.mem_takeWhile_imp, fun _ => test_of_mem_lastRun,
      by simp, ?_, lastIs_concat.mpr solid'⟩
    cases front with
    | nil =>
        rw [List.nil_append, firstIs_cons]
        exact solid'
    | cons e front =>
        rw [List.cons_append, List.cons.injEq] at ends
        rw [List.cons_append, firstIs_cons, ← ends.1]
        exact solid

theorem closes_blank_append {text : Text}
    (blank : ∀ c ∈ lead, Character.isBlank c = true) :
    Closes (lead ++ text) ↔ Closes text := by
  induction lead with
  | nil => rfl
  | cons c lead induction =>
      have other : c ≠ '%' := by
        rintro rfl
        exact absurd (blank '%' (.head _)) (by decide)
      rw [List.cons_append, closes_cons_iff,
        induction fun d member => blank d (.tail _ member)]
      simp [other]

theorem closes_append_blank {text : Text}
    (blank : ∀ c ∈ trail, Character.isBlank c = true) :
    Closes (text ++ trail) ↔ Closes text := by
  induction trail using List.reverseRecOn with
  | nil => rw [List.append_nil]
  | append_singleton trail c induction =>
      have other : c ≠ '>' := by
        rintro rfl
        exact absurd (blank '>' (by simp)) (by decide)
      rw [← List.append_assoc, closes_concat_iff other,
        induction fun d member => blank d (List.mem_append_left _ member)]

/-- White space at the ends of code closes no tag. -/
theorem Frames.closes_iff (frames : Frames lead core trail) :
    Closes (lead ++ (core ++ trail)) ↔ Closes core := by
  rw [closes_blank_append frames.leading, closes_append_blank frames.trailing]

end Parts

end Text

namespace SpaceAroundErbTag

/-- What white space at an end of code becomes. -/
def settled (spaces : Text) : Text :=
  if isAccepted spaces then spaces else [' ']

/-- Tags that are left as they are. -/
def leaves (tag : Tag) : Bool :=
  tag.indicator = .comment || tag.code.all Character.isBlank

/-- What a match becomes. -/
def respaced (tag : Tag) : Tag :=
  if tag.indicator = .escape || leaves tag then tag
  else
    { tag with
      code := settled (tag.code.takeWhile Character.isBlank) ++
        (tag.code.trim ++ settled (lastRun Character.isBlank tag.code)) }

theorem isAccepted_iff {spaces : Text} :
    isAccepted spaces = true ↔ spaces.length = 1 ∨ '\n' ∈ spaces := by
  simp [isAccepted]

theorem isAccepted_settled (spaces : Text) : isAccepted (settled spaces) = true := by
  rw [settled]
  split
  · assumption
  · rfl

theorem settled_ne_nil (spaces : Text) : settled spaces ≠ [] := by
  intro nothing
  have accepted := isAccepted_settled spaces
  rw [nothing] at accepted
  contradiction

theorem settled_blank {spaces : Text}
    (blank : ∀ c ∈ spaces, Character.isBlank c = true) :
    ∀ c ∈ settled spaces, Character.isBlank c = true := by
  rw [settled]
  split
  · exact blank
  · intro c member
    rw [List.mem_singleton.mp member]
    decide

theorem frames_settled {lead core trail : Text} (frames : Frames lead core trail) :
    Frames (settled lead) core (settled trail) :=
  ⟨settled_blank frames.leading, settled_blank frames.trailing, frames.inhabited,
    frames.first, frames.last⟩

/-- A match that is changed has framed code. -/
theorem exists_frames_of_not_leaves {tag : Tag} (changed : leaves tag = false) :
    ∃ lead core trail, tag.code = lead ++ (core ++ trail) ∧
      Frames lead core trail := by
  rw [leaves, Bool.or_eq_false_iff] at changed
  exact exists_frames changed.2

theorem respaced_of_leaves {tag : Tag}
    (left : tag.indicator = .escape ∨ leaves tag = true) : respaced tag = tag := by
  rw [respaced, if_pos (by simpa using left)]

theorem respaced_of_frames {tag : Tag} {lead core trail : Text}
    (noEscape : tag.indicator ≠ .escape) (changed : leaves tag = false)
    (parts : tag.code = lead ++ (core ++ trail)) (frames : Frames lead core trail) :
    respaced tag = { tag with code := settled lead ++ (core ++ settled trail) } := by
  rw [respaced, if_neg (by simp [noEscape, changed]), parts, frames.takeWhile_eq,
    frames.trim_eq, frames.lastRun_eq]

theorem respaced_indicator (tag : Tag) :
    (respaced tag).indicator = tag.indicator := by
  rw [respaced]
  split <;> rfl

/-! ## Reading the changed tags -/

/-- White space behind an opening delimiter belongs to no indicator. -/
theorem fits_of_blank {indicator : Indicator} {c : Char} {rest : Text}
    (blank : Character.isBlank c = true) : Tag.Fits indicator (c :: rest) := by
  have other : ∀ d, Character.isBlank d = false → c ≠ d := by
    rintro d solid rfl
    rw [blank] at solid
    contradiction
  cases indicator with
  | plain =>
      refine ⟨firstIs_cons.mpr ⟨other _ (by decide), other _ (by decide),
        other _ (by decide)⟩, ?_⟩
      intro later same
      exact absurd (List.cons.inj same).1 (other _ (by decide))
  | output => exact firstIs_cons.mpr (other _ (by decide))
  | rawOutput => trivial
  | trimLeft => trivial
  | comment => trivial
  | escape => trivial

/-- Code that ends with white space is not the shorter for a trim mark. -/
theorem shortest_of_blank {code trail : Text} {trim : Option TrimMark}
    (unclosed : ¬Closes (code ++ trail)) (some_trail : trail ≠ [])
    (blank : ∀ c ∈ trail, Character.isBlank c = true) :
    Tag.Shortest (code ++ trail) trim := by
  rw [Tag.shortest_iff]
  refine ⟨unclosed, fun _ => ?_⟩
  obtain rfl | ⟨trail, c, rfl⟩ := trail.eq_nil_or_concat'
  · contradiction
  · have last := blank c (by simp)
    rw [← List.append_assoc, List.getLast?_concat]
    constructor
    · rintro ⟨rfl⟩
      contradiction
    · rintro ⟨rfl⟩
      contradiction

theorem follows_respaced : Tag.Follows respaced := by
  refine ⟨?_, ?_, ?_⟩
  · intro tag rest rest' position found closes
    by_cases left : tag.indicator = .escape ∨ leaves tag = true
    · rw [respaced_of_leaves left]
      exact Tag.at?_movedTo position found closes
    · rw [not_or, Bool.not_eq_true] at left
      obtain ⟨lead, core, trail, parts, frames⟩ :=
        exists_frames_of_not_leaves left.2
      obtain ⟨behind, -, -, shortest, -⟩ := Tag.at?_eq_some_iff.mp found
      have unclosed := (Tag.shortest_iff.mp shortest).1
      rw [respaced_of_frames left.1 left.2 parts frames]
      rw [parts, frames.closes_iff, ← (frames_settled frames).closes_iff] at unclosed
      refine Tag.at?_eq_some_iff.mpr ⟨rest', rfl, rfl, ?_, ?_⟩
      · simp only [Tag.movedTo]
        rw [← List.append_assoc] at unclosed ⊢
        exact shortest_of_blank unclosed (settled_ne_nil trail)
          (settled_blank frames.trailing)
      · obtain ⟨c, spaces, begins⟩ :=
          List.exists_cons_of_ne_nil (settled_ne_nil lead)
        have blank := settled_blank frames.leading
        rw [begins] at blank
        simp only [Tag.movedTo, begins]
        exact fits_of_blank (blank c (.head _))
  · exact fun escape => respaced_of_leaves (.inl escape)
  · intro tag noEscape
    rwa [respaced_indicator]

/-! ## Corrections of one tag -/

/-- White space at an end of code, with what it becomes. -/
def edge (spaces : Text) : List Piece :=
  if isAccepted spaces then keeping spaces else [.swap spaces [' ']]

@[simp] theorem before_edge (spaces : Text) : before (edge spaces) = spaces := by
  rw [edge]
  split
  · exact before_keeping spaces
  · exact List.append_nil spaces

@[simp] theorem after_edge (spaces : Text) : after (edge spaces) = settled spaces := by
  rw [edge, settled]
  split
  · exact after_keeping spaces
  · rfl

theorem made_edge (position : Nat) (spaces : Text) :
    made position (edge spaces) =
      if isAccepted spaces then []
      else [⟨position, (position + spaces.length : Nat), [' ']⟩] := by
  rw [edge]
  split
  · exact made_only_keeping position spaces
  · rfl

theorem corrections_atStart (tag : Tag) :
    (atStart tag).filterMap (·.correction) =
      made tag.codeBegin (edge (tag.code.takeWhile Character.isBlank)) := by
  rw [made_edge, atStart]
  split
  · rfl
  · rfl

theorem corrections_atEnd (tag : Tag) :
    (atEnd tag).filterMap (·.correction) =
      made (tag.codeEnd - (lastRun Character.isBlank tag.code).length)
        (edge (lastRun Character.isBlank tag.code)) := by
  have short : (lastRun Character.isBlank tag.code).length ≤ tag.codeEnd := by
    have parts := congrArg List.length
      (@dropLastRun_append_lastRun Character.isBlank tag.code)
    rw [List.length_append] at parts
    rw [Tag.codeEnd]
    omega
  rw [made_edge, atEnd, Nat.sub_add_cancel short]
  split
  · rfl
  · rfl

theorem inTag_of_leaves {tag : Tag} (left : leaves tag = true) : inTag tag = [] := by
  rw [leaves] at left
  rw [inTag, if_pos left]

theorem inTag_of_not_leaves {tag : Tag} (changed : leaves tag = false) :
    inTag tag = atStart tag ++ atEnd tag := by
  rw [leaves] at changed
  rw [inTag, if_neg (by simp [changed])]

/-- The corrections of a tag change it. -/
theorem exists_script_inTag {tag : Tag} (noEscape : tag.indicator ≠ .escape) :
    ∃ script, before script = tag.text ∧ after script = (respaced tag).text ∧
      made tag.beginPos script = (inTag tag).filterMap (·.correction) := by
  cases left : leaves tag with
  | true =>
      exact Tag.exists_script_of_kept (inTag_of_leaves left)
        (respaced_of_leaves (.inr left))
  | false =>
      obtain ⟨lead, core, trail, parts, frames⟩ := exists_frames_of_not_leaves left
      refine ⟨keeping tag.opening ++ (edge lead ++ (keeping core ++ (edge trail ++
        keeping (Tag.closing tag.trim)))), ?_, ?_, ?_⟩
      · simp [Tag.text, Tag.opening, Tag.closing, parts]
      · rw [respaced_of_frames noEscape left parts frames]
        simp [Tag.text, Tag.opening, Tag.closing]
      · have trailing : tag.codeBegin + lead.length + core.length =
            tag.codeEnd - trail.length := by
          rw [Tag.codeEnd, parts]
          simp only [List.length_append]
          omega
        rw [made_keeping, ← Tag.codeBegin_eq, made_append, before_edge, made_keeping,
          trailing, made_append, made_only_keeping, List.append_nil,
          inTag_of_not_leaves left, List.filterMap_append, corrections_atStart,
          corrections_atEnd, parts, frames.takeWhile_eq, frames.lastRun_eq]

theorem mem_inTag_iff {tag : Tag} {finding : Finding} :
    finding ∈ inTag tag ↔
      leaves tag = false ∧ (finding ∈ atStart tag ∨ finding ∈ atEnd tag) := by
  cases left : leaves tag with
  | true => simp [inTag_of_leaves left]
  | false => simp [inTag_of_not_leaves left]

theorem edits_respaced : Tag.Edits inTag respaced := by
  refine ⟨follows_respaced, fun _ => exists_script_inTag, ?_, ?_⟩
  · intro tag finding found
    obtain ⟨changed, places⟩ := mem_inTag_iff.mp found
    obtain ⟨lead, core, trail, parts, frames⟩ := exists_frames_of_not_leaves changed
    have size := congrArg List.length parts
    have begins := tag.beginPos_lt_codeBegin
    have ends := tag.codeEnd_lt_endPos
    simp only [List.length_append] at size
    rw [Tag.codeEnd] at ends
    rcases places with leading | ending
    · obtain ⟨-, rfl⟩ := mem_atStart_iff.mp leading
      rw [parts, frames.takeWhile_eq]
      exact ⟨_, _, _, _, rfl, by omega, by omega, by omega⟩
    · obtain ⟨-, rfl⟩ := mem_atEnd_iff.mp ending
      rw [parts, frames.lastRun_eq, Tag.codeEnd]
      exact ⟨_, _, _, _, rfl, by omega, by omega, by omega⟩
  · intro tag
    cases left : leaves tag with
    | true =>
        rw [inTag_of_leaves left]
        exact .nil
    | false =>
        obtain ⟨lead, core, trail, parts, frames⟩ := exists_frames_of_not_leaves left
        rw [inTag_of_not_leaves left, List.pairwise_append]
        refine ⟨?_, ?_, ?_⟩
        · rw [atStart]
          split <;> simp
        · rw [atEnd]
          split <;> simp
        · -- what neither begins nor ends with white space keeps both ends apart
          intro first leading second ending
          obtain ⟨-, rfl⟩ := mem_atStart_iff.mp leading
          obtain ⟨-, rfl⟩ := mem_atEnd_iff.mp ending
          have size := congrArg List.length parts
          have solid := List.length_pos_iff.mpr frames.inhabited
          rw [parts, frames.takeWhile_eq, frames.lastRun_eq, Tag.codeEnd]
          simp only [Finding.replacing, List.length_append] at size ⊢
          omega

/-- Nothing is found in a respaced tag. -/
theorem inTag_respaced {tag : Tag} (position : Nat)
    (noEscape : tag.indicator ≠ .escape) :
    inTag ((respaced tag).movedTo position) = [] := by
  cases left : leaves tag with
  | true =>
      rw [respaced_of_leaves (.inr left)]
      exact inTag_of_leaves left
  | false =>
      obtain ⟨lead, core, trail, parts, frames⟩ := exists_frames_of_not_leaves left
      have settledFrames := frames_settled frames
      rw [respaced_of_frames noEscape left parts frames,
        List.eq_nil_iff_forall_not_mem]
      intro finding found
      rcases (mem_inTag_iff.mp found).2 with leading | ending
      · have unaccepted := (mem_atStart_iff.mp leading).1
        simp only [Tag.movedTo, settledFrames.takeWhile_eq,
          isAccepted_settled] at unaccepted
        contradiction
      · have unaccepted := (mem_atEnd_iff.mp ending).1
        simp only [Tag.movedTo, settledFrames.lastRun_eq,
          isAccepted_settled] at unaccepted
        contradiction

/-! ## A pass -/

/-- A tag after a pass: its code is the same between the white space, which is
one character or has a newline at both ends. -/
structure SetOff (tag tag' : Tag) : Prop where
  indicator : tag'.indicator = tag.indicator
  trimMark : tag'.trim = tag.trim
  code : tag'.code.trim = tag.code.trim
  kept : tag.indicator = .comment ∨ tag.code.all Character.isBlank = true →
    tag'.text = tag.text
  leading : tag.indicator ≠ .comment → tag.code.all Character.isBlank = false →
    (tag'.code.takeWhile Character.isBlank).length = 1 ∨
      '\n' ∈ tag'.code.takeWhile Character.isBlank
  ending : tag.indicator ≠ .comment → tag.code.all Character.isBlank = false →
    (lastRun Character.isBlank tag'.code).length = 1 ∨
      '\n' ∈ lastRun Character.isBlank tag'.code

/-- A tag that is respaced is set off. -/
theorem setOff_of_becomes {tag tag' : Tag} (noEscape : tag.indicator ≠ .escape)
    (becomes : Tag.Becomes respaced tag tag') : SetOff tag tag' := by
  rw [becomes]
  cases left : leaves tag with
  | true =>
      rw [respaced_of_leaves (.inr left)]
      rw [leaves, Bool.or_eq_true, decide_eq_true_eq] at left
      refine ⟨rfl, rfl, rfl, fun _ => rfl, ?_, ?_⟩
      · intro noComment some_code
        simp [noComment, some_code] at left
      · intro noComment some_code
        simp [noComment, some_code] at left
  | false =>
      obtain ⟨lead, core, trail, parts, frames⟩ := exists_frames_of_not_leaves left
      have settledFrames := frames_settled frames
      rw [respaced_of_frames noEscape left parts frames]
      rw [leaves, Bool.or_eq_false_iff, decide_eq_false_iff_not] at left
      refine ⟨rfl, rfl, ?_, ?_, ?_, ?_⟩
      · simp only [Tag.movedTo]
        rw [parts, settledFrames.trim_eq, frames.trim_eq]
      · simp [left.1, left.2]
      · intro _ _
        simp only [Tag.movedTo]
        rw [settledFrames.takeWhile_eq, ← isAccepted_iff]
        exact isAccepted_settled lead
      · intro _ _
        simp only [Tag.movedTo]
        rw [settledFrames.lastRun_eq, ← isAccepted_iff]
        exact isAccepted_settled trail

/-- A pass over any text breaks off nowhere.  A scan of the result finds the
same tags in the same order, with their code set off by one white space
character or by white space with a newline; comments, tags of white space alone
and the text around tags stay. -/
theorem pass_sets_off (config : LinterConfig) (basePath : String)
    (source : Source) :
    ∃ text,
      LinterClass.spaceAroundErbTag.pass config basePath source = .ok text ∧
      List.Forall₂ SetOff source.content.tags text.tags ∧
      text.around 0 text.tags = source.content.around 0 source.content.tags := by
  obtain ⟨text, passed, rewritten⟩ := edits_respaced.exists_pass
    LinterClass.spaceAroundErbTag config basePath source rfl rfl
  refine ⟨text, passed, ?_, rewritten.around_tags follows_respaced⟩
  apply (rewritten.tags follows_respaced).imp
  exact fun _ _ both => setOff_of_becomes both.1 both.2

example : LinterClass.spaceAroundErbTag.pass ⟨true, [], .none⟩ "/"
    ⟨"a.html.erb", "<%=x -%><%#y%>"⟩ = .ok "<%= x -%><%#y%>" := by
  decide +kernel

end SpaceAroundErbTag

end TemplateLint
