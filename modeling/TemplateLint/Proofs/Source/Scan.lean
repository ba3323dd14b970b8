import TemplateLint.Proofs.Source.Tag

/-!
# What a scan reads

The matches of a scan stand in the text in increasing order, each with the
longest indicator that fits and the shortest code, and an opening delimiter
outside all of them is never closed.  These properties leave no choice: the
scan is the only list of matches that has them.
-/

namespace TemplateLint

/-! ## Parts of a text by their positions -/

/-- The characters between two positions. -/
def Text.between (text : Text) (first last : Nat) : Text :=
  (text.take last).drop first

namespace Text

theorem drop_eq_between_append {first last : Nat} (text : Text)
    (ascending : first ≤ last) :
    text.drop first = text.between first last ++ text.drop last := by
  have behind : (text.drop first).drop (last - first) = text.drop last := by
    rw [List.drop_drop, Nat.add_sub_cancel' ascending]
  rw [between, List.drop_take, ← behind, List.take_append_drop]

theorem between_of_drop {text part rest : Text} {first : Nat}
    (stands : text.drop first = part ++ rest) :
    text.between first (first + part.length) = part := by
  rw [between, List.drop_take, Nat.add_sub_cancel_left, stands,
    List.take_left]

theorem infix_pair_concat_iff {first second c : Char} {text : Text}
    (other : c ≠ second) :
    [first, second] <:+: text ++ [c] ↔ [first, second] <:+: text := by
  rw [List.infix_concat_iff, or_iff_right]
  rintro ⟨front, same⟩
  have last := congrArg List.getLast? same
  simp only [List.getLast?_append, List.getLast?_cons_cons,
    List.getLast?_singleton, Option.some_or, Option.some.injEq] at last
  exact other last.symm

theorem closes_concat_iff {text : Text} {c : Char} (other : c ≠ '>') :
    Closes (text ++ [c]) ↔ Closes text :=
  infix_pair_concat_iff other

end Text

namespace Tag

open Text

/-! ## Indicators that fit -/

/-- An indicator fits behind an opening delimiter if it stands there and a
closing delimiter follows it. -/
def Fitting (inner : Text) (indicator : Indicator) : Prop :=
  ∃ rest, inner = indicator.text ++ rest ∧ Closes rest

theorem indicator_text_injective {first second : Indicator}
    (same : first.text = second.text) : first = second := by
  cases first <;> cases second <;> simp [Indicator.text] at same ⊢

/-- Indicators are tried from the longest to the shortest. -/
theorem mem_earlier_of_longer {indicator other : Indicator}
    (longer : indicator.text.length < other.text.length) :
    other ∈ Indicator.candidates.takeWhile (· ≠ indicator) := by
  revert longer
  cases indicator <;> cases other <;> decide

theorem length_le_of_mem_earlier {indicator earlier : Indicator}
    (member : earlier ∈ Indicator.candidates.takeWhile (· ≠ indicator)) :
    indicator.text.length ≤ earlier.text.length := by
  by_contra shorter
  have behind := mem_earlier_of_longer (Nat.not_le.mp shorter)
  revert member behind
  cases indicator <;> cases earlier <;> decide

/-- A fitting indicator is tried first among the fitting ones exactly if none
of them is longer. -/
theorem fits_iff_longest {indicator : Indicator} {code rest : Text}
    {trim : Option TrimMark} :
    Fits indicator (code ++ (closing trim ++ rest)) ↔
      ∀ other, Fitting (indicator.text ++ (code ++ (closing trim ++ rest)))
          other →
        other.text.length ≤ indicator.text.length := by
  rw [← @earlier_eq_none_iff 0]
  simp only [withIndicator?_eq_none_iff]
  constructor
  · rintro vain other ⟨tail, same, closes⟩
    by_contra longer
    exact vain other (mem_earlier_of_longer (Nat.not_le.mp longer)) tail same
      closes
  · intro longest earlier member tail same closes
    have sameLength : indicator.text.length = earlier.text.length :=
      Nat.le_antisymm (length_le_of_mem_earlier member)
        (longest earlier ⟨tail, same, closes⟩)
    have sameText := (List.append_inj same sameLength).1
    have other := List.mem_takeWhile_imp member
    simp [indicator_text_injective sameText] at other

/-! ## Matches that stand in a text -/

/-- Code is the shortest if it holds no closing delimiter, and no trim mark at
its end. -/
theorem shortest_iff {code : Text} {trim : Option TrimMark} :
    Shortest code trim ↔
      ¬Closes code ∧
        (trim = none → code.getLast? ≠ some '-' ∧ code.getLast? ≠ some '=') := by
  have unclosed : Closes (code ++ TrimMark.text trim ++ ['%']) ↔
      Closes code := by
    rw [closes_concat_iff (by decide)]
    cases trim with
    | none => rw [TrimMark.text, List.append_nil]
    | some mark =>
        rw [TrimMark.text, closes_concat_iff (by cases mark <;> decide)]
  have untrimmed : LastIs (fun c => c ≠ '-' ∧ c ≠ '=') code ↔
      code.getLast? ≠ some '-' ∧ code.getLast? ≠ some '=' := by
    rw [LastIs]
    cases code.getLast? <;> simp
  constructor
  · intro shortest
    exact ⟨fun closes => shortest.unclosed (unclosed.mpr closes),
      fun bare => untrimmed.mp (shortest.untrimmed bare)⟩
  · rintro ⟨open_code, bare_code⟩
    exact ⟨fun closes => open_code (unclosed.mp closes),
      fun bare => untrimmed.mpr (bare_code bare)⟩

/-- A match stands in a text: its characters are those between its positions,
its code those between the positions of the code.  Its indicator is the longest
that fits, and its code the shortest. -/
structure Stands (text : Text) (tag : Tag) : Prop where
  cut : text.between tag.beginPos tag.endPos =
    ['<', '%'] ++ tag.indicator.text ++ tag.code ++ TrimMark.text tag.trim
      ++ ['%', '>']
  codeCut : text.between tag.codeBegin tag.codeEnd = tag.code
  fits : Fitting (text.drop (tag.beginPos + 2)) tag.indicator
  longest : ∀ other, Fitting (text.drop (tag.beginPos + 2)) other →
    other.text.length ≤ tag.indicator.text.length
  unclosed : ¬Closes tag.code
  untrimmed : tag.trim = none →
    tag.code.getLast? ≠ some '-' ∧ tag.code.getLast? ≠ some '='

theorem beginPos_lt_endPos (tag : Tag) : tag.beginPos < tag.endPos := by
  simp only [endPos, codeEnd, codeBegin]
  omega

theorem drop_of_stands {text : Text} {tag : Tag} (stands : Stands text tag) :
    text.drop tag.beginPos = tag.text ++ text.drop tag.endPos := by
  rw [drop_eq_between_append text tag.beginPos_lt_endPos.le, stands.cut, Tag.text]

theorem drop_inner {text rest : Text} {tag : Tag}
    (begins : text.drop tag.beginPos = tag.text ++ rest) :
    text.drop (tag.beginPos + 2) =
      tag.indicator.text ++ (tag.code ++ (closing tag.trim ++ rest)) := by
  rw [← List.drop_drop, begins, text_append]
  rfl

/-- The matches that stand in a text are those that are read where they
begin. -/
theorem stands_iff {text : Text} {tag : Tag} :
    Stands text tag ↔ at? tag.beginPos (text.drop tag.beginPos) = some tag := by
  rw [at?_eq_some_iff]
  constructor
  · intro stands
    have begins := drop_of_stands stands
    have longest := stands.longest
    rw [drop_inner begins] at longest
    exact ⟨_, begins, rfl,
      shortest_iff.mpr ⟨stands.unclosed, stands.untrimmed⟩,
      fits_iff_longest.mpr longest⟩
  · rintro ⟨rest, begins, -, shortest, fits⟩
    obtain ⟨unclosed, untrimmed⟩ := shortest_iff.mp shortest
    have inner := drop_inner begins
    have code : text.drop tag.codeBegin =
        tag.code ++ (closing tag.trim ++ rest) := by
      rw [codeBegin, ← List.drop_drop, inner, List.drop_left]
    refine ⟨?_, between_of_drop code, ?_, ?_, unclosed, untrimmed⟩
    · rw [endPos_eq]
      exact between_of_drop begins
    · exact ⟨_, inner, closes_body⟩
    · rw [inner]
      exact fits_iff_longest.mp fits

/-! ## Scans -/

/-- A position that a match takes up. -/
def Holds (tag : Tag) (position : Nat) : Prop :=
  tag.beginPos ≤ position ∧ position < tag.endPos

/-- A list of matches is what is read in a text: they stand in it one behind
the other, and an opening delimiter outside all of them has no closing
delimiter anywhere behind it. -/
structure Reads (text : Text) (tags : List Tag) : Prop where
  ordered : tags.Pairwise fun first second =>
    first.beginPos < second.beginPos ∧ first.endPos ≤ second.beginPos
  standing : ∀ tag ∈ tags, Stands text tag
  complete : ∀ position inner, text.drop position = '<' :: '%' :: inner →
    (∀ tag ∈ tags, ¬tag.Holds position) → ¬Closes inner

/-- The same from a position on, in terms of the tag that is read at each
place. -/
structure ReadsFrom (whole : Text) (position : Nat) (tags : List Tag) :
    Prop where
  ordered : tags.Pairwise fun first second => first.endPos ≤ second.beginPos
  standing : ∀ tag ∈ tags, position ≤ tag.beginPos ∧
    at? tag.beginPos (whole.drop tag.beginPos) = some tag
  complete : ∀ place, position ≤ place → (∀ tag ∈ tags, ¬tag.Holds place) →
    at? place (whole.drop place) = none

theorem reads_iff_readsFrom {text : Text} {tags : List Tag} :
    Reads text tags ↔ ReadsFrom text 0 tags := by
  constructor
  · intro reads
    refine ⟨reads.ordered.imp And.right, ?_, ?_⟩
    · intro tag member
      exact ⟨Nat.zero_le _, stands_iff.mp (reads.standing tag member)⟩
    · intro place _ outside
      rw [at?_eq_none_iff]
      exact fun inner opens => reads.complete place inner opens outside
  · intro reads
    refine ⟨?_, ?_, ?_⟩
    · apply reads.ordered.imp
      intro first second apart
      exact ⟨first.beginPos_lt_endPos.trans_le apart, apart⟩
    · exact fun tag member => stands_iff.mpr (reads.standing tag member).2
    · intro position inner opens outside
      have none_found := reads.complete position (Nat.zero_le _) outside
      exact at?_eq_none_iff.mp none_found inner opens

theorem readsFrom_end_iff {whole : Text} {position : Nat} {tags : List Tag}
    (ended : whole.drop position = []) :
    ReadsFrom whole position tags ↔ [] = tags := by
  have nothing : ∀ place, position ≤ place →
      at? place (whole.drop place) = none := by
    intro place behind
    rw [List.drop_eq_nil_of_le ((List.drop_eq_nil_iff.mp ended).trans behind)]
    rfl
  constructor
  · intro reads
    cases tags with
    | nil => rfl
    | cons tag tags =>
        obtain ⟨behind, found⟩ := reads.standing tag (.head _)
        rw [nothing tag.beginPos behind] at found
        contradiction
  · rintro rfl
    exact ⟨.nil, by simp, fun place behind _ => nothing place behind⟩

/-- The match at a position is the first of those that are read from there
on. -/
theorem readsFrom_tag_iff {whole : Text} {tag : Tag} {tags : List Tag}
    (found : at? tag.beginPos (whole.drop tag.beginPos) = some tag) :
    ReadsFrom whole tag.beginPos tags ↔
      ∃ later, ReadsFrom whole tag.endPos later ∧ tag :: later = tags := by
  constructor
  · intro reads
    -- something that is read holds the position, and only this tag can begin there
    have first_read : tag ∈ tags := by
      by_contra missing
      have outside : ∀ other ∈ tags, ¬other.Holds tag.beginPos := by
        rintro other member ⟨begins, -⟩
        obtain ⟨behind, read⟩ := reads.standing other member
        rw [Nat.le_antisymm begins behind, found, Option.some.injEq] at read
        exact missing (read ▸ member)
      rw [reads.complete tag.beginPos le_rfl outside] at found
      contradiction
    obtain ⟨front, later, rfl⟩ := List.append_of_mem first_read
    -- a match before this tag would begin behind it
    have nothing_before : front = [] := by
      apply List.eq_nil_iff_forall_not_mem.mpr
      intro other member
      have apart := (List.pairwise_append.mp reads.ordered).2.2 other member
        tag (.head _)
      have behind := (reads.standing other (List.mem_append_left _ member)).1
      exact absurd (behind.trans_lt other.beginPos_lt_endPos)
        (Nat.not_lt.mpr apart)
    subst nothing_before
    obtain ⟨apart, ordered⟩ := List.pairwise_cons.mp reads.ordered
    refine ⟨later, ⟨ordered, ?_, ?_⟩, rfl⟩
    · intro other member
      exact ⟨apart other member, (reads.standing other (.tail _ member)).2⟩
    · intro place behind outside
      apply reads.complete place (tag.beginPos_lt_endPos.le.trans behind)
      intro other member
      rcases List.mem_cons.mp member with rfl | inLater
      · exact fun holds => Nat.not_lt.mpr behind holds.2
      · exact outside other inLater
  · rintro ⟨later, reads, rfl⟩
    refine ⟨?_, ?_, ?_⟩
    · apply List.Pairwise.cons _ reads.ordered
      exact fun other member => (reads.standing other member).1
    · intro other member
      rcases List.mem_cons.mp member with rfl | inLater
      · exact ⟨le_rfl, found⟩
      · obtain ⟨behind, read⟩ := reads.standing other inLater
        exact ⟨tag.beginPos_lt_endPos.le.trans behind, read⟩
    · intro place behind outside
      apply reads.complete place
      · by_contra inside
        exact outside tag (.head _) ⟨behind, Nat.not_le.mp inside⟩
      · exact fun other member => outside other (.tail _ member)

/-- A place where nothing is read does not matter. -/
theorem readsFrom_succ_iff {whole : Text} {position : Nat} {tags : List Tag}
    (none_found : at? position (whole.drop position) = none) :
    ReadsFrom whole position tags ↔ ReadsFrom whole (position + 1) tags := by
  constructor
  · intro reads
    refine ⟨reads.ordered, ?_, ?_⟩
    · intro tag member
      obtain ⟨behind, read⟩ := reads.standing tag member
      refine ⟨Nat.lt_of_le_of_ne behind ?_, read⟩
      rintro rfl
      rw [none_found] at read
      contradiction
    · exact fun place behind => reads.complete place (Nat.le_of_succ_le behind)
  · intro reads
    refine ⟨reads.ordered, ?_, ?_⟩
    · intro tag member
      obtain ⟨behind, read⟩ := reads.standing tag member
      exact ⟨Nat.le_of_succ_le behind, read⟩
    · intro place behind outside
      rcases Nat.eq_or_lt_of_le behind with rfl | further
      · exact none_found
      · exact reads.complete place further outside

theorem readsFrom_iff_scanFrom {whole rest : Text} {position : Nat}
    {tags : List Tag} (stands : whole.drop position = rest) :
    ReadsFrom whole position tags ↔ scanFrom 0 position rest = tags := by
  induction position, rest using scan_induction generalizing tags with
  | nil position => exact readsFrom_end_iff stands
  | tag tag rest found induction =>
      have behind : whole.drop tag.endPos = rest := by
        rw [endPos_eq, ← List.drop_drop, stands, List.drop_left]
      rw [scanFrom_of_some found, readsFrom_tag_iff (stands ▸ found)]
      simp only [induction behind, exists_eq_left']
  | other position c rest none_found induction =>
      have behind : whole.drop (position + 1) = rest := by
        rw [← List.drop_drop, stands]
        rfl
      rw [scanFrom_of_none none_found, readsFrom_succ_iff (stands ▸ none_found),
        induction behind]

/-- A scan finds what is read in the text, and nothing else could be read. -/
theorem scan_eq_iff_reads {text : Text} {tags : List Tag} :
    scan text = tags ↔ Reads text tags := by
  rw [reads_iff_readsFrom, readsFrom_iff_scanFrom rfl]
  rfl

/-- The text `<%%>` without a closing delimiter behind it is an empty tag. -/
theorem eq_empty_of_stands {text later : Text} {tag : Tag}
    (stands : Stands text tag)
    (begins : text.drop tag.beginPos = '<' :: '%' :: '%' :: '>' :: later)
    (unclosed : ¬Closes later) :
    tag = ⟨tag.beginPos, .plain, [], none⟩ := by
  have inner : text.drop (tag.beginPos + 2) = '%' :: '>' :: later := by
    rw [← List.drop_drop, begins]
    rfl
  have found : at? tag.beginPos (text.drop tag.beginPos) = some tag :=
    stands_iff.mp stands
  have expected : at? tag.beginPos (text.drop tag.beginPos) =
      some ⟨tag.beginPos, .plain, [], none⟩ := by
    rw [at?_eq_some_iff]
    refine ⟨later, begins, rfl, shortest_nil none, ?_⟩
    refine ⟨by simp [closing, TrimMark.text], ?_⟩
    rintro rest same closes
    simp only [closing, TrimMark.text, List.nil_append, List.cons_append,
      List.cons.injEq, true_and] at same
    subst same
    exact unclosed (closes_of_cons closes (by decide))
  rw [expected, Option.some.injEq] at found
  exact found.symm

/-- The matches of a text stand in it in increasing order and apart, each with
the longest indicator and the shortest code, and every opening delimiter
outside them stays open; no other list of matches is like that.  The text
`<%%>` is an empty tag if no closing delimiter follows it.  The tags of a text
are the matches that are no escapes. -/
theorem scan_sound_and_complete (text : Text) :
    Reads text (scan text) ∧
    (∀ tags, Reads text tags → tags = scan text) ∧
    (∀ tag ∈ scan text, ∀ later,
      text.drop tag.beginPos = '<' :: '%' :: '%' :: '>' :: later →
      ¬Closes later → tag = ⟨tag.beginPos, .plain, [], none⟩) ∧
    text.tags.Sublist (scan text) ∧
    ∀ tag, tag ∈ text.tags ↔ tag ∈ scan text ∧ tag.indicator ≠ .escape := by
  have reads : Reads text (scan text) := scan_eq_iff_reads.mp rfl
  refine ⟨reads, ?_, ?_, List.filter_sublist, ?_⟩
  · exact fun tags also => (scan_eq_iff_reads.mpr also).symm
  · intro tag member later begins unclosed
    exact eq_empty_of_stands (reads.standing tag member) begins unclosed
  · intro tag
    simp [Text.tags]

end Tag

end TemplateLint
