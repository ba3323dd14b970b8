import TemplateLint.Proofs.Text.Lines
import TemplateLint.Source.Tag

/-!
# Where tags stand

A tag stands at the start of a text when the text begins with its parts, its
code ends at the first closing delimiter and its indicator is the longest one.
The tags that a scan finds stand in the text one behind the other.
-/

namespace TemplateLint

open Text

/-- A text that has a closing delimiter. -/
def Text.Closes (text : Text) : Prop := ['%', '>'] <:+: text

theorem Text.not_closes_nil : ¬Closes [] := by simp [Closes]

theorem Text.infix_pair_cons_iff {first second c : Char} {rest : Text} :
    [first, second] <:+: c :: rest ↔
      (c = first ∧ ∃ later, rest = second :: later) ∨ [first, second] <:+: rest := by
  rw [List.infix_cons_iff]
  apply or_congr_left
  constructor
  · rintro ⟨later, same⟩
    simp only [List.cons_append, List.nil_append, List.cons.injEq] at same
    exact ⟨same.1.symm, later, same.2.symm⟩
  · rintro ⟨rfl, later, rfl⟩
    exact ⟨later, rfl⟩

theorem Text.closes_cons_iff {c : Char} {rest : Text} :
    Closes (c :: rest) ↔ (c = '%' ∧ ∃ later, rest = '>' :: later) ∨
      Closes rest :=
  infix_pair_cons_iff

theorem Text.closes_append (front rest : Text) :
    Closes (front ++ '%' :: '>' :: rest) :=
  ⟨front, rest, by simp⟩

namespace Tag

/-! ## Closing delimiters -/

/-- A trim mark and the closing delimiter. -/
def closing (trim : Option TrimMark) : Text := TrimMark.text trim ++ ['%', '>']

theorem closing?_closing (trim : Option TrimMark) (rest : Text) :
    closing? (closing trim ++ rest) = some trim := by
  cases trim with
  | none => rfl
  | some mark => cases mark <;> rfl

theorem eq_closing_of_closing? {text : Text} {trim : Option TrimMark}
    (found : closing? text = some trim) :
    ∃ rest, text = closing trim ++ rest := by
  unfold closing? at found
  split at found
  · cases found
    exact ⟨_, rfl⟩
  · cases found
    exact ⟨_, rfl⟩
  · cases found
    exact ⟨_, rfl⟩
  · contradiction

/-- Code and a trim mark up to the first closing delimiter. -/
structure Shortest (code : Text) (trim : Option TrimMark) : Prop where
  unclosed : ¬Closes (code ++ TrimMark.text trim ++ ['%'])
  untrimmed : trim = none → LastIs (fun c => c ≠ '-' ∧ c ≠ '=') code

theorem shortest_nil (trim : Option TrimMark) : Shortest [] trim := by
  constructor
  · cases trim with
    | none => simp [TrimMark.text, closes_cons_iff, not_closes_nil]
    | some mark =>
        cases mark <;>
          simp [TrimMark.text, TrimMark.char, closes_cons_iff, not_closes_nil]
  · intro _
    exact lastIs_nil

theorem closing?_cons_eq_none_iff {c : Char} {rest : Text} :
    closing? (c :: rest) = none ↔
      ¬(c = '%' ∧ ∃ later, rest = '>' :: later) ∧
      ¬((c = '-' ∨ c = '=') ∧ ∃ later, rest = '%' :: '>' :: later) := by
  constructor
  · intro none_found
    constructor
    · rintro ⟨rfl, later, rfl⟩
      simp [closing?] at none_found
    · rintro ⟨rfl | rfl, later, rfl⟩ <;> simp [closing?] at none_found
  · rintro ⟨notPlain, notTrimmed⟩
    cases found : closing? (c :: rest) with
    | none => rfl
    | some trim =>
        exfalso
        obtain ⟨later, same⟩ := eq_closing_of_closing? found
        cases trim with
        | none =>
            simp only [closing, TrimMark.text, List.nil_append, List.cons_append,
              List.cons.injEq] at same
            exact notPlain ⟨same.1, later, same.2⟩
        | some mark =>
            simp only [closing, TrimMark.text, List.nil_append, List.cons_append,
              List.cons.injEq] at same
            refine notTrimmed ⟨?_, later, same.2⟩
            rw [same.1]
            cases mark
            · exact .inl rfl
            · exact .inr rfl

/-- Where the first two characters of code and its end close a tag. -/
theorem starts_closing_iff {code : Text} {trim : Option TrimMark}
    (shortest : Shortest code trim) (rest : Text) :
    (∃ later, code ++ (closing trim ++ rest) = '%' :: '>' :: later) ↔
      code = [] ∧ trim = none := by
  constructor
  · rintro ⟨later, same⟩
    cases code with
    | nil =>
        cases trim with
        | none => exact ⟨rfl, rfl⟩
        | some mark =>
            cases mark <;> simp [closing, TrimMark.text, TrimMark.char] at same
    | cons c code =>
        exfalso
        rw [List.cons_append, List.cons.injEq] at same
        obtain ⟨rfl, same⟩ := same
        cases code with
        | nil =>
            cases trim with
            | none => simp [closing, TrimMark.text] at same
            | some mark =>
                cases mark <;> simp [closing, TrimMark.text, TrimMark.char] at same
        | cons d code =>
            rw [List.cons_append, List.cons.injEq] at same
            obtain ⟨rfl, -⟩ := same
            apply shortest.unclosed
            rw [List.cons_append, List.cons_append, List.cons_append,
              List.cons_append, closes_cons_iff]
            exact .inl ⟨rfl, _, rfl⟩
  · rintro ⟨rfl, rfl⟩
    exact ⟨rest, rfl⟩

/-- Code gets longer at its front where no closing delimiter stands there. -/
theorem shortest_cons_iff {c : Char} {code rest : Text}
    {trim : Option TrimMark} :
    Shortest (c :: code) trim ↔
      closing? (c :: (code ++ (closing trim ++ rest))) = none ∧
        Shortest code trim := by
  have heads : (∃ later, code ++ TrimMark.text trim ++ ['%'] = '>' :: later) ↔
      ∃ later, code ++ (closing trim ++ rest) = '>' :: later := by
    cases code with
    | nil =>
        cases trim with
        | none => simp [closing, TrimMark.text]
        | some mark => simp [closing, TrimMark.text]
    | cons d code => simp
  constructor
  · rintro ⟨unclosed, untrimmed⟩
    rw [List.cons_append, List.cons_append, closes_cons_iff, not_or,
      heads] at unclosed
    have shortest : Shortest code trim := by
      refine ⟨unclosed.2, ?_⟩
      intro bare
      have last := untrimmed bare
      cases code with
      | nil => exact lastIs_nil
      | cons d code => exact (lastIs_cons_of_ne_nil (by simp)).mp last
    refine ⟨?_, shortest⟩
    rw [closing?_cons_eq_none_iff]
    refine ⟨unclosed.1, ?_⟩
    rintro ⟨mark, closes⟩
    obtain ⟨rfl, bare⟩ := (starts_closing_iff shortest rest).mp closes
    have last := lastIs_singleton.mp (untrimmed bare)
    rcases mark with rfl | rfl
    · exact last.1 rfl
    · exact last.2 rfl
  · rintro ⟨none_found, shortest⟩
    rw [closing?_cons_eq_none_iff] at none_found
    constructor
    · rw [List.cons_append, List.cons_append, closes_cons_iff, not_or, heads]
      exact ⟨none_found.1, shortest.unclosed⟩
    · intro bare
      obtain rfl | some_code := eq_or_ne code []
      · rw [lastIs_singleton]
        have starts := (starts_closing_iff shortest rest).mpr ⟨rfl, bare⟩
        exact ⟨fun dash => none_found.2 ⟨.inl dash, starts⟩,
          fun equals => none_found.2 ⟨.inr equals, starts⟩⟩
      · rw [lastIs_cons_of_ne_nil some_code]
        exact shortest.untrimmed bare

/-- The body of a tag is what precedes the first closing delimiter. -/
theorem body?_eq_some_iff {text code : Text} {trim : Option TrimMark} :
    body? text = some (code, trim) ↔
      ∃ rest, text = code ++ (closing trim ++ rest) ∧ Shortest code trim := by
  induction text generalizing code with
  | nil =>
      constructor
      · intro found
        simp [body?] at found
      · rintro ⟨rest, same, -⟩
        simp [closing] at same
  | cons c text induction =>
      rw [body?]
      cases closes : closing? (c :: text) with
      | some mark =>
          simp only [Option.some.injEq, Prod.mk.injEq]
          obtain ⟨rest, textEq⟩ := eq_closing_of_closing? closes
          constructor
          · rintro ⟨rfl, rfl⟩
            exact ⟨rest, textEq, shortest_nil mark⟩
          · rintro ⟨later, same, shortest⟩
            cases code with
            | nil =>
                rw [same, List.nil_append, closing?_closing] at closes
                cases closes
                exact ⟨rfl, rfl⟩
            | cons d code =>
                have none_found := (@shortest_cons_iff d code later trim).mp shortest
                rw [same, List.cons_append, none_found.1] at closes
                contradiction
      | none =>
          simp only [Option.map_eq_some_iff, Prod.exists, Prod.mk.injEq]
          constructor
          · rintro ⟨inner, mark, found, rfl, rfl⟩
            obtain ⟨rest, rfl, shortest⟩ := induction.mp found
            exact ⟨rest, rfl, shortest_cons_iff.mpr ⟨closes, shortest⟩⟩
          · rintro ⟨rest, same, shortest⟩
            cases code with
            | nil =>
                rw [same, List.nil_append, closing?_closing] at closes
                contradiction
            | cons d code =>
                rw [List.cons_append, List.cons.injEq] at same
                obtain ⟨rfl, rfl⟩ := same
                have inner := (@shortest_cons_iff c code rest trim).mp shortest
                exact ⟨code, trim, induction.mpr ⟨rest, rfl, inner.2⟩, rfl, rfl⟩

/-- A text has a body exactly if it has a closing delimiter. -/
theorem body?_eq_none_iff {text : Text} : body? text = none ↔ ¬Closes text := by
  induction text with
  | nil => simp [body?, not_closes_nil]
  | cons c text induction =>
      rw [body?, closes_cons_iff]
      cases closes : closing? (c :: text) with
      | some mark =>
          obtain ⟨rest, textEq⟩ := eq_closing_of_closing? closes
          have has : Closes (c :: text) := by
            rw [textEq, closing, List.append_assoc]
            exact closes_append _ _
          rw [closes_cons_iff] at has
          simp [has]
      | none =>
          rw [closing?_cons_eq_none_iff] at closes
          simp [induction, closes.1]

/-! ## Tags at the start of a text -/

/-- What may follow an indicator that is the longest one. -/
def Fits : Indicator → Text → Prop
  | .output, inner => FirstIs (· ≠ '=') inner
  | .plain, inner =>
      FirstIs (fun c => c ≠ '=' ∧ c ≠ '-' ∧ c ≠ '#') inner ∧
        ∀ later, inner = '%' :: later → ¬Closes later
  | _, _ => True

theorem withIndicator?_eq_some_iff {position : Nat} {inner : Text}
    {indicator : Indicator} {tag : Tag} :
    withIndicator? position inner indicator = some tag ↔
      ∃ rest, inner = indicator.text ++ (tag.code ++ (closing tag.trim ++ rest)) ∧
        tag.beginPos = position ∧ tag.indicator = indicator ∧
        Shortest tag.code tag.trim := by
  constructor
  · intro found
    simp only [withIndicator?] at found
    split at found
    · rename_i begins
      obtain ⟨tail, rfl⟩ := List.isPrefixOf_iff_prefix.mp begins
      rw [List.drop_left, Option.map_eq_some_iff] at found
      obtain ⟨⟨code, trim⟩, body, rfl⟩ := found
      obtain ⟨rest, rfl, shortest⟩ := body?_eq_some_iff.mp body
      exact ⟨rest, rfl, rfl, rfl, shortest⟩
    · contradiction
  · rintro ⟨rest, rfl, rfl, rfl, shortest⟩
    have body := body?_eq_some_iff.mpr ⟨rest, rfl, shortest⟩
    have begins : tag.indicator.text.isPrefixOf (tag.indicator.text ++
        (tag.code ++ (closing tag.trim ++ rest))) = true :=
      List.isPrefixOf_iff_prefix.mpr ⟨_, rfl⟩
    rw [withIndicator?, if_pos begins, List.drop_left, body]
    rfl

theorem withIndicator?_eq_none_iff {position : Nat} {inner : Text}
    {indicator : Indicator} :
    withIndicator? position inner indicator = none ↔
      ∀ tail, inner = indicator.text ++ tail → ¬Closes tail := by
  rw [withIndicator?]
  split
  · rename_i begins
    obtain ⟨tail, rfl⟩ := List.isPrefixOf_iff_prefix.mp begins
    rw [List.drop_left, Option.map_eq_none_iff, body?_eq_none_iff]
    constructor
    · intro unclosed other same
      rwa [← List.append_cancel_left same]
    · exact fun unclosed => unclosed tail rfl
  · rename_i differs
    simp only [true_iff]
    rintro tail rfl
    exact absurd (List.isPrefixOf_iff_prefix.mpr ⟨tail, rfl⟩) differs

theorem closes_body {code : Text} {trim : Option TrimMark} {rest : Text} :
    Closes (code ++ (closing trim ++ rest)) := by
  have closes := closes_append (code ++ TrimMark.text trim) rest
  simpa [closing] using closes

/-- A longer indicator in front of a body would have closed as well. -/
theorem closes_of_cons {c : Char} {rest : Text} (closes : Closes (c :: rest))
    (other : c ≠ '%') : Closes rest := by
  rw [closes_cons_iff] at closes
  exact closes.resolve_left fun mark => other mark.1

/-- The first candidate with a result. -/
theorem findSome?_candidates_iff {read : Indicator → Option Tag} {tag : Tag} :
    Indicator.candidates.findSome? read = some tag ↔
      ∃ indicator, read indicator = some tag ∧
        ∀ earlier ∈ Indicator.candidates.takeWhile (· ≠ indicator),
          read earlier = none := by
  rw [List.findSome?_eq_some_iff]
  constructor
  · rintro ⟨front, indicator, rest, same, found, none_found⟩
    refine ⟨indicator, found, ?_⟩
    have other : ∀ earlier ∈ front, decide (earlier ≠ indicator) = true := by
      intro earlier member
      rw [decide_eq_true_eq]
      rintro rfl
      rw [none_found earlier member] at found
      contradiction
    rw [same, List.takeWhile_append_of_pos other]
    simpa using none_found
  · rintro ⟨indicator, found, none_found⟩
    refine ⟨Indicator.candidates.takeWhile (· ≠ indicator), indicator,
      (Indicator.candidates.dropWhile (· ≠ indicator)).tail, ?_, found,
      none_found⟩
    cases indicator <;> rfl

/-- Which indicators are tried in vain before the one that fits. -/
theorem earlier_eq_none_iff {position : Nat} {indicator : Indicator}
    {code : Text} {trim : Option TrimMark} {rest : Text} :
    (∀ earlier ∈ Indicator.candidates.takeWhile (· ≠ indicator),
      withIndicator? position
        (indicator.text ++ (code ++ (closing trim ++ rest))) earlier = none) ↔
      Fits indicator (code ++ (closing trim ++ rest)) := by
  have closes : Closes (code ++ (closing trim ++ rest)) := closes_body
  generalize code ++ (closing trim ++ rest) = inner at closes
  simp only [withIndicator?_eq_none_iff]
  cases indicator with
  | rawOutput => simp [Indicator.candidates, Fits]
  | trimLeft => simp [Indicator.candidates, Fits, Indicator.text]
  | comment => simp [Indicator.candidates, Fits, Indicator.text]
  | escape => simp [Indicator.candidates, Fits, Indicator.text]
  | output =>
      have before : Indicator.candidates.takeWhile (· ≠ Indicator.output) =
          [.rawOutput] := rfl
      rw [before]
      simp only [List.mem_singleton, forall_eq, Indicator.text, Fits,
        List.cons_append, List.nil_append, List.cons.injEq, true_and]
      constructor
      · intro vain
        cases inner with
        | nil => exact firstIs_nil
        | cons c inner =>
            rw [firstIs_cons]
            rintro rfl
            exact vain inner rfl (closes_of_cons closes (by decide))
      · rintro other tail rfl
        exact absurd rfl (firstIs_cons.mp other)
  | plain =>
      have before : Indicator.candidates.takeWhile (· ≠ Indicator.plain) =
          [.rawOutput, .output, .trimLeft, .comment, .escape] := rfl
      rw [before]
      simp only [List.mem_cons, List.not_mem_nil, or_false, forall_eq_or_imp,
        forall_eq, Indicator.text, Fits, List.cons_append, List.nil_append]
      constructor
      · rintro ⟨-, equals, dash, hash, percent⟩
        refine ⟨?_, percent⟩
        cases inner with
        | nil => exact firstIs_nil
        | cons c inner =>
            rw [firstIs_cons]
            refine ⟨?_, ?_, ?_⟩
            · rintro rfl
              exact equals inner rfl (closes_of_cons closes (by decide))
            · rintro rfl
              exact dash inner rfl (closes_of_cons closes (by decide))
            · rintro rfl
              exact hash inner rfl (closes_of_cons closes (by decide))
      · rintro ⟨other, percent⟩
        refine ⟨?_, ?_, ?_, ?_, percent⟩
        · rintro tail rfl
          exact absurd rfl (firstIs_cons.mp other).1
        · rintro tail rfl
          exact absurd rfl (firstIs_cons.mp other).1
        · rintro tail rfl
          exact absurd rfl (firstIs_cons.mp other).2.1
        · rintro tail rfl
          exact absurd rfl (firstIs_cons.mp other).2.2

theorem text_append (tag : Tag) (rest : Text) :
    tag.text ++ rest = '<' :: '%' :: (tag.indicator.text ++
      (tag.code ++ (closing tag.trim ++ rest))) := by
  simp [text, closing]

/-- The tag at the start of a text, by its parts. -/
theorem at?_eq_some_iff {position : Nat} {text : Text} {tag : Tag} :
    at? position text = some tag ↔
      ∃ rest, text = tag.text ++ rest ∧ tag.beginPos = position ∧
        Shortest tag.code tag.trim ∧
        Fits tag.indicator (tag.code ++ (closing tag.trim ++ rest)) := by
  constructor
  · intro found
    unfold at? at found
    split at found
    · obtain ⟨indicator, read, vain⟩ := findSome?_candidates_iff.mp found
      obtain ⟨rest, rfl, begins, rfl, shortest⟩ :=
        withIndicator?_eq_some_iff.mp read
      exact ⟨rest, (text_append tag rest).symm, begins, shortest,
        earlier_eq_none_iff.mp vain⟩
    · contradiction
  · rintro ⟨rest, rfl, begins, shortest, fits⟩
    rw [text_append]
    apply findSome?_candidates_iff.mpr
    refine ⟨tag.indicator, ?_, earlier_eq_none_iff.mpr fits⟩
    exact withIndicator?_eq_some_iff.mpr ⟨rest, rfl, begins, rfl, shortest⟩

/-- No tag stands where none opens or none closes. -/
theorem at?_eq_none_iff {position : Nat} {text : Text} :
    at? position text = none ↔
      ∀ inner, text = '<' :: '%' :: inner → ¬Closes inner := by
  constructor
  · rintro none_found inner rfl closes
    have vain := List.findSome?_eq_none_iff.mp none_found .plain
      (by simp [Indicator.candidates])
    exact withIndicator?_eq_none_iff.mp vain inner rfl closes
  · intro unclosed
    cases found : at? position text with
    | none => rfl
    | some tag =>
        obtain ⟨rest, rfl, -⟩ := at?_eq_some_iff.mp found
        exfalso
        apply unclosed _ (text_append tag rest)
        obtain ⟨front, later, same⟩ := @closes_body tag.code tag.trim rest
        exact ⟨tag.indicator.text ++ front, later, by simp [← same]⟩

/-! ## Scans -/

theorem text_ne_nil (tag : Tag) : tag.text ≠ [] := by simp [text]

theorem endPos_eq (tag : Tag) : tag.endPos = tag.beginPos + tag.text.length := by
  simp only [endPos, codeEnd, codeBegin, text, List.length_append,
    List.length_cons, List.length_nil]
  omega

theorem scanFrom_skip (position : Nat) (front rest : Text) :
    scanFrom front.length position (front ++ rest) =
      scanFrom 0 (position + front.length) rest := by
  induction front generalizing position with
  | nil => rfl
  | cons c front induction =>
      rw [List.length_cons, List.cons_append, scanFrom, induction,
        Nat.add_assoc, Nat.add_comm 1]

theorem scanFrom_of_some {position : Nat} {tag : Tag} {rest : Text}
    (found : at? position (tag.text ++ rest) = some tag) :
    scanFrom 0 position (tag.text ++ rest) =
      tag :: scanFrom 0 tag.endPos rest := by
  obtain ⟨later, -, begins, -⟩ := at?_eq_some_iff.mp found
  cases shape : tag.text with
  | nil => exact absurd shape (text_ne_nil tag)
  | cons c inner =>
      rw [shape, List.cons_append] at found
      rw [List.cons_append, scanFrom]
      simp only [found, shape, List.length_cons, Nat.add_sub_cancel]
      rw [scanFrom_skip, endPos_eq, begins, shape, List.length_cons,
        Nat.add_assoc, Nat.add_comm 1]

theorem scanFrom_of_none {position : Nat} {c : Char} {rest : Text}
    (none_found : at? position (c :: rest) = none) :
    scanFrom 0 position (c :: rest) = scanFrom 0 (position + 1) rest := by
  rw [scanFrom]
  simp only [none_found]

/-- Induction along a scan: a tag is taken as a whole, any other character by
itself. -/
theorem scan_induction {motive : Nat → Text → Prop}
    (nil : ∀ position, motive position [])
    (tag : ∀ (tag : Tag) rest, at? tag.beginPos (tag.text ++ rest) = some tag →
      motive tag.endPos rest → motive tag.beginPos (tag.text ++ rest))
    (other : ∀ position c rest, at? position (c :: rest) = none →
      motive (position + 1) rest → motive position (c :: rest))
    (position : Nat) (text : Text) : motive position text := by
  induction size : text.length using Nat.strongRecOn
    generalizing position text with
  | ind size induction =>
      cases text with
      | nil => exact nil position
      | cons c text =>
          cases found : at? position (c :: text) with
          | none =>
              apply other position c text found
              exact induction text.length (by simp [← size]) _ text rfl
          | some first =>
              obtain ⟨rest, same, begins, -⟩ := at?_eq_some_iff.mp found
              subst begins
              rw [same] at found size ⊢
              apply tag first rest found
              apply induction rest.length _ _ rest rfl
              have inhabited := List.length_pos_iff.mpr (text_ne_nil first)
              rw [← size, List.length_append]
              omega

/-- A scanned tag stands in the text. -/
theorem exists_parts_of_mem_scanFrom {position : Nat} {text : Text} {tag : Tag}
    (member : tag ∈ scanFrom 0 position text) :
    ∃ front rest, text = front ++ (tag.text ++ rest) ∧
      tag.beginPos = position + front.length ∧
      at? tag.beginPos (tag.text ++ rest) = some tag := by
  induction position, text using scan_induction with
  | nil position => simp [scanFrom] at member
  | tag first rest found induction =>
      rw [scanFrom_of_some found, List.mem_cons] at member
      rcases member with rfl | later
      · exact ⟨[], rest, rfl, rfl, found⟩
      · obtain ⟨front, behind, rfl, begins, standing⟩ := induction later
        refine ⟨first.text ++ front, behind, by simp, ?_, standing⟩
        rw [begins, endPos_eq, List.length_append, Nat.add_assoc]
  | other position c rest none_found induction =>
      rw [scanFrom_of_none none_found] at member
      obtain ⟨front, behind, rfl, begins, standing⟩ := induction member
      refine ⟨c :: front, behind, rfl, ?_, standing⟩
      rw [begins, List.length_cons]
      omega

/-- Scanned tags stand one behind the other. -/
theorem scanFrom_pairwise (position : Nat) (text : Text) :
    (scanFrom 0 position text).Pairwise fun first second =>
      first.endPos ≤ second.beginPos := by
  induction position, text using scan_induction with
  | nil position => simp [scanFrom]
  | tag first rest found induction =>
      rw [scanFrom_of_some found, List.pairwise_cons]
      refine ⟨?_, induction⟩
      intro second member
      obtain ⟨front, -, -, begins, -⟩ := exists_parts_of_mem_scanFrom member
      omega
  | other position c rest none_found induction =>
      rwa [scanFrom_of_none none_found]

end Tag

end TemplateLint
