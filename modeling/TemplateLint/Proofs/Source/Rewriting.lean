import Mathlib.Data.List.Forall2
import TemplateLint.Proofs.Source.Scan

/-!
# Texts with other tags

A text is rewritten by changing the characters of its matches and keeping all
others.  If each changed match is still read as a whole, a scan of the
rewritten text finds the changed matches and nothing else, and the text around
the tags stays.
-/

namespace TemplateLint

/-- The parts of a text around tags that stand in it, from a position on. -/
def Text.around (text : Text) (position : Nat) : List Tag → List Text
  | [] => [text.drop position]
  | tag :: later =>
      text.between position tag.beginPos :: around text tag.endPos later

/-- A tag ends the text that has been gone through in front of it. -/
theorem Text.around_tag {front pending rest : Text} {tag : Tag}
    {later : List Tag} (begins : tag.beginPos = (front ++ pending).length) :
    (front ++ pending ++ rest).around front.length (tag :: later) =
      pending :: (front ++ pending ++ rest).around tag.endPos later := by
  have stands : (front ++ pending ++ rest).drop front.length = pending ++ rest := by
    rw [List.append_assoc, List.drop_left]
  rw [around, begins, List.length_append, between_of_drop stands]

namespace Tag

open Text

/-- The same tag at another position. -/
def movedTo (tag : Tag) (position : Nat) : Tag := { tag with beginPos := position }

/-- A text from a position on with its matches changed. -/
inductive Rewritten (change : Tag → Tag) : Nat → Text → Text → Prop
  | nil (position : Nat) : Rewritten change position [] []
  | tag {tag : Tag} {rest rest' : Text}
      (found : at? tag.beginPos (tag.text ++ rest) = some tag)
      (later : Rewritten change tag.endPos rest rest') :
      Rewritten change tag.beginPos (tag.text ++ rest)
        ((change tag).text ++ rest')
  | other {position : Nat} {c : Char} {rest rest' : Text}
      (none_found : at? position (c :: rest) = none)
      (later : Rewritten change (position + 1) rest rest') :
      Rewritten change position (c :: rest) (c :: rest')

/-- A change of tags that a scan follows: behind a changed match may stand any
text that closes no tag unless the text behind the match did. -/
structure Follows (change : Tag → Tag) : Prop where
  read : ∀ {tag : Tag} {rest rest' : Text} (position : Nat),
    at? tag.beginPos (tag.text ++ rest) = some tag →
    (Closes rest' → Closes rest) →
    at? position ((change tag).text ++ rest') =
      some ((change tag).movedTo position)
  escape : ∀ {tag : Tag}, tag.indicator = .escape → change tag = tag
  noEscape : ∀ {tag : Tag}, tag.indicator ≠ .escape →
    (change tag).indicator ≠ .escape

/-- A changed tag, wherever it stands. -/
def Becomes (change : Tag → Tag) (tag tag' : Tag) : Prop :=
  tag' = (change tag).movedTo tag'.beginPos

/-! ## What follows a tag -/

/-- What follows the first character of code does not matter to the
indicator. -/
theorem Fits.of_code {indicator : Indicator} {code rest rest' : Text}
    {trim trim' : Option TrimMark} (some_code : code ≠ [])
    (fits : Fits indicator (code ++ (closing trim ++ rest))) :
    Fits indicator (code ++ (closing trim' ++ rest')) := by
  obtain ⟨c, code, rfl⟩ := List.exists_cons_of_ne_nil some_code
  cases indicator with
  | output =>
      rw [Fits, List.cons_append, firstIs_cons] at fits ⊢
      exact fits
  | plain =>
      obtain ⟨first, percent⟩ := fits
      refine ⟨firstIs_cons.mpr (firstIs_cons.mp first), ?_⟩
      intro later same
      -- the closing delimiter itself would have followed a percent sign
      rw [List.cons_append, List.cons.injEq] at same
      refine absurd closes_body (percent (code ++ (closing trim ++ rest)) ?_)
      rw [← same.1, List.cons_append]
  | rawOutput => trivial
  | trimLeft => trivial
  | comment => trivial
  | escape => trivial

/-- What follows a tag matters to its indicator only in that it may close
another tag. -/
theorem Fits.of_closes {indicator : Indicator} {code rest rest' : Text}
    {trim : Option TrimMark}
    (fits : Fits indicator (code ++ (closing trim ++ rest)))
    (closes : Closes rest' → Closes rest) :
    Fits indicator (code ++ (closing trim ++ rest')) := by
  by_cases some_code : code = []
  · subst some_code
    obtain ⟨c, later, parts⟩ := List.exists_cons_of_ne_nil
      (show closing trim ≠ [] by simp [closing])
    cases indicator with
    | output =>
        rw [Fits, parts, List.nil_append, List.cons_append, firstIs_cons] at fits ⊢
        exact fits
    | plain =>
        obtain ⟨first, percent⟩ := fits
        refine ⟨?_, ?_⟩
        · rw [parts, List.nil_append, List.cons_append, firstIs_cons] at first ⊢
          exact first
        · intro later same later_closes
          cases trim with
          | none =>
              cases same
              have behind := closes (closes_of_cons later_closes (by decide))
              exact percent ('>' :: rest) rfl (closes_cons_iff.mpr (.inr behind))
          | some mark => cases mark <;> cases same
    | rawOutput => trivial
    | trimLeft => trivial
    | comment => trivial
    | escape => trivial
  · exact fits.of_code some_code

/-- A tag is read as before behind another text and before another text. -/
theorem at?_movedTo {tag : Tag} {rest rest' : Text} (position : Nat)
    (found : at? tag.beginPos (tag.text ++ rest) = some tag)
    (closes : Closes rest' → Closes rest) :
    at? position (tag.text ++ rest') = some (tag.movedTo position) := by
  obtain ⟨behind, same, -, shortest, fits⟩ := at?_eq_some_iff.mp found
  obtain rfl := List.append_cancel_left same
  exact at?_eq_some_iff.mpr ⟨rest', rfl, rfl, shortest, fits.of_closes closes⟩

/-! ## Tags from a position on -/

/-- The tags that a scan finds from a position on. -/
def tagsFrom (position : Nat) (text : Text) : List Tag :=
  (scanFrom 0 position text).filter fun tag => tag.indicator ≠ .escape

section From

variable {position : Nat} {tag : Tag} {rest : Text}

theorem tagsFrom_of_tag (found : at? position (tag.text ++ rest) = some tag)
    (noEscape : tag.indicator ≠ .escape) :
    tagsFrom position (tag.text ++ rest) = tag :: tagsFrom tag.endPos rest := by
  rw [tagsFrom, scanFrom_of_some found, List.filter_cons_of_pos (by simpa)]
  rfl

theorem tagsFrom_of_escape (found : at? position (tag.text ++ rest) = some tag)
    (escape : tag.indicator = .escape) :
    tagsFrom position (tag.text ++ rest) = tagsFrom tag.endPos rest := by
  rw [tagsFrom, scanFrom_of_some found, List.filter_cons_of_neg (by simpa)]
  rfl

theorem tagsFrom_of_none {c : Char} (none_found : at? position (c :: rest) = none) :
    tagsFrom position (c :: rest) = tagsFrom (position + 1) rest := by
  rw [tagsFrom, scanFrom_of_none none_found]
  rfl

end From

/-! ## Scans of rewritten texts -/

namespace Rewritten

variable {change : Tag → Tag} {position : Nat} {text text' : Text}

/-- Without a closing delimiter there is nothing to change. -/
theorem eq_of_not_closes (rewritten : Rewritten change position text text')
    (unclosed : ¬Closes text) : text' = text := by
  induction rewritten with
  | nil position => rfl
  | @tag tag rest rest' found later induction =>
      exfalso
      apply unclosed
      rw [text_append]
      obtain ⟨front, behind, same⟩ := @closes_body tag.code tag.trim rest
      exact ⟨'<' :: '%' :: (tag.indicator.text ++ front), behind, by simp [← same]⟩
  | other none_found later induction =>
      rw [induction fun closes => unclosed (closes_cons_iff.mpr (.inr closes))]

theorem closes_of_closes (rewritten : Rewritten change position text text')
    (closes : Closes text') : Closes text := by
  by_contra unclosed
  rw [rewritten.eq_of_not_closes unclosed] at closes
  exact unclosed closes

/-- A percent sign in front is kept. -/
theorem exists_of_percent {inner' : Text}
    (rewritten : Rewritten change position text ('%' :: inner')) :
    ∃ inner, text = '%' :: inner ∧
      Rewritten change (position + 1) inner inner' := by
  generalize begins : '%' :: inner' = text' at rewritten
  cases rewritten with
  | nil => contradiction
  | @tag tag rest rest' found later =>
      rw [text_append, List.cons.injEq] at begins
      exact absurd begins.1 (by decide)
  | other none_found later =>
      rw [List.cons.injEq] at begins
      obtain ⟨rfl, rfl⟩ := begins
      exact ⟨_, rfl, later⟩

/-- No tag begins at a kept character. -/
theorem at?_other {position position' : Nat} {c : Char} {rest rest' : Text}
    (none_found : at? position (c :: rest) = none)
    (later : Rewritten change (position + 1) rest rest') :
    at? position' (c :: rest') = none := by
  rw [at?_eq_none_iff] at none_found ⊢
  intro inner' opens closes
  rw [List.cons.injEq] at opens
  obtain ⟨rfl, rfl⟩ := opens
  obtain ⟨inner, rfl, behind⟩ := later.exists_of_percent
  exact none_found inner rfl (behind.closes_of_closes closes)

/-- A scan finds the changed matches. -/
theorem scanFrom (follows : Follows change)
    (rewritten : Rewritten change position text text') (position' : Nat) :
    List.Forall₂ (Becomes change) (scanFrom 0 position text)
      (Tag.scanFrom 0 position' text') := by
  induction rewritten generalizing position' with
  | nil position => exact .nil
  | @tag tag rest rest' found later induction =>
      have read := follows.read position' found later.closes_of_closes
      rw [scanFrom_of_some found]
      have scanned := @scanFrom_of_some position' ((change tag).movedTo position')
        rest' read
      rw [movedTo] at scanned
      exact scanned ▸ .cons rfl (induction _)
  | other none_found later induction =>
      rw [scanFrom_of_none none_found,
        scanFrom_of_none (later.at?_other none_found)]
      exact induction _

/-- The tags of a rewritten text are the changed ones. -/
theorem tags (follows : Follows change)
    (rewritten : Rewritten change 0 text text') :
    List.Forall₂ (fun tag tag' => tag.indicator ≠ .escape ∧ Becomes change tag tag')
      text.tags text'.tags := by
  rw [List.forall₂_and_left]
  refine ⟨fun tag member => of_decide_eq_true (List.mem_filter.mp member).2, ?_⟩
  refine @List.rel_filter _ _ (Becomes change) _ _ ?_ _ _
    (rewritten.scanFrom follows 0)
  intro tag tag' becomes
  simp only [decide_eq_true_eq]
  rw [becomes]
  constructor
  · exact follows.noEscape
  · intro noEscape escape
    rw [follows.escape escape] at noEscape
    exact noEscape escape

/-- Changes that keep the lengths of tags keep their positions. -/
theorem tags_eq_map (follows : Follows change)
    (rewritten : Rewritten change position text text')
    (begins : ∀ tag, (change tag).beginPos = tag.beginPos)
    (size : ∀ tag, (change tag).text.length = tag.text.length) :
    tagsFrom position text' = (tagsFrom position text).map change := by
  induction rewritten with
  | nil position => rfl
  | @tag tag rest rest' found later induction =>
      have read := follows.read tag.beginPos found later.closes_of_closes
      have stays : (change tag).movedTo tag.beginPos = change tag := by
        rw [movedTo, ← begins]
      have ends : (change tag).endPos = tag.endPos := by
        rw [endPos_eq, endPos_eq, begins, size]
      rw [stays] at read
      by_cases escape : tag.indicator = .escape
      · have escape' : (change tag).indicator = .escape := by
          rw [follows.escape escape, escape]
        rw [tagsFrom_of_escape found escape, tagsFrom_of_escape read escape', ends,
          induction]
      · rw [tagsFrom_of_tag found escape,
          tagsFrom_of_tag read (follows.noEscape escape), ends, induction,
          List.map_cons]
  | other none_found later induction =>
      rw [tagsFrom_of_none none_found,
        tagsFrom_of_none (later.at?_other none_found), induction]

/-- The text around the tags is kept; `pending` is what has been gone through
since the last one. -/
theorem around_eq (follows : Follows change)
    (rewritten : Rewritten change position text text')
    (front front' pending : Text)
    (stands : (front ++ pending).length = position) :
    (front' ++ pending ++ text').around front'.length
        (tagsFrom (front' ++ pending).length text') =
      (front ++ pending ++ text).around front.length
        (tagsFrom position text) := by
  induction rewritten generalizing front front' pending with
  | nil position => simp [tagsFrom, Tag.scanFrom, Text.around]
  | @tag tag rest rest' found later induction =>
      have read := follows.read (front' ++ pending).length found
        later.closes_of_closes
      generalize moved : (change tag).movedTo (front' ++ pending).length = tag'
        at read
      have same : (change tag).text = tag'.text := by
        rw [← moved]
        rfl
      have begins' : tag'.beginPos = (front' ++ pending).length := by
        rw [← moved]
        rfl
      rw [same] at read ⊢
      have ends : (front ++ pending ++ tag.text).length = tag.endPos := by
        rw [List.length_append, stands, endPos_eq]
      have ends' : (front' ++ pending ++ tag'.text).length = tag'.endPos := by
        rw [List.length_append, endPos_eq, begins']
      by_cases escape : tag.indicator = .escape
      · have unchanged := follows.escape escape
        have further := induction front front' (pending ++ tag.text)
          (by rwa [← List.append_assoc])
        rw [tagsFrom_of_escape found escape, tagsFrom_of_escape read (by
          rw [← moved, unchanged]
          exact escape), ← ends', ← same, unchanged]
        simpa using further
      · have further := induction (front ++ pending ++ tag.text)
          (front' ++ pending ++ tag'.text) [] (by simpa using ends)
        rw [tagsFrom_of_tag found escape, tagsFrom_of_tag read (by
          rw [← moved]
          exact follows.noEscape escape)]
        rw [around_tag begins', around_tag stands.symm, ← ends, ← ends']
        rw [List.append_nil, List.append_nil, List.append_assoc _ tag'.text,
          List.append_assoc _ tag.text, ends] at further
        rw [further, ends]
  | @other position c rest rest' none_found later induction =>
      have further := induction front front' (pending ++ [c])
        (by simp [← stands, Nat.add_assoc])
      rw [tagsFrom_of_none none_found,
        tagsFrom_of_none (later.at?_other none_found)]
      simpa [Nat.add_assoc] using further

theorem around_tags (follows : Follows change)
    (rewritten : Rewritten change 0 text text') :
    text'.around 0 text'.tags = text.around 0 text.tags :=
  rewritten.around_eq follows [] [] [] rfl

end Rewritten

end Tag

end TemplateLint
