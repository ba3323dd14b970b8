import TemplateLint.Proofs.Correction.Solids

/-!
# Tags after a pass

The tags after a pass are the tags before it: a scan finds them behind the same
kept opening delimiters and before the same kept closing ones.  Between them,
the pass changes white space of the code and the trim mark.  One tag turns into
another kind: the trim mark of an empty tag may become part of its indicator.
-/

namespace TemplateLint

open Text Script

namespace Tag

/-- Scanned tags that share an inner position are the same. -/
theorem eq_of_inside {text : Text} {tag tag' : Tag} {position : Nat}
    (member : tag ∈ scan text) (member' : tag' ∈ scan text)
    (begins : tag.beginPos < position) (ends : position < tag.endPos)
    (begins' : tag'.beginPos < position) (ends' : position < tag'.endPos) :
    tag = tag' := by
  obtain ⟨front, rest, same⟩ := List.append_of_mem member
  have ordered := scanFrom_pairwise 0 text
  rw [scan] at same member'
  rw [same, List.mem_append, List.mem_cons] at member'
  rw [same, List.pairwise_append, List.pairwise_cons] at ordered
  rcases member' with inFront | here | inRest
  · have before := ordered.2.2 tag' inFront tag (.head _)
    omega
  · exact here.symm
  · have behind := ordered.2.1.1 tag' inRest
    omega

theorem codeBegin_le_codeEnd (tag : Tag) : tag.codeBegin ≤ tag.codeEnd :=
  Nat.le_add_right _ _

theorem beginPos_lt_codeBegin (tag : Tag) : tag.beginPos < tag.codeBegin := by
  simp only [codeBegin]
  omega

theorem codeEnd_lt_endPos (tag : Tag) : tag.codeEnd < tag.endPos := by
  simp only [endPos]
  omega

theorem solid_of_mem_opening {tag : Tag} {c : Char} (member : c ∈ tag.opening) :
    Character.isBlank c = false := by
  have known : c = '<' ∨ c = '%' ∨ c = '=' ∨ c = '-' ∨ c = '#' := by
    simp only [opening, List.mem_cons] at member
    rcases member with rfl | rfl | inIndicator
    · exact .inl rfl
    · exact .inr (.inl rfl)
    · cases shape : tag.indicator <;>
        simp [shape, Indicator.text] at inIndicator <;> simp [inIndicator]
  rcases known with rfl | rfl | rfl | rfl | rfl <;> decide

theorem solid_of_mem_closing {c : Char} (member : c ∈ ['%', '>']) :
    Character.isBlank c = false := by
  simp only [List.mem_cons, List.not_mem_nil, or_false] at member
  rcases member with rfl | rfl <;> decide

end Tag

namespace Script

/-- A script up to another character than white space that is not swapped
together with white space. -/
theorem exists_split {script : List Piece} {front rest : Text} {c : Char}
    (same : before script = front ++ c :: rest)
    (solid : Character.isBlank c = false)
    (swaps : ∀ {earlier old new later},
      script = earlier ++ .swap old new :: later →
        (∀ d ∈ old, Character.isBlank d = true) ∨ ∃ d, old = [d]) :
    ∃ earlier later, script = earlier ++ later ∧ before earlier = front ∧
      before later = c :: rest ∧
      ((∃ last, later = .keep c :: last) ∨ ∃ new last, later = .swap [c] new :: last) := by
  induction script generalizing front with
  | nil => simp at same
  | cons piece script induction =>
      have further : ∀ {earlier old new later},
          script = earlier ++ .swap old new :: later →
            (∀ d ∈ old, Character.isBlank d = true) ∨ ∃ d, old = [d] :=
        fun scriptEq => swaps (by rw [scriptEq, ← List.cons_append])
      cases piece with
      | keep d =>
          cases front with
          | nil =>
              rw [before_keep, List.nil_append, List.cons.injEq] at same
              obtain ⟨rfl, rfl⟩ := same
              exact ⟨[], _, rfl, rfl, rfl, .inl ⟨script, rfl⟩⟩
          | cons e front =>
              rw [before_keep, List.cons_append, List.cons.injEq] at same
              obtain ⟨rfl, same⟩ := same
              obtain ⟨earlier, later, rfl, rfl, laterEq, shape⟩ :=
                induction same further
              exact ⟨.keep d :: earlier, later, rfl, rfl, laterEq, shape⟩
      | swap old new =>
          rw [before_swap] at same
          rcases List.append_eq_append_iff.mp same with
            ⟨middle, frontEq, scriptEq⟩ | ⟨middle, oldEq, restEq⟩
          · obtain ⟨earlier, later, rfl, rfl, laterEq, shape⟩ :=
              induction scriptEq further
            exact ⟨.swap old new :: earlier, later, rfl, frontEq.symm, laterEq,
              shape⟩
          · cases middle with
            | nil =>
                have atOnce : before script = [] ++ c :: rest := restEq.symm
                obtain ⟨earlier, later, rfl, nothing, laterEq, shape⟩ :=
                  induction atOnce further
                refine ⟨.swap old new :: earlier, later, rfl, ?_, laterEq, shape⟩
                rw [before_swap, nothing, oldEq]
                simp
            | cons d middle =>
                rw [List.cons_append, List.cons.injEq] at restEq
                obtain ⟨rfl, rfl⟩ := restEq
                rcases @swaps [] old new script rfl with blank | ⟨d, single⟩
                · rw [blank c (by simp [oldEq])] at solid
                  contradiction
                · have sizes := congrArg List.length (oldEq.symm.trans single)
                  simp only [List.length_append, List.length_cons,
                    List.length_nil] at sizes
                  have nothing : front = [] ∧ middle = [] := by
                    rw [← List.length_eq_zero_iff, ← List.length_eq_zero_iff]
                    omega
                  obtain ⟨rfl, rfl⟩ := nothing
                  rw [List.nil_append] at oldEq
                  subst oldEq
                  exact ⟨[], _, rfl, rfl, rfl, .inr ⟨new, script, rfl⟩⟩

end Script

namespace Pass

variable {fixers : Fixers} {script : List Piece}

/-! ## Where tags are changed -/

/-- Nothing is put in, and no mark is swapped, except at the ends of the code of
a tag. -/
theorem exists_tag_of_swap {earlier later : List Piece} {old new : Text}
    (pass : Pass fixers script)
    (split : script = earlier ++ .swap old new :: later)
    (place : (old = [] ∧ before later ≠ []) ∨ ∃ mark : TrimMark, old = [mark.char]) :
    ∃ tag ∈ Tag.scan (before script), tag.codeBegin ≤ (before earlier).length ∧
      (before earlier).length ≤ tag.codeEnd ∧
      (old ≠ [] → (before earlier).length = tag.codeEnd) := by
  have whole : before script = before earlier ++ old ++ before later := by
    rw [split]
    simp
  have not_blank : old ≠ [] → ¬∀ c ∈ old, Character.isBlank c = true := by
    intro some_old blank
    rcases place with ⟨nothing, -⟩ | ⟨mark, rfl⟩
    · exact some_old nothing
    · have solid := mark.not_isBlank
      rw [blank mark.char (.head _)] at solid
      contradiction
  have change := pass.changes split
  have blank_or_mark := change.blank_or_mark
  rw [whole]
  generalize before later = rest at *
  cases change with
  | trailing _ trails =>
      exact absurd (fun c member => isBlank_of_isSpaceOrTab (trails.blank c member))
        (not_blank trails.inhabited)
  | indent _ _ indents =>
      exact absurd (fun c member => isBlank_of_isSpaceOrTab (indents.blank c member))
        (not_blank indents.inhabited)
  | extra _ exceeds =>
      refine absurd (fun c member => ?_) (not_blank exceeds.inhabited)
      rw [exceeds.newlines c member]
      exact isBlank_newline
  | missing _ _ =>
      rcases place with ⟨-, some_rest⟩ | ⟨mark, nothing⟩
      · exact absurd rfl some_rest
      · contradiction
  | unwanted _ _ unwanted =>
      refine absurd (fun c member => ?_) (not_blank unwanted.inhabited)
      rw [unwanted.newlines c member]
      exact isBlank_newline
  | space tag _ misplaced =>
      have nothing : old = [] := by
        by_contra some_old
        exact not_blank some_old
          (Change.separates_of_misplaced misplaced).blank
      subst nothing
      have ordered := tag.codeBegin_le_codeEnd
      rcases misplaced with leads | ends
      · refine ⟨tag, (Tag.mem_tags_iff.mp leads.checked.member).1, ?_, ?_, ?_⟩
        · exact leads.begins.ge
        · rw [leads.begins]
          exact ordered
        · exact fun some_old => absurd rfl some_old
      · have reach := ends.ends
        rw [List.length_nil, Nat.add_zero] at reach
        refine ⟨tag, (Tag.mem_tags_iff.mp ends.checked.member).1, ?_, ?_, ?_⟩
        · rw [reach]
          exact ordered
        · exact reach.le
        · exact fun _ => reach
  | mark style tag _ mismarks =>
      refine ⟨tag, (Tag.mem_tags_iff.mp mismarks.member).1, ?_, ?_, ?_⟩
      · rw [mismarks.begins]
        exact tag.codeBegin_le_codeEnd
      · exact mismarks.begins.le
      · exact fun _ => mismarks.begins

/-- A swap at another character than white space puts something in or swaps a
mark. -/
theorem place_of_swap {earlier later : List Piece} {old new rest : Text} {c : Char}
    (pass : Pass fixers script)
    (split : script = earlier ++ .swap old new :: later)
    (same : old ++ before later = c :: rest)
    (solid : Character.isBlank c = false) :
    (old = [] ∧ before later ≠ []) ∨ ∃ mark : TrimMark, old = [mark.char] := by
  cases old with
  | nil =>
      rw [List.nil_append] at same
      exact .inl ⟨rfl, by simp [same]⟩
  | cons d old =>
      rw [List.cons_append, List.cons.injEq] at same
      rcases (pass.changes split).blank_or_mark with
        ⟨blank, -⟩ | ⟨-, mark, oldEq, -⟩
      · rw [← same.1, blank d (.head _)] at solid
        contradiction
      · exact .inr ⟨mark, oldEq⟩

/-- The characters of a delimiter are kept. -/
theorem exists_keeping {earlier inner : List Piece} {word rest : Text} {tag : Tag}
    (pass : Pass fixers script) (split : script = earlier ++ inner)
    (same : before inner = word ++ rest)
    (solid : ∀ c ∈ word, Character.isBlank c = false)
    (member : tag ∈ Tag.scan (before script))
    (outside : (tag.beginPos < (before earlier).length ∧
        (before earlier).length + word.length ≤ tag.codeBegin) ∨
      (tag.codeEnd < (before earlier).length ∧
        (before earlier).length + word.length ≤ tag.endPos)) :
    ∃ later, inner = keeping word ++ later ∧ before later = rest := by
  induction word generalizing earlier inner with
  | nil => exact ⟨inner, rfl, same⟩
  | cons c word induction =>
      rw [List.cons_append] at same
      rw [List.length_cons] at outside
      cases inner with
      | nil => contradiction
      | cons piece inner =>
          cases piece with
          | keep d =>
              rw [before_keep, List.cons.injEq] at same
              obtain ⟨rfl, same⟩ := same
              have further : script = (earlier ++ [.keep d]) ++ inner := by
                rw [split]
                simp
              have size : (before (earlier ++ [.keep d])).length =
                  (before earlier).length + 1 := by
                simp
              obtain ⟨later, rfl, laterEq⟩ := induction further same
                (fun e inWord => solid e (.tail _ inWord)) (by omega)
              exact ⟨later, rfl, laterEq⟩
          | swap old new =>
              exfalso
              rw [before_swap] at same
              obtain ⟨other, otherMember, begins, ends, -⟩ :=
                pass.exists_tag_of_swap split
                  (pass.place_of_swap split same (solid c (.head _)))
              have first := other.beginPos_lt_codeBegin
              have last := other.codeEnd_lt_endPos
              have firstOwn := tag.beginPos_lt_codeBegin
              have lastOwn := tag.codeEnd_lt_endPos
              have ordered := tag.codeBegin_le_codeEnd
              obtain rfl : tag = other :=
                @Tag.eq_of_inside _ _ _ (before earlier).length member otherMember
                  (by omega) (by omega) (by omega) (by omega)
              omega

/-- A tag of the text with the parts of the script at its code and its mark. -/
structure Carries (script : List Piece) (tag : Tag)
    (earlier code mark later : List Piece) : Prop where
  split : script = earlier ++ (keeping tag.opening ++
    (code ++ (mark ++ (keeping ['%', '>'] ++ later))))
  member : tag ∈ Tag.scan (before script)
  begins : tag.beginPos = (before earlier).length
  code : before code = tag.code
  mark : (tag.trim = none ∧ mark = []) ∨
    ∃ own : TrimMark, tag.trim = some own ∧ (mark = [.keep own.char] ∨
      ∃ style : TrimMark, mark = [.swap [own.char] [style.char]])
  shortest : Tag.Shortest tag.code tag.trim
  fits : Tag.Fits tag.indicator
    (tag.code ++ (Tag.closing tag.trim ++ before later))

/-- The opening delimiter of a tag is kept. -/
theorem exists_body {earlier inner : List Piece} {tag : Tag} {rest : Text}
    (pass : Pass fixers script) (split : script = earlier ++ .keep '<' :: inner)
    (member : tag ∈ Tag.scan (before script))
    (begins : tag.beginPos = (before earlier).length)
    (same : before inner = ('%' :: tag.indicator.text) ++ rest) :
    ∃ body, script = (earlier ++ keeping tag.opening) ++ body ∧
      before body = rest := by
  have innerSplit : script = (earlier ++ [.keep '<']) ++ inner := by
    rw [split]
    simp
  have innerBegins : (before (earlier ++ [.keep '<'])).length = tag.beginPos + 1 := by
    simp [begins]
  have openingSolid : ∀ c ∈ '%' :: tag.indicator.text,
      Character.isBlank c = false :=
    fun c inWord => Tag.solid_of_mem_opening (.tail _ inWord)
  obtain ⟨body, rfl, bodyEq⟩ := pass.exists_keeping innerSplit same openingSolid
    member (by
      rw [innerBegins, Tag.codeBegin, List.length_cons]
      have bounds := tag.beginPos_lt_codeBegin
      omega)
  refine ⟨body, ?_, bodyEq⟩
  rw [split, List.append_assoc]
  rfl

/-- Behind the code of a tag its mark may be swapped, and the rest of the
closing delimiter is kept. -/
theorem exists_closing {ahead body : List Piece} {tag : Tag} {rest : Text}
    (pass : Pass fixers script) (split : script = ahead ++ body)
    (member : tag ∈ Tag.scan (before script))
    (begins : (before ahead).length = tag.codeBegin)
    (same : before body = tag.code ++ (Tag.closing tag.trim ++ rest)) :
    ∃ code mark later,
      body = code ++ (mark ++ (keeping ['%', '>'] ++ later)) ∧
      before code = tag.code ∧
      ((tag.trim = none ∧ mark = []) ∨
        ∃ own : TrimMark, tag.trim = some own ∧ (mark = [.keep own.char] ∨
          ∃ style : TrimMark, mark = [.swap [own.char] [style.char]])) ∧
      before later = rest := by
  have bodySwaps : ∀ {first old new last},
      body = first ++ .swap old new :: last →
        (∀ d ∈ old, Character.isBlank d = true) ∨ ∃ d, old = [d] := by
    rintro first old new last rfl
    rw [← List.append_assoc] at split
    rcases (pass.changes split).blank_or_mark with ⟨blank, -⟩ | ⟨-, mark, oldEq, -⟩
    · exact .inl blank
    · exact .inr ⟨mark.char, oldEq⟩
  have coded : ∀ {code closing : List Piece}, body = code ++ closing →
      before code = tag.code →
      script = (ahead ++ code) ++ closing ∧
        (before (ahead ++ code)).length = tag.codeEnd := by
    rintro code closing rfl codeEq
    constructor
    · rw [split, List.append_assoc]
    · rw [before_append, List.length_append, begins, codeEq, Tag.codeEnd]
  cases trimEq : tag.trim with
  | none =>
      rw [trimEq] at same
      obtain ⟨code, closing, rfl, codeEq, closingEq, shape⟩ :=
        exists_split same (by decide) bodySwaps
      obtain ⟨closingSplit, size⟩ := coded rfl codeEq
      rcases shape with ⟨last, rfl⟩ | ⟨new, last, rfl⟩
      · rw [before_keep, List.cons.injEq] at closingEq
        have lastSplit : script = (ahead ++ code ++ [.keep '%']) ++ last := by
          rw [closingSplit]
          simp
        have lastEq : before last = ['>'] ++ rest := closingEq.2
        obtain ⟨later, rfl, laterEq⟩ := pass.exists_keeping lastSplit lastEq
          (fun c inWord => Tag.solid_of_mem_closing (.tail _ inWord)) member (by
            rw [before_append, List.length_append, size, Tag.endPos]
            simp)
        exact ⟨code, [], later, rfl, codeEq, .inl ⟨rfl, rfl⟩, laterEq⟩
      · exfalso
        rw [before_swap] at closingEq
        rcases pass.place_of_swap closingSplit closingEq (by decide) with
          ⟨nothing, -⟩ | ⟨mark, single⟩
        · contradiction
        · cases mark <;> simp [TrimMark.char] at single
  | some own =>
      rw [trimEq] at same
      obtain ⟨code, closing, rfl, codeEq, closingEq, shape⟩ :=
        exists_split same own.not_isBlank bodySwaps
      obtain ⟨closingSplit, size⟩ := coded rfl codeEq
      obtain ⟨piece, last, rfl, pieceEq, markShape⟩ : ∃ piece last,
          closing = piece :: last ∧ before [piece] = [own.char] ∧
            (piece = .keep own.char ∨
              ∃ style : TrimMark, piece = .swap [own.char] [style.char]) := by
        rcases shape with ⟨last, rfl⟩ | ⟨new, last, rfl⟩
        · exact ⟨_, last, rfl, rfl, .inl rfl⟩
        · rcases (pass.changes closingSplit).blank_or_mark with
            ⟨blank, -⟩ | ⟨style, -, -, rfl, -⟩
          · have solid := own.not_isBlank
            rw [blank own.char (.head _)] at solid
            contradiction
          · exact ⟨_, last, rfl, rfl, .inr ⟨style, rfl⟩⟩
      have lastSplit : script = (ahead ++ code ++ [piece]) ++ last := by
        rw [closingSplit]
        simp
      have lastEq : before last = ['%', '>'] ++ rest := by
        have parts := before_append [piece] last
        rw [pieceEq, List.singleton_append] at parts
        rw [parts] at closingEq
        exact (List.cons.inj closingEq).2
      obtain ⟨later, rfl, laterEq⟩ := pass.exists_keeping lastSplit lastEq
        (fun _ => Tag.solid_of_mem_closing) member (by
          rw [before_append, List.length_append, size, pieceEq, Tag.endPos, trimEq]
          simp [TrimMark.text])
      refine ⟨code, [piece], later, rfl, codeEq, .inr ⟨own, rfl, ?_⟩, laterEq⟩
      rcases markShape with rfl | ⟨style, rfl⟩
      · exact .inl rfl
      · exact .inr ⟨style, rfl⟩

/-- The delimiters of a tag are kept. -/
theorem exists_carries {earlier inner : List Piece} {tag : Tag}
    (pass : Pass fixers script) (split : script = earlier ++ .keep '<' :: inner)
    (found : Tag.at? (before earlier).length (before (.keep '<' :: inner)) = some tag)
    (member : tag ∈ Tag.scan (before script)) :
    ∃ code mark later, Carries script tag earlier code mark later := by
  obtain ⟨rest, same, begins, shortest, fits⟩ := Tag.at?_eq_some_iff.mp found
  rw [Tag.text_append, before_keep, List.cons.injEq] at same
  obtain ⟨body, opened, bodyEq⟩ := pass.exists_body split member begins same.2
  have openedSize : (before (earlier ++ keeping tag.opening)).length =
      tag.codeBegin := by
    rw [before_append, before_keeping, List.length_append, ← begins,
      ← Tag.codeBegin_eq]
  obtain ⟨code, mark, later, rfl, codeEq, markShape, rfl⟩ :=
    pass.exists_closing opened member openedSize bodyEq
  exact ⟨code, mark, later, by rw [opened, List.append_assoc], member, begins,
    codeEq, markShape, shortest, fits⟩

namespace Carries

variable {tag : Tag} {earlier code mark later : List Piece}

theorem codeSplit (carries : Carries script tag earlier code mark later) :
    script = (earlier ++ keeping tag.opening) ++
      (code ++ (mark ++ (keeping ['%', '>'] ++ later))) := by
  rw [carries.split]
  simp

theorem before_mark (carries : Carries script tag earlier code mark later) :
    before mark = TrimMark.text tag.trim := by
  rcases carries.mark with ⟨trimEq, rfl⟩ | ⟨own, trimEq, rfl | ⟨style, rfl⟩⟩
  · rw [trimEq]
    rfl
  · rw [trimEq]
    rfl
  · rw [trimEq]
    rfl

/-- In the code of a tag, white space alone is changed. -/
theorem blank_of_swap {first last : List Piece} {old new : Text}
    (pass : Pass fixers script)
    (carries : Carries script tag earlier code mark later)
    (codeEq : code = first ++ .swap old new :: last) :
    (∀ c ∈ old, Character.isBlank c = true) ∧
      ∀ c ∈ new, Character.isBlank c = true := by
  have split : script = (earlier ++ keeping tag.opening ++ first) ++
      .swap old new :: (last ++ (mark ++ (keeping ['%', '>'] ++ later))) := by
    rw [carries.codeSplit, codeEq]
    simp
  rcases (pass.changes split).blank_or_mark with
    blank | ⟨style, other, oldEq, -⟩
  · exact blank
  · exfalso
    obtain ⟨tag', member', begins, ends, atEnd⟩ :=
      pass.exists_tag_of_swap split (.inr ⟨other, oldEq⟩)
    have reach := atEnd (by simp [oldEq])
    have codeSize : tag.code.length =
        (before first).length + 1 + (before last).length := by
      rw [← carries.code, codeEq, oldEq]
      simp only [before_append, before_swap, List.length_append,
        List.length_singleton]
      omega
    have place : (before (earlier ++ keeping tag.opening ++ first)).length =
        tag.codeBegin + (before first).length := by
      rw [before_append, before_append, before_keeping, List.length_append,
        List.length_append, ← carries.begins, ← Tag.codeBegin_eq]
    rw [place] at reach begins
    have firstOwn := tag.beginPos_lt_codeBegin
    have lastOwn := tag.codeEnd_lt_endPos
    have first' := tag'.beginPos_lt_codeBegin
    have last' := tag'.codeEnd_lt_endPos
    have size : tag.codeEnd = tag.codeBegin + tag.code.length := rfl
    obtain rfl : tag = tag' :=
      @Tag.eq_of_inside _ _ _ (tag.codeBegin + (before first).length)
        carries.member member' (by omega) (by omega) (by omega) (by omega)
    omega

/-- The other characters of the code are kept. -/
theorem kept_of_solid {front rest : Text} {c : Char} (pass : Pass fixers script)
    (carries : Carries script tag earlier code mark later)
    (same : after code = front ++ c :: rest)
    (solid : Character.isBlank c = false) :
    ∃ first last, code = first ++ .keep c :: last ∧ after first = front ∧
      after last = rest := by
  rcases kept_or_new same with kept | ⟨first, old, begun, left, last, codeEq, -⟩
  · exact kept
  · have blank := (carries.blank_of_swap pass codeEq).2 c (by simp)
    rw [solid] at blank
    contradiction

/-- The code ends before the first closing delimiter after the pass, too. -/
theorem shortest_after {trim : Option TrimMark} (pass : Pass fixers script)
    (carries : Carries script tag earlier code mark later)
    (markEq : after mark = TrimMark.text trim) :
    Tag.Shortest (after code) trim := by
  constructor
  · intro closes
    have split : script = (earlier ++ keeping tag.opening) ++
        ((code ++ (mark ++ [.keep '%'])) ++ (.keep '>' :: later)) := by
      rw [carries.codeSplit]
      simp [keeping]
    have closesAfter : Closes (after (code ++ (mark ++ [.keep '%']))) := by
      rw [after_append, after_append, markEq, after_keep, after_nil,
        ← List.append_assoc]
      exact closes
    have closesBefore := pass.closes_of_after split closesAfter
    rw [before_append, before_append, carries.before_mark, before_keep, before_nil,
      carries.code, ← List.append_assoc] at closesBefore
    exact carries.shortest.unclosed closesBefore
  · rintro rfl
    have noMark : tag.trim = none ∧ mark = [] := by
      rcases carries.mark with both | ⟨own, -, rfl | ⟨style, rfl⟩⟩
      · exact both
      · simp [TrimMark.text] at markEq
      · simp [TrimMark.text] at markEq
    obtain codeEq | ⟨front, c, codeEq⟩ := (after code).eq_nil_or_concat'
    · rw [codeEq]
      exact lastIs_nil
    · rw [codeEq, lastIs_concat]
      by_contra marks
      have solid : Character.isBlank c = false := by
        by_cases dash : c = '-'
        · rw [dash]
          decide
        · by_cases equals : c = '='
          · rw [equals]
            decide
          · exact absurd ⟨dash, equals⟩ marks
      obtain ⟨first, last, rfl, -, lastEq⟩ :=
        carries.kept_of_solid pass codeEq solid
      have split : script =
          (earlier ++ keeping tag.opening ++ first ++ [.keep c]) ++
            (last ++ (keeping ['%', '>'] ++ later)) := by
        rw [carries.codeSplit, noMark.2]
        simp
      have behind : EndsSolid
          (before (earlier ++ keeping tag.opening ++ first ++ [.keep c])) := by
        rw [before_append, before_keep, before_nil, endsSolid_concat]
        exact solid
      have follows : StartsSolid (before (keeping ['%', '>'] ++ later)) :=
        startsSolid_cons.mpr (by decide)
      have nothing := pass.eq_nil_between split behind follows lastEq
      have untrimmed := carries.shortest.untrimmed noMark.1
      rw [← carries.code, nothing, before_append, before_keep, before_nil,
        lastIs_concat] at untrimmed
      exact marks untrimmed

theorem before_behind (carries : Carries script tag earlier code mark later) :
    before (code ++ (mark ++ (keeping ['%', '>'] ++ later))) =
      tag.code ++ (Tag.closing tag.trim ++ before later) := by
  simp only [before_append, carries.code, carries.before_mark, before_keeping,
    Tag.closing, List.append_assoc]

theorem after_behind {trim : Option TrimMark}
    (markEq : after mark = TrimMark.text trim) :
    after (code ++ (mark ++ (keeping ['%', '>'] ++ later))) =
      after code ++ (Tag.closing trim ++ after later) := by
  simp only [after_append, markEq, after_keeping, Tag.closing, List.append_assoc]

theorem behind_opening (earlier : List Piece) (tag : Tag) :
    EndsSolid (before (earlier ++ keeping tag.opening)) := by
  obtain ⟨front, c, openingEq, solid⟩ := tag.exists_opening
  rw [before_append, before_keeping, openingEq, ← List.append_assoc]
  exact endsSolid_concat.mpr solid

/-- What stands behind the opening delimiter after a pass did so before, unless
it is the trim mark of an empty tag. -/
theorem first_kept_or_mark {c : Char} {rest : Text} (pass : Pass fixers script)
    (carries : Carries script tag earlier code mark later)
    (same : after (code ++ (mark ++ (keeping ['%', '>'] ++ later))) = c :: rest)
    (solid : Character.isBlank c = false) :
    (∃ behind, code ++ (mark ++ (keeping ['%', '>'] ++ later)) = .keep c :: behind ∧
      after behind = rest) ∨
    (code = [] ∧ ∃ own style : TrimMark, tag.trim = some own ∧
      mark = [.swap [own.char] [style.char]] ∧ c = style.char) := by
  have split := carries.codeSplit
  generalize behindEq : code ++ (mark ++ (keeping ['%', '>'] ++ later)) = behind
    at same split
  have atOnce : after behind = [] ++ c :: rest := same
  rcases kept_or_new atOnce with
    ⟨first, last, rfl, nothing, lastEq⟩ |
    ⟨first, old, begun, left, last, rfl, nothing, -⟩
  · have gone := pass.eq_nil_between split (behind_opening earlier tag)
      (startsSolid_cons.mpr solid) nothing
    exact .inl ⟨last, by rw [gone]; rfl, lastEq⟩
  · right
    obtain ⟨noFirst, rfl⟩ := List.append_eq_nil_iff.mp nothing.symm
    have swapSplit : script = (earlier ++ keeping tag.opening ++ first) ++
        .swap old (c :: left) :: last := by
      rw [split]
      simp
    obtain ⟨style, own, rfl, newEq, -⟩ :=
      (pass.changes swapSplit).blank_or_mark.resolve_left fun blank => by
        rw [blank.2 c (.head _)] at solid
        contradiction
    rw [List.cons.injEq] at newEq
    obtain ⟨rfl, rfl⟩ := newEq
    have follows : StartsSolid (before (.swap [own.char] [style.char] :: last)) :=
      startsSolid_cons.mpr own.not_isBlank
    have gone := pass.eq_nil_between split (behind_opening earlier tag) follows
      noFirst
    rw [gone, List.nil_append] at behindEq
    cases code with
    | cons piece code =>
        rw [List.cons_append, List.cons.injEq] at behindEq
        obtain ⟨rfl, -⟩ := behindEq
        have blank := (carries.blank_of_swap pass (List.nil_append _).symm).2
        rw [blank style.char (.head _)] at solid
        contradiction
    | nil =>
        refine ⟨rfl, own, style, ?_⟩
        rcases carries.mark with
          ⟨-, rfl⟩ | ⟨own', trimEq, rfl | ⟨style', rfl⟩⟩
        · simp [keeping] at behindEq
        · simp at behindEq
        · simp only [List.nil_append, List.cons_append, List.cons.injEq,
            Piece.swap.injEq, and_true] at behindEq
          obtain ⟨⟨ownEq, styleEq⟩, -⟩ := behindEq
          have sameOwn : own' = own := TrimMark.char_injective ownEq
          have sameStyle : style' = style := TrimMark.char_injective styleEq
          exact ⟨sameOwn ▸ trimEq, by rw [sameOwn, sameStyle], rfl⟩

/-- A test that white space passes holds of what stands behind the opening
delimiter, unless a trim mark fails it. -/
theorem firstIs_after {test : Char → Prop} (pass : Pass fixers script)
    (carries : Carries script tag earlier code mark later)
    (blank : ∀ c, Character.isBlank c = true → test c)
    (starts : FirstIs test
      (before (code ++ (mark ++ (keeping ['%', '>'] ++ later))))) :
    FirstIs test (after (code ++ (mark ++ (keeping ['%', '>'] ++ later)))) ∨
    (code = [] ∧ ∃ own style : TrimMark,
      mark = [.swap [own.char] [style.char]] ∧ test own.char ∧
        ¬test style.char) := by
  cases same : after (code ++ (mark ++ (keeping ['%', '>'] ++ later))) with
  | nil => exact .inl firstIs_nil
  | cons c rest =>
      by_cases passes : test c
      · exact .inl (firstIs_cons.mpr passes)
      · right
        have solid : Character.isBlank c = false := by
          cases isBlank : Character.isBlank c with
          | false => rfl
          | true => exact absurd (blank c isBlank) passes
        rcases carries.first_kept_or_mark pass same solid with
          ⟨behind, behindEq, -⟩ | ⟨rfl, own, style, -, rfl, rfl⟩
        · rw [behindEq, before_keep, firstIs_cons] at starts
          exact absurd starts passes
        · exact ⟨rfl, own, style, rfl, firstIs_cons.mp starts, passes⟩

/-- The indicator is the longest one after the pass, too, unless the trim mark
of an empty tag becomes part of it. -/
theorem fits_after {trim : Option TrimMark} (pass : Pass fixers script)
    (carries : Carries script tag earlier code mark later)
    (markEq : after mark = TrimMark.text trim) :
    Tag.Fits tag.indicator (after code ++ (Tag.closing trim ++ after later)) ∨
    (tag.indicator = .output ∧ code = [] ∧ mark = [.swap ['-'] ['=']]) := by
  have fits := carries.fits
  rw [← carries.before_behind] at fits
  rw [← after_behind markEq]
  have blank_of_ne : ∀ d, Character.isBlank d = false →
      ∀ c, Character.isBlank c = true → c ≠ d := by
    rintro d solid c blank rfl
    rw [solid] at blank
    contradiction
  cases shape : tag.indicator with
  | rawOutput => exact .inl trivial
  | trimLeft => exact .inl trivial
  | comment => exact .inl trivial
  | escape => exact .inl trivial
  | output =>
      rw [shape] at fits
      rcases carries.firstIs_after pass (blank_of_ne '=' (by decide)) fits with
        starts | ⟨noCode, own, style, rfl, ownOther, same⟩
      · exact .inl starts
      · right
        refine ⟨rfl, noCode, ?_⟩
        cases own with
        | equals => exact absurd rfl ownOther
        | dash =>
            cases style with
            | equals => rfl
            | dash => exact absurd (by decide) same
  | plain =>
      rw [shape] at fits
      obtain ⟨starts, percent⟩ := fits
      left
      constructor
      · have blank : ∀ c, Character.isBlank c = true →
            c ≠ '=' ∧ c ≠ '-' ∧ c ≠ '#' := fun c isBlank =>
          ⟨blank_of_ne '=' (by decide) c isBlank,
            blank_of_ne '-' (by decide) c isBlank,
            blank_of_ne '#' (by decide) c isBlank⟩
        rcases carries.firstIs_after pass blank starts with
          startsAfter | ⟨-, own, -, -, ownOther, -⟩
        · exact startsAfter
        · cases own with
          | equals => exact absurd rfl ownOther.1
          | dash => exact absurd rfl ownOther.2.1
      · intro inner same closes
        rcases carries.first_kept_or_mark pass same (by decide) with
          ⟨behind, behindEq, rfl⟩ | ⟨-, -, style, -, -, styleEq⟩
        · have split : script = (earlier ++ keeping tag.opening ++ [.keep '%']) ++
              (behind ++ []) := by
            rw [carries.codeSplit, behindEq]
            simp
          apply percent (before behind)
          · rw [behindEq, before_keep]
          · exact pass.closes_of_after split closes
        · cases style <;> simp [TrimMark.char] at styleEq

end Carries

end Pass

/-! ## Scans before and after a pass -/

theorem Tag.scanFrom_of_not_mem {position : Nat} {front : Text} (rest : Text)
    (none_opens : '<' ∉ front) :
    Tag.scanFrom 0 position (front ++ rest) =
      Tag.scanFrom 0 (position + front.length) rest := by
  induction front generalizing position with
  | nil => rfl
  | cons c front induction =>
      rw [List.mem_cons, not_or] at none_opens
      have none_found : Tag.at? position (c :: (front ++ rest)) = none := by
        rw [Tag.at?_eq_none_iff]
        intro inner same
        rw [List.cons.injEq] at same
        exact absurd same.1.symm none_opens.1
      rw [List.cons_append, Tag.scanFrom_of_none none_found,
        induction none_opens.2, List.length_cons]
      congr 1
      omega

namespace Pass

variable {fixers : Fixers} {script : List Piece}

/-- No opening delimiter is swapped. -/
theorem not_opening_of_swap {earlier later : List Piece} {old new : Text}
    (pass : Pass fixers script)
    (split : script = earlier ++ .swap old new :: later) :
    '<' ∉ old ∧ '<' ∉ new := by
  have solid : Character.isBlank '<' = false := by decide
  rcases (pass.changes split).blank_or_mark with
    ⟨oldBlank, newBlank⟩ | ⟨style, mark, rfl, rfl, -⟩
  · constructor
    · intro member
      rw [oldBlank _ member] at solid
      contradiction
    · intro member
      rw [newBlank _ member] at solid
      contradiction
  · cases style <;> cases mark <;> simp [TrimMark.char]

/-- Where no tag stands before a pass, none does so after it. -/
theorem at?_after_eq_none {earlier inner : List Piece} {c : Char}
    {position position' : Nat} (pass : Pass fixers script)
    (split : script = earlier ++ .keep c :: inner)
    (none_found : Tag.at? position (c :: before inner) = none) :
    Tag.at? position' (c :: after inner) = none := by
  rw [Tag.at?_eq_none_iff] at none_found ⊢
  intro rest same closes
  rw [List.cons.injEq] at same
  obtain ⟨rfl, innerEq⟩ := same
  have innerSplit : script = (earlier ++ [.keep '<']) ++ (inner ++ []) := by
    rw [split]
    simp
  have behind : EndsSolid (before (earlier ++ [.keep '<'])) := by
    rw [before_append, before_keep, before_nil, endsSolid_concat]
    decide
  obtain ⟨last, rfl, rfl⟩ := pass.keep_of_after innerSplit behind innerEq
    (by decide) Change.not_fresh_percent
  have lastSplit : script = (earlier ++ [.keep '<', .keep '%']) ++ (last ++ []) := by
    rw [split]
    simp
  exact none_found (before last) rfl (pass.closes_of_after lastSplit closes)

/-- A tag after the pass, by the tag before it. -/
inductive Origin (script : List Piece) (tag' : Tag) : Prop where
  | bare (code : tag'.code = []) (trim : tag'.trim = none)
  | carried {tag : Tag} {earlier code mark later : List Piece}
      (carries : Carries script tag earlier code mark later)
      (indicator : tag'.indicator = tag.indicator)
      (codeEq : tag'.code = after code)
      (markEq : after mark = TrimMark.text tag'.trim)

namespace Carries

variable {tag : Tag} {earlier code mark later : List Piece}

theorem before_eq (carries : Carries script tag earlier code mark later) :
    before (keeping tag.opening ++ (code ++ (mark ++ (keeping ['%', '>'] ++ later)))) =
      tag.text ++ before later := by
  rw [before_append, before_keeping, carries.before_behind, Tag.text_append]
  rfl

theorem endPos_eq (carries : Carries script tag earlier code mark later) :
    tag.endPos = (before (earlier ++ keeping tag.opening ++ code ++ mark ++
      keeping ['%', '>'])).length := by
  simp only [before_append, before_keeping, carries.code, carries.before_mark,
    List.length_append, ← carries.begins, ← Tag.codeBegin_eq]
  rfl

/-- The scan after a pass takes the tag that the scan before it took. -/
theorem exists_scanFrom_after (pass : Pass fixers script)
    (carries : Carries script tag earlier code mark later) (position : Nat) :
    ∃ tag', Origin script tag' ∧
      Tag.scanFrom 0 position (after (keeping tag.opening ++
        (code ++ (mark ++ (keeping ['%', '>'] ++ later))))) =
        tag' :: Tag.scanFrom 0 tag'.endPos (after later) := by
  obtain ⟨trim, markEq⟩ : ∃ trim, after mark = TrimMark.text trim := by
    rcases carries.mark with ⟨-, rfl⟩ | ⟨own, -, rfl | ⟨style, rfl⟩⟩
    · exact ⟨none, rfl⟩
    · exact ⟨some own, rfl⟩
    · exact ⟨some style, rfl⟩
  rw [after_append, after_keeping, after_behind markEq]
  rcases carries.fits_after pass markEq with fits | ⟨shape, rfl, rfl⟩
  · let tag' : Tag := ⟨position, tag.indicator, after code, trim⟩
    have whole : tag.opening ++ (after code ++ (Tag.closing trim ++ after later)) =
        tag'.text ++ after later := by
      rw [Tag.text_append]
      rfl
    have found : Tag.at? position (tag'.text ++ after later) = some tag' :=
      Tag.at?_eq_some_iff.mpr
        ⟨after later, rfl, rfl, carries.shortest_after pass markEq, fits⟩
    rw [whole, Tag.scanFrom_of_some found]
    exact ⟨tag', .carried carries rfl rfl markEq, rfl⟩
  · let tag' : Tag := ⟨position, .rawOutput, [], none⟩
    have trimEq : trim = some .equals := by
      cases trim with
      | none => simp [TrimMark.text] at markEq
      | some style =>
          cases style with
          | dash => simp [TrimMark.text, TrimMark.char] at markEq
          | equals => rfl
    have whole : tag.opening ++
        (after [] ++ (Tag.closing trim ++ after later)) = tag'.text ++ after later := by
      rw [trimEq, Tag.opening, shape]
      rfl
    have found : Tag.at? position (tag'.text ++ after later) = some tag' :=
      Tag.at?_eq_some_iff.mpr
        ⟨after later, rfl, rfl, Tag.shortest_nil none, trivial⟩
    rw [whole, Tag.scanFrom_of_some found]
    exact ⟨tag', .bare rfl rfl, rfl⟩

end Carries

/-- Every tag after a pass was a tag before it. -/
theorem exists_origin {earlier inner : List Piece} {position : Nat} {tag' : Tag}
    (pass : Pass fixers script) (split : script = earlier ++ inner)
    (scanned : ∀ tag ∈ Tag.scanFrom 0 (before earlier).length (before inner),
      tag ∈ Tag.scan (before script))
    (member : tag' ∈ Tag.scanFrom 0 position (after inner)) :
    Origin script tag' := by
  induction size : inner.length using Nat.strongRecOn
    generalizing earlier inner position with
  | ind bound induction =>
      cases inner with
      | nil => simp [Tag.scanFrom] at member
      | cons piece inner =>
          have further : script = (earlier ++ [piece]) ++ inner := by
            rw [split]
            simp
          have smaller : inner.length < bound := by
            rw [← size]
            simp
          cases piece with
          | swap old new =>
              obtain ⟨notOld, notNew⟩ := pass.not_opening_of_swap split
              rw [before_swap, Tag.scanFrom_of_not_mem _ notOld] at scanned
              rw [after_swap, Tag.scanFrom_of_not_mem _ notNew] at member
              apply induction inner.length smaller further _ member rfl
              simpa using scanned
          | keep c =>
              cases found : Tag.at? (before earlier).length (c :: before inner) with
              | none =>
                  rw [before_keep, Tag.scanFrom_of_none found] at scanned
                  rw [after_keep, Tag.scanFrom_of_none
                    (pass.at?_after_eq_none split found)] at member
                  apply induction inner.length smaller further _ member rfl
                  simpa using scanned
              | some tag =>
                  obtain ⟨rest, same, -⟩ := Tag.at?_eq_some_iff.mp found
                  have standing := found
                  rw [same] at standing
                  rw [before_keep, same, Tag.scanFrom_of_some standing] at scanned
                  obtain rfl : c = '<' := by
                    rw [Tag.text_append, List.cons.injEq] at same
                    exact same.1
                  obtain ⟨code, mark, later, carries⟩ :=
                    pass.exists_carries split found (scanned tag (.head _))
                  have parts := List.append_cancel_left (split.symm.trans carries.split)
                  obtain ⟨first, origin, scanEq⟩ :=
                    carries.exists_scanFrom_after pass position
                  rw [parts, scanEq] at member
                  rcases List.mem_cons.mp member with rfl | inLater
                  · exact origin
                  · have laterSplit : script = (earlier ++ keeping tag.opening ++
                        code ++ mark ++ keeping ['%', '>']) ++ later := by
                      rw [carries.split]
                      simp
                    have laterSize : later.length < bound := by
                      rw [← size, parts]
                      simp only [List.length_append, keeping, List.length_map,
                        List.length_cons]
                      omega
                    apply induction later.length laterSize laterSplit _ inLater rfl
                    rw [← carries.endPos_eq]
                    have restEq : rest = before later := by
                      have whole := carries.before_eq
                      rw [← parts, before_keep, same] at whole
                      exact List.append_cancel_left whole
                    rw [← restEq]
                    exact fun other inRest => scanned other (.tail _ inRest)

/-- Every tag after a pass was a tag before it. -/
theorem origin_of_mem_scan {tag' : Tag} (pass : Pass fixers script)
    (member : tag' ∈ Tag.scan (after script)) : Origin script tag' :=
  pass.exists_origin (List.nil_append script).symm (fun _ => id) member

end Pass

end TemplateLint
