import TemplateLint.Proofs.Source.Rewriting

/-!
# What stands behind an escape

The text `<%%` stands for a literal `<%`, but a scan takes it together with
all that follows up to the next closing delimiter.  So the tags behind it are
those behind that delimiter.  These are all the tags of the text that follows
the escape only if no tag opens in front of its first closing delimiter.
-/

namespace TemplateLint

/-! ## First delimiters -/

namespace Text

/-- A text that has an opening delimiter. -/
def Opens (text : Text) : Prop := ['<', '%'] <:+: text

theorem not_opens_nil : ¬Opens [] := by simp [Opens]

theorem opens_cons_iff {c : Char} {rest : Text} :
    Opens (c :: rest) ↔ (c = '<' ∧ ∃ later, rest = '%' :: later) ∨ Opens rest :=
  infix_pair_cons_iff

theorem opens_concat_iff {text : Text} {c : Char} (other : c ≠ '%') :
    Opens (text ++ [c]) ↔ Opens text :=
  infix_pair_concat_iff other

/-- Two characters in a row, where they stand first. -/
theorem exists_first_pair {first second : Char} {text : Text}
    (occurs : [first, second] <:+: text) :
    ∃ front later, text = front ++ first :: second :: later ∧
      ¬[first, second] <:+: front ++ [first] := by
  induction text with
  | nil => simp at occurs
  | cons c text induction =>
      by_cases here : c = first ∧ ∃ later, text = second :: later
      · obtain ⟨rfl, later, rfl⟩ := here
        exact ⟨[], later, rfl, fun short => by simpa using short.length_le⟩
      · obtain ⟨front, later, rfl, before⟩ :=
          induction ((infix_pair_cons_iff.mp occurs).resolve_left here)
        refine ⟨c :: front, later, rfl, ?_⟩
        rw [List.cons_append, infix_pair_cons_iff, not_or]
        refine ⟨?_, before⟩
        rintro ⟨rfl, behind, same⟩
        cases front with
        | nil =>
            cases same
            exact here ⟨rfl, _, rfl⟩
        | cons d front =>
            cases same
            exact here ⟨rfl, _, rfl⟩

end Text

namespace Tag

open Text

variable {position : Nat} {code rest inner : Text}

/-! ## Tags from a position on -/

/-- The same tag further to the right. -/
def shifted (distance : Nat) (tag : Tag) : Tag :=
  tag.movedTo (tag.beginPos + distance)

theorem tagsFrom_add (position distance : Nat) (text : Text) :
    tagsFrom (position + distance) text =
      (tagsFrom position text).map (shifted distance) := by
  induction position, text using scan_induction with
  | nil position => rfl
  | tag tag rest found induction =>
      have read := at?_movedTo (tag.beginPos + distance) found id
      have ends : (shifted distance tag).endPos = tag.endPos + distance := by
        rw [endPos_eq, endPos_eq, shifted, movedTo]
        simp only [Tag.text]
        omega
      by_cases escape : tag.indicator = .escape
      · rw [tagsFrom_of_escape found escape, ← induction, ← ends]
        exact @tagsFrom_of_escape _ (shifted distance tag) _ read escape
      · rw [tagsFrom_of_tag found escape, List.map_cons, ← induction, ← ends]
        exact @tagsFrom_of_tag _ (shifted distance tag) _ read escape
  | other position c rest none_found induction =>
      have none_moved : at? (position + distance) (c :: rest) = none := by
        rw [at?_eq_none_iff] at none_found ⊢
        exact none_found
      rw [tagsFrom_of_none none_found, tagsFrom_of_none none_moved, ← induction,
        Nat.add_right_comm]

theorem le_beginPos_of_mem {tag : Tag} (member : tag ∈ tagsFrom position rest) :
    position ≤ tag.beginPos := by
  obtain ⟨front, behind, -, begins, -⟩ :=
    exists_parts_of_mem_scanFrom (List.mem_filter.mp member).1
  omega

theorem tagsFrom_of_not_closes (unclosed : ¬Closes rest) :
    tagsFrom position rest = [] := by
  apply List.eq_nil_iff_forall_not_mem.mpr
  intro tag member
  obtain ⟨front, behind, rfl, -, -⟩ :=
    exists_parts_of_mem_scanFrom (List.mem_filter.mp member).1
  apply unclosed
  rw [Tag.text]
  have closes := closes_append
    (front ++ (['<', '%'] ++ tag.indicator.text ++ tag.code ++ TrimMark.text tag.trim))
    behind
  simpa using closes

/-- Nothing is read in front of the first opening delimiter. -/
theorem tagsFrom_append {front : Text} {c : Char} (unopened : ¬Opens (front ++ [c])) :
    tagsFrom position (front ++ c :: rest) =
      tagsFrom (position + front.length) (c :: rest) := by
  induction front generalizing position with
  | nil => rfl
  | cons d front induction =>
      rw [List.cons_append, opens_cons_iff, not_or] at unopened
      have none_found : at? position (d :: (front ++ c :: rest)) = none := by
        rw [at?_eq_none_iff]
        intro inner opens
        rw [List.cons.injEq] at opens
        obtain ⟨rfl, opens⟩ := opens
        refine absurd ⟨rfl, ?_⟩ unopened.1
        cases front with
        | nil =>
            cases opens
            exact ⟨_, rfl⟩
        | cons e front =>
            cases opens
            exact ⟨_, rfl⟩
      rw [List.cons_append, tagsFrom_of_none none_found, induction unopened.2,
        List.length_cons, Nat.add_assoc, Nat.add_comm 1]

/-! ## Escapes -/

/-- Code up to the first closing delimiter ends with a trim mark or not. -/
theorem exists_shortest (unclosed : ¬Closes (code ++ ['%'])) :
    ∃ bare trim, code = bare ++ TrimMark.text trim ∧ Shortest bare trim := by
  by_cases marked : ∃ bare mark, code = bare ++ TrimMark.text (some mark)
  · obtain ⟨bare, mark, rfl⟩ := marked
    exact ⟨bare, some mark, rfl, unclosed, nofun⟩
  · refine ⟨code, none, (List.append_nil code).symm, ?_, ?_⟩
    · rwa [TrimMark.text, List.append_nil]
    · intro _ c last
      obtain ⟨bare, rfl⟩ := List.getLast?_eq_some_iff.mp last
      constructor
      · rintro rfl
        exact marked ⟨bare, .dash, rfl⟩
      · rintro rfl
        exact marked ⟨bare, .equals, rfl⟩

/-- An escape takes all up to the first closing delimiter. -/
theorem tagsFrom_escape (unclosed : ¬Closes (code ++ ['%'])) :
    tagsFrom position ('<' :: '%' :: '%' :: (code ++ '%' :: '>' :: rest)) =
      tagsFrom (position + 3 + (code.length + 2)) rest := by
  obtain ⟨bare, trim, rfl, shortest⟩ := exists_shortest unclosed
  have found : at? position ((⟨position, .escape, bare, trim⟩ : Tag).text ++ rest) =
      some ⟨position, .escape, bare, trim⟩ :=
    at?_eq_some_iff.mpr ⟨rest, rfl, rfl, shortest, trivial⟩
  have text : '<' :: '%' :: '%' :: (bare ++ TrimMark.text trim ++ '%' :: '>' :: rest) =
      (⟨position, .escape, bare, trim⟩ : Tag).text ++ rest := by
    simp [Tag.text, Indicator.text]
  rw [text, tagsFrom_of_escape found rfl]
  congr 1
  simp only [endPos, codeEnd, codeBegin, Indicator.text, List.length_append,
    List.length_singleton]
  omega

/-- The text `<%%>` is an empty tag if no closing delimiter follows it. -/
theorem tagsFrom_empty (unclosed : ¬Closes rest) :
    tagsFrom position ('<' :: '%' :: '%' :: '>' :: rest) =
      [⟨position, .plain, [], none⟩] := by
  have found : at? position ((⟨position, .plain, [], none⟩ : Tag).text ++ rest) =
      some ⟨position, .plain, [], none⟩ := by
    refine at?_eq_some_iff.mpr ⟨rest, rfl, rfl, shortest_nil none, ?_, ?_⟩
    · exact firstIs_cons.mpr (by decide)
    · intro later same closes
      cases same
      exact unclosed (closes_of_cons closes (by decide))
  have nothing : tagsFrom (Tag.endPos ⟨position, .plain, [], none⟩) rest = [] :=
    tagsFrom_of_not_closes unclosed
  have read := tagsFrom_of_tag found nofun
  rwa [nothing] at read

/-- What opens and closes and is no escape is a tag. -/
theorem exists_tag_of_opening (closes : Closes inner)
    (noEscape : ∀ later, inner = '%' :: later → ¬Closes later) :
    ∃ tag ∈ tagsFrom position ('<' :: '%' :: inner), tag.beginPos = position := by
  cases found : at? position ('<' :: '%' :: inner) with
  | none => exact absurd closes (at?_eq_none_iff.mp found inner rfl)
  | some tag =>
      obtain ⟨rest, same, begins, -, -⟩ := at?_eq_some_iff.mp found
      rw [same] at found ⊢
      refine ⟨tag, ?_, begins⟩
      rw [tagsFrom_of_tag found]
      · exact .head _
      · intro escape
        rw [text_append, escape] at same
        simp only [Indicator.text, List.singleton_append, List.cons.injEq,
          true_and] at same
        exact noEscape _ same closes_body

/-! ## Continuations of which an escape hides nothing -/

/-- Texts of which no tag is hidden, and none comes to light, if an escape
stands in front of them.  Wherever a tag could open in front of the first
closing delimiter stands another escape, or the two delimiters overlap. -/
inductive Spared : Text → Prop
  | unclosed {inner : Text} (unclosed : ¬Closes inner)
      (apart : ∀ later, inner ≠ '>' :: later) : Spared inner
  | unopened {code rest : Text} (first : ¬Closes (code ++ ['%']))
      (unopened : ¬Opens (code ++ ['%'])) : Spared (code ++ '%' :: '>' :: rest)
  | escape {front code rest : Text} (unopened : ¬Opens front)
      (first : ¬Closes (front ++ '<' :: '%' :: '%' :: code ++ ['%'])) :
      Spared (front ++ '<' :: '%' :: '%' :: (code ++ '%' :: '>' :: rest))
  | overlap {front rest : Text} (unopened : ¬Opens front) (first : ¬Closes front)
      (unclosed : ¬Closes rest) : Spared (front ++ '<' :: '%' :: '>' :: rest)
  | overlapEscape {front rest : Text} (unopened : ¬Opens front)
      (first : ¬Closes front) (closes : Closes rest) (later : Spared rest) :
      Spared (front ++ '<' :: '%' :: '%' :: '>' :: rest)

section Spared

variable {front : Text}

theorem tagsFrom_closing :
    tagsFrom position ('%' :: '>' :: rest) = tagsFrom (position + 2) rest := by
  have none_found {position : Nat} {c : Char} {later : Text} (other : c ≠ '<') :
      at? position (c :: later) = none := by
    rw [at?_eq_none_iff]
    rintro inner ⟨⟩
    exact absurd rfl other
  rw [tagsFrom_of_none (none_found (by decide)),
    tagsFrom_of_none (none_found (by decide))]

/-- The delimiters of `<%>` overlap, and nothing is closed behind them. -/
theorem tagsFrom_overlap (unclosed : ¬Closes rest) :
    tagsFrom position ('<' :: '%' :: '>' :: rest) = [] := by
  have none_found : at? position ('<' :: '%' :: '>' :: rest) = none := by
    rw [at?_eq_none_iff]
    rintro inner ⟨⟩ closes
    exact unclosed (closes_of_cons closes (by decide))
  rw [tagsFrom_of_none none_found, tagsFrom_closing, tagsFrom_of_not_closes unclosed]

/-- An escape that overlaps with a closing delimiter is closed by the next
one. -/
theorem tagsFrom_overlapEscape (closes : Closes rest) :
    tagsFrom position ('<' :: '%' :: '%' :: '>' :: rest) =
      tagsFrom (position + 1) ('<' :: '%' :: '%' :: rest) := by
  obtain ⟨code, behind, rfl, unclosed⟩ := exists_first_pair closes
  have unclosedToo : ¬Closes ('>' :: code ++ ['%']) := by
    rw [List.cons_append, closes_cons_iff]
    rintro (⟨mark, -⟩ | closes)
    · cases mark
    · exact unclosed closes
  have read := @tagsFrom_escape position _ behind unclosedToo
  rw [tagsFrom_escape unclosed]
  rw [List.cons_append, List.length_cons] at read
  rw [read]
  congr 1
  omega

theorem not_closes_overlap (first : ¬Closes front) :
    ¬Closes (front ++ ['<'] ++ ['%']) := by
  rwa [closes_concat_iff (by decide), closes_concat_iff (by decide)]

/-- An escape in front of a spared text stands for itself. -/
theorem tagsFrom_of_spared (spared : Spared inner) (position : Nat) :
    tagsFrom position ('<' :: '%' :: '%' :: inner) = tagsFrom (position + 3) inner := by
  induction spared generalizing position with
  | @unclosed inner unclosed apart =>
      have unclosedToo : ¬Closes ('<' :: '%' :: '%' :: inner) := by
        simp [closes_cons_iff, unclosed, apart]
      rw [tagsFrom_of_not_closes unclosed, tagsFrom_of_not_closes unclosedToo]
  | @unopened code rest first unopened =>
      rw [tagsFrom_escape first, tagsFrom_append unopened, tagsFrom_closing,
        Nat.add_assoc _ code.length]
  | @escape front code rest unopened first =>
      have inside : ¬Closes (code ++ ['%']) := fun closes =>
        first (closes.trans ⟨front ++ ['<', '%', '%'], [], by simp⟩)
      have parts : front ++ '<' :: '%' :: '%' :: (code ++ '%' :: '>' :: rest) =
          front ++ '<' :: '%' :: '%' :: code ++ '%' :: '>' :: rest := by simp
      rw [parts, tagsFrom_escape first, ← parts,
        tagsFrom_append (by rwa [opens_concat_iff (by decide)]),
        tagsFrom_escape inside]
      congr 1
      simp only [List.length_append, List.length_cons]
      omega
  | @overlap front rest unopened first unclosed =>
      have parts : front ++ '<' :: '%' :: '>' :: rest =
          front ++ ['<'] ++ '%' :: '>' :: rest := by simp
      rw [parts, tagsFrom_escape (not_closes_overlap first), ← parts,
        tagsFrom_append (by rwa [opens_concat_iff (by decide)]),
        tagsFrom_overlap unclosed, tagsFrom_of_not_closes unclosed]
  | @overlapEscape front rest unopened first closes later induction =>
      have parts : front ++ '<' :: '%' :: '%' :: '>' :: rest =
          front ++ ['<', '%'] ++ '%' :: '>' :: rest := by simp
      have unclosed : ¬Closes (front ++ ['<', '%'] ++ ['%']) := by
        have overlapped := not_closes_overlap first
        rw [List.append_assoc, List.singleton_append] at overlapped
        rwa [closes_concat_iff (by decide)]
      rw [parts, tagsFrom_escape unclosed, ← parts,
        tagsFrom_append (by rwa [opens_concat_iff (by decide)]),
        tagsFrom_overlapEscape closes, induction]
      congr 1
      simp only [List.length_append, List.length_cons, List.length_nil]
      omega

/-- A text with a tag in front of its first closing delimiter is not spared. -/
theorem exists_escape_of_tagsFrom {last : Nat} {rest' : Text} (before : position < last)
    (closes : Closes inner)
    (same : tagsFrom last rest' = tagsFrom position ('<' :: '%' :: inner)) :
    ∃ later, inner = '%' :: later ∧ Closes later := by
  by_contra noEscape
  obtain ⟨tag, member, begins⟩ := @exists_tag_of_opening position inner closes
    fun later starts closesLater => noEscape ⟨later, starts, closesLater⟩
  rw [← same] at member
  have behind := le_beginPos_of_mem member
  omega

/-- A text that opens in front of its first closing delimiter overlaps with it
or has more in between. -/
theorem exists_first_opening (opens : Opens (code ++ ['%'])) :
    ∃ front, ¬Opens (front ++ ['<']) ∧
      (code = front ++ ['<'] ∨ ∃ inside, code = front ++ '<' :: '%' :: inside) := by
  obtain ⟨front, later, parts, before⟩ := exists_first_pair opens
  refine ⟨front, before, ?_⟩
  rcases later.eq_nil_or_concat with rfl | ⟨inside, last, rfl⟩
  · have split : code ++ ['%'] = front ++ ['<'] ++ ['%'] := by simpa using parts
    exact .inl (List.append_cancel_right split)
  · have split : code ++ ['%'] = front ++ '<' :: '%' :: inside ++ [last] := by
      simpa using parts
    exact .inr ⟨inside, (List.append_inj' split rfl).1⟩

/-- If no tag begins at overlapping delimiters, nothing is closed behind them. -/
theorem spared_of_overlap {last : Nat} (unopened : ¬Opens front)
    (first : ¬Closes front) (behind : position + front.length < last)
    (same : tagsFrom last rest =
      tagsFrom position (front ++ '<' :: '%' :: '>' :: rest)) :
    Spared (front ++ '<' :: '%' :: '>' :: rest) := by
  rw [tagsFrom_append (by rwa [opens_concat_iff (by decide)])] at same
  by_cases closes : Closes rest
  · obtain ⟨later, starts, -⟩ :=
      exists_escape_of_tagsFrom behind (closes_cons_iff.mpr (.inr closes)) same
    cases starts
  · exact .overlap unopened first closes

/-- If an escape in front of a text stands for itself, the text is spared. -/
theorem spared_of_tagsFrom {inner : Text} (position : Nat)
    (same : tagsFrom position ('<' :: '%' :: '%' :: inner) =
      tagsFrom (position + 3) inner) : Spared inner := by
  induction long : inner.length using Nat.strongRecOn generalizing position inner with
  | ind size induction =>
      by_cases closes : Closes inner
      · obtain ⟨code, rest, rfl, first⟩ := exists_first_pair closes
        rw [tagsFrom_escape first] at same
        by_cases opens : Opens (code ++ ['%'])
        · obtain ⟨front, before, overlaps | ⟨inside, apart⟩⟩ := exists_first_opening opens
          all_goals rw [opens_concat_iff (by decide)] at before
          · subst overlaps
            have unclosed : ¬Closes front := fun closes =>
              first (closes.trans ⟨[], ['<', '%'], by simp⟩)
            rw [List.append_assoc, List.singleton_append] at same ⊢
            exact spared_of_overlap before unclosed (by simp; omega) same
          · subst apart
            have joined : front ++ '<' :: '%' :: inside ++ '%' :: '>' :: rest =
                front ++ '<' :: '%' :: (inside ++ '%' :: '>' :: rest) := by simp
            rw [joined] at same ⊢
            rw [tagsFrom_append (by rwa [opens_concat_iff (by decide)])] at same
            obtain ⟨later, starts, closesLater⟩ := exists_escape_of_tagsFrom
              (by simp; omega) (closes_append inside rest) same
            cases inside with
            | nil =>
                -- the escape takes this closing delimiter and ends behind the next
                cases starts
                have behind : Closes rest :=
                  (closes_cons_iff.mp closesLater).resolve_left (by simp)
                have unclosed : ¬Closes front := fun closes =>
                  first (closes.trans ⟨[], ['<', '%', '%'], by simp⟩)
                have moved : position + 3 + ((front ++ ['<', '%']).length + 2) =
                    position + 3 + front.length + 1 + 3 := by
                  simp only [List.length_append, List.length_cons, List.length_nil]
                  omega
                rw [List.nil_append, tagsFrom_overlapEscape behind, moved] at same
                have shorter : rest.length < size := by
                  simp only [List.length_append, List.length_cons] at long
                  omega
                have later := induction rest.length shorter _ same.symm rfl
                exact .overlapEscape before unclosed behind later
            | cons c inside =>
                cases starts
                exact .escape before first
        · exact .unopened first opens
      · by_cases starts : ∃ later, inner = '>' :: later
        · obtain ⟨later, rfl⟩ := starts
          have unclosed : ¬Closes later := fun behind =>
            closes (closes_cons_iff.mpr (.inr behind))
          rw [tagsFrom_empty unclosed, tagsFrom_of_not_closes closes] at same
          contradiction
        · exact .unclosed closes fun later starting => starts ⟨later, starting⟩

theorem tagsFrom_escape_eq_iff :
    tagsFrom position ('<' :: '%' :: '%' :: inner) = tagsFrom (position + 3) inner ↔
      Spared inner :=
  ⟨spared_of_tagsFrom position, fun spared => tagsFrom_of_spared spared position⟩

/-- The tags behind an escape are those of the text behind the next closing
delimiter, and all tags in front of that delimiter are hidden.  An escape that
is not closed hides nothing, but the text `<%%>` is then an empty tag.  So the
tags are all those of the text behind the escape if and only if that text is
spared. -/
theorem tags_behind_escape {front inner : Text} (unopened : ¬Opens front) :
    (∀ code rest : Text, inner = code ++ '%' :: '>' :: rest →
      ¬Closes (code ++ ['%']) →
      (front ++ '<' :: '%' :: '%' :: inner).tags =
        rest.tags.map (shifted (front.length + 3 + (code.length + 2)))) ∧
    (¬Closes inner → (front ++ '<' :: '%' :: '%' :: inner).tags =
      if inner.head? = some '>' then [⟨front.length, .plain, [], none⟩] else []) ∧
    ((front ++ '<' :: '%' :: '%' :: inner).tags =
        inner.tags.map (shifted (front.length + 3)) ↔ Spared inner) := by
  have from_start (text : Text) : text.tags = tagsFrom 0 text := rfl
  have at_escape : (front ++ '<' :: '%' :: '%' :: inner).tags =
      tagsFrom front.length ('<' :: '%' :: '%' :: inner) := by
    rw [from_start, tagsFrom_append (by rwa [opens_concat_iff (by decide)]),
      Nat.zero_add]
  have moved (text : Text) (distance : Nat) :
      text.tags.map (shifted distance) = tagsFrom distance text := by
    rw [from_start, ← tagsFrom_add, Nat.zero_add]
  rw [at_escape]
  simp only [moved]
  refine ⟨?_, ?_, tagsFrom_escape_eq_iff⟩
  · rintro code rest rfl first
    exact tagsFrom_escape first
  · intro unclosed
    split
    · next starts =>
        obtain ⟨later, rfl⟩ := List.head?_eq_some_iff.mp starts
        exact tagsFrom_empty fun closes => unclosed (closes_cons_iff.mpr (.inr closes))
    · next apart =>
        apply tagsFrom_of_not_closes
        rw [List.head?_eq_some_iff] at apart
        simp [closes_cons_iff, unclosed, apart]

theorem tags_behind_escape_of_literal :
    ¬Opens "a %> b" ∧ ¬Closes (" literal ".toList ++ ['%']) ∧
      Text.tags ("a %> b<%% literal %><% if x %>") =
        (Text.tags "<% if x %>").map (shifted 20) :=
  have plain : ¬Opens "a %> b" := by
    simp [opens_cons_iff, not_opens_nil]
  have first : ¬Closes (" literal ".toList ++ ['%']) := by
    simp [closes_cons_iff, not_closes_nil]
  ⟨plain, first, (tags_behind_escape plain).1 " literal " "<% if x %>" rfl first⟩

/-- A tag in front of the first closing delimiter is hidden by the escape. -/
theorem escape_hides_tag :
    ¬Opens [] ∧
      Text.tags "<%%<% a %>" ≠ (Text.tags "<% a %>").map (shifted 3) := by
  refine ⟨not_opens_nil, ?_⟩
  decide +kernel

end Spared

end Tag

end TemplateLint
