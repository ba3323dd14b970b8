import TemplateLint.Proofs.Xml.Grammar

/-!
# The characters of a document

Whatever the grammar puts between the characters of texts and values is made of
characters that a document may have, so that a document has no others.
-/

namespace TemplateLint.Xml

@[simp] theorem areLegal_nil : AreLegal [] := List.forall_mem_nil _

@[simp] theorem areLegal_cons {c : Char} {text : Text} :
    AreLegal (c :: text) ↔ IsLegal c ∧ AreLegal text := List.forall_mem_cons

@[simp] theorem areLegal_append {front rest : Text} :
    AreLegal (front ++ rest) ↔ AreLegal front ∧ AreLegal rest :=
  List.forall_mem_append

/-- Facts on the characters of a text are decided one by one. -/
theorem forall_mem_of_all {test : Char → Prop} [DecidablePred test]
    {text : Text} (passes : (text.all fun c => test c) = true) :
    ∀ c ∈ text, test c := by
  intro c member
  exact of_decide_eq_true (List.all_eq_true.mp passes c member)

/-! ## Single characters -/

theorem isLegal_newline : IsLegal '\n' := by decide

theorem isLegal_return : IsLegal '\r' := by decide

theorem isLegal_of_inside {c : Char} (low : 0x20 ≤ c.toNat)
    (high : c.toNat ≤ 0xD7FF) : IsLegal c := .inr (.inl ⟨low, high⟩)

/-- Characters are legal but for some controls and two codes. -/
theorem isLegal_of_ne {c : Char} (low : 0x20 ≤ c.toNat)
    (apart : c.toNat ≠ 0xFFFE ∧ c.toNat ≠ 0xFFFF) : IsLegal c := by
  have valid : c.toNat < 0xD800 ∨ 0xE000 ≤ c.toNat := by
    rcases c.valid with low | high
    · exact .inl low
    · exact .inr (Nat.succ_le_of_lt high.1)
  rw [IsLegal]
  omega

theorem isLegal_of_continuesName {c : Char} (continues : continuesName c = true) :
    IsLegal c := by
  have outside : ∀ code, code < 0x20 ∨ code = 0xFFFE ∨ code = 0xFFFF →
      (Character.within nameStarts code ||
        Character.within nameMiddles code) = false := by
    rintro code (small | rfl | rfl)
    · revert code
      decide
    · decide
    · decide
  by_contra illegal
  have excluded : c.toNat < 0x20 ∨ c.toNat = 0xFFFE ∨ c.toNat = 0xFFFF := by
    by_contra inside
    exact illegal (isLegal_of_ne (by omega) (by omega))
  rw [continuesName, startsName, outside _ excluded] at continues
  cases continues

theorem isLegal_of_isDigit {c : Char} (isDigit : c.isDigit = true) :
    IsLegal c ∧ c ≠ ';' := by
  constructor
  · have bounds := Char.isDigit_iff_toNat.mp isDigit
    exact isLegal_of_inside (le_trans (by decide) bounds.1)
      (le_trans bounds.2 (by decide))
  · rintro rfl
    exact absurd isDigit (by decide)

theorem isLegal_of_hexadecimalValue? {c : Char}
    (read : (Text.hexadecimalValue? c).isSome) : IsLegal c ∧ c ≠ ';' := by
  constructor
  · rw [Text.hexadecimalValue?] at read
    split at read
    next digit =>
      exact isLegal_of_inside (le_trans (by decide) (Char.le_def.mp digit.1))
        (le_trans (Char.le_def.mp digit.2) (by decide))
    next =>
    split at read
    next small =>
      exact isLegal_of_inside (le_trans (by decide) (Char.le_def.mp small.1))
        (le_trans (Char.le_def.mp small.2) (by decide))
    next =>
    split at read
    next capital =>
      exact isLegal_of_inside (le_trans (by decide) (Char.le_def.mp capital.1))
        (le_trans (Char.le_def.mp capital.2) (by decide))
    next => cases read
  · rintro rfl
    exact absurd read (by decide)

/-! ## Blanks, names and references -/

theorem IsBlank.areLegal {text : Text} (blank : IsBlank text) :
    AreLegal text := by
  have table : AreLegal blanks := by decide
  intro c member
  exact table c (blank c member)

theorem IsName.areLegal {name : Text} (isName : IsName name) :
    AreLegal name := by
  intro c member
  exact isLegal_of_continuesName (isName.2 c member)

theorem isDigit_of_natural? {digits : Text} {number : Nat}
    (read : Text.natural? digits = some number) :
    digits ≠ [] ∧ ∀ c ∈ digits, c.isDigit = true := by
  rw [Text.natural?, Option.ite_none_right_eq_some] at read
  exact ⟨read.1.1, List.all_eq_true.mp read.1.2⟩

theorem isSome_of_mapM_eq_some {Item Result : Type} {read : Item → Option Result}
    {items : List Item} {results : List Result}
    (reads : items.mapM read = some results) :
    ∀ item ∈ items, (read item).isSome := by
  induction items generalizing results with
  | nil =>
      intro item member
      cases member
  | cons first items induction =>
      simp only [List.mapM_cons, Option.bind_eq_bind, Option.bind_eq_some_iff]
        at reads
      obtain ⟨result, isFirst, others, areOthers, -⟩ := reads
      rw [List.forall_mem_cons]
      exact ⟨by simp [isFirst], induction areOthers⟩

/-- Nor is there a semicolon in what refers to a character. -/
theorem Refers.isLegal {body : Text} {c : Char} (refers : Refers body c) :
    ∀ c ∈ body, IsLegal c ∧ c ≠ ';' := by
  cases refers with
  | decimal legal number =>
      rw [List.forall_mem_cons]
      refine ⟨by decide, fun c member => ?_⟩
      exact isLegal_of_isDigit ((isDigit_of_natural? number).2 c member)
  | hexadecimal legal some_digit areDigits number =>
      rw [List.forall_mem_cons, List.forall_mem_cons]
      refine ⟨by decide, by decide, fun c member => ?_⟩
      exact isLegal_of_hexadecimalValue?
        (isSome_of_mapM_eq_some areDigits c member)
  | entity known =>
      have table : ∀ entity ∈ entities,
          AreLegal entity.1 ∧ ';' ∉ entity.1 := by decide
      obtain ⟨legal, apart⟩ := table _ known
      intro c member
      exact ⟨legal c member, ne_of_mem_of_not_mem member apart⟩

theorem Refers.areLegal {body : Text} {c : Char} (refers : Refers body c) :
    AreLegal body := fun c member => (refers.isLegal c member).1

/-! ## Elements -/

theorem SpellsValue.areLegal {quote : Char} {text value : Text}
    (spells : SpellsValue quote text value) : AreLegal text := by
  induction spells with
  | nil => exact areLegal_nil
  | character legal noQuote noTag noReference later induction =>
      exact areLegal_cons.mpr ⟨legal, induction⟩
  | reference refers later induction =>
      simp only [areLegal_cons, areLegal_append]
      exact ⟨by decide, refers.areLegal, by decide, induction⟩

theorem SpellsAttributes.areLegal {text : Text}
    {attributes : List (Text × Text)}
    (spells : SpellsAttributes text attributes) : AreLegal text := by
  induction spells with
  | nil => exact areLegal_nil
  | @cons _ _ _ _ _ _ _ quote _ isSpace some_space isName blankFront blankBack
      isQuote spells later induction =>
      have legalQuote : IsLegal quote := by
        have table : AreLegal ['"', apostrophe] := by decide
        exact table quote isQuote
      simp only [areLegal_cons, areLegal_append]
      exact ⟨isSpace.areLegal, isName.areLegal, blankFront.areLegal, by decide,
        blankBack.areLegal, legalQuote, spells.areLegal, legalQuote, induction⟩

theorem IsRemark.areLegal {remark : Text} (isRemark : IsRemark remark) :
    AreLegal remark := by
  cases isRemark with
  | comment legal first =>
      simp only [areLegal_cons, areLegal_append, areLegal_nil]
      exact ⟨by decide, by decide, by decide, by decide, legal, by decide⟩
  | instruction isName notReserved apart legal first =>
      simp only [areLegal_cons, areLegal_append, areLegal_nil]
      exact ⟨by decide, by decide, isName.areLegal, legal, by decide⟩

mutual

theorem SpellsElement.areLegal {text : Text} {item : Item} :
    SpellsElement text item → AreLegal text
  | .empty isName spells _ blank => by
      simp only [areLegal_cons, areLegal_append]
      exact ⟨by decide, isName.areLegal, spells.areLegal, blank.areLegal,
        by decide⟩
  | .filled isName spells _ blank spellsContent blankBehind => by
      have legalContent := spellsContent.areLegal
      simp only [areLegal_cons, areLegal_append]
      exact ⟨by decide, isName.areLegal, spells.areLegal, blank.areLegal,
        by decide, legalContent, by decide, by decide, isName.areLegal,
        blankBehind.areLegal, by decide⟩

theorem SpellsContent.areLegal {text : Text} {items : List Item} :
    SpellsContent text items → AreLegal text
  | .nil => areLegal_nil
  | .character legal _ _ _ later => areLegal_cons.mpr ⟨legal, later.areLegal⟩
  | .reference refers later => by
      have legalLater := later.areLegal
      simp only [areLegal_cons, areLegal_append]
      exact ⟨by decide, refers.areLegal, by decide, legalLater⟩
  | .verbatim legal _ later => by
      have legalLater := later.areLegal
      simp only [areLegal_cons, areLegal_append]
      exact ⟨by decide, by decide, by decide, by decide, by decide, by decide,
        by decide, by decide, by decide, legal, by decide, by decide, by decide,
        legalLater⟩
  | .remark isRemark later =>
      areLegal_append.mpr ⟨isRemark.areLegal, later.areLegal⟩
  | .element spells later =>
      areLegal_append.mpr ⟨spells.areLegal, later.areLegal⟩

end

/-! ## Documents -/

theorem IsMisc.areLegal {text : Text} (isMisc : IsMisc text) :
    AreLegal text := by
  induction isMisc with
  | nil => exact areLegal_nil
  | @blank c text isBlank later induction =>
      have legal : IsLegal c := by
        have table : AreLegal blanks := by decide
        exact table c isBlank
      exact areLegal_cons.mpr ⟨legal, induction⟩
  | remark isRemark later induction =>
      exact areLegal_append.mpr ⟨isRemark.areLegal, induction⟩

theorem IsDeclaration.areLegal {text : Text}
    (isDeclaration : IsDeclaration text) : AreLegal text := by
  cases isDeclaration with
  | absent => exact areLegal_nil
  | present spells noReference versioned blank =>
      simp only [areLegal_cons, areLegal_append]
      exact ⟨by decide, by decide, by decide, by decide, by decide,
        spells.areLegal, blank.areLegal, by decide⟩

theorem areLegal_universalNewlines {text : Text} :
    AreLegal text.universalNewlines ↔ AreLegal text := by
  fun_induction Text.universalNewlines text with
  | case1 rest induction =>
      rw [areLegal_cons, areLegal_cons, areLegal_cons, induction]
      simp [isLegal_return, isLegal_newline]
  | case2 rest other induction =>
      rw [areLegal_cons, areLegal_cons, induction]
      simp [isLegal_return, isLegal_newline]
  | case3 c rest other another induction =>
      rw [areLegal_cons, areLegal_cons, induction]
  | case4 => rfl

/-- A document consists of characters that a document may have. -/
theorem IsDocument.areLegal {text : Text} {root : Item}
    (isDocument : IsDocument text root) : AreLegal text := by
  obtain ⟨declaration, front, element, behind, parts, isDeclaration, isFront,
    spells, isBehind⟩ := isDocument
  rw [← areLegal_universalNewlines, parts]
  simp only [areLegal_append]
  exact ⟨isDeclaration.areLegal, isFront.areLegal, spells.areLegal,
    isBehind.areLegal⟩

end TemplateLint.Xml
