import TemplateLint.Proofs.Xml.Reader

/-!
# Documents are read

Whatever text spells an element or content, the reader returns this and what is
left of the text, so that a document has one root only.  The length of a text
is enough for the steps, as every character and every tag is read once.
-/

namespace TemplateLint.Xml

open Text (FirstIs firstIs_nil firstIs_cons)

variable {steps : Nat}

/-! ## What a text begins with -/

theorem start_element {c : Char} (starts : startsName c = true) (rest : Text) :
    start ('<' :: c :: rest) = .element (c :: rest) := by
  have apart : c ≠ '/' ∧ c ≠ '!' ∧ c ≠ '?' := by
    refine ⟨?_, ?_, ?_⟩ <;> (rintro rfl; exact absurd starts (by decide))
  simp [start, apart]

theorem start_character {c : Char} (noTag : c ≠ '<') (noReference : c ≠ '&')
    (rest : Text) : start (c :: rest) = .character c rest := by
  rw [start] <;> simp [noTag, noReference]

/-! ## Comments and instructions -/

/-- The target of an instruction ends before its data. -/
theorem firstIs_data {data : Text} (apart : FirstIs (· ∈ blanks) data)
    (rest : Text) :
    FirstIs (continuesName · = false) (data ++ (['?', '>'] ++ rest)) := by
  cases data with
  | nil =>
      rw [List.nil_append, List.cons_append, firstIs_cons]
      decide
  | cons c data =>
      rw [firstIs_cons] at apart
      rw [List.cons_append, firstIs_cons]
      exact continuesName_of_mem_blanks apart

theorem IsRemark.remark?_append {remark : Text} (isRemark : IsRemark remark)
    (rest : Text) : remark? (remark ++ rest) = some rest := by
  cases isRemark with
  | @comment inner legal first =>
      have found := first.until?_append (List.cons_ne_nil _ _) ('>' :: rest)
      have behind : start
          ('<' :: '!' :: '-' :: '-' :: (inner ++ ['-', '-', '>']) ++ rest) =
          .comment (inner ++ (['-', '-'] ++ '>' :: rest)) := by
        simp [start]
      rw [remark?, behind]
      simp only [found, Option.bind_eq_bind, Option.bind_some]
      rw [if_pos legal]
  | @instruction target data isName notReserved apart legal first =>
      have found := first.until?_append (List.cons_ne_nil _ _) rest
      have named := isName.name?_append (firstIs_data apart rest)
      have behind : start ('<' :: '?' :: (target ++ (data ++ ['?', '>'])) ++ rest) =
          .instruction (target ++ (data ++ (['?', '>'] ++ rest))) := by
        simp [start]
      have allowed : target.map Char.toLower ≠ ['x', 'm', 'l'] ∧
          data.head?.all (· ∈ blanks) = true ∧ AreLegal data := by
        refine ⟨notReserved, ?_, legal⟩
        cases data with
        | nil => rfl
        | cons c data => simpa using apart
      rw [remark?, behind]
      simp only [named, found, Option.bind_eq_bind, Option.bind_some]
      rw [if_pos allowed]

/-- A comment or an instruction begins with its own mark. -/
theorem IsRemark.start_append {remark : Text} (isRemark : IsRemark remark)
    (rest : Text) :
    ∃ left, start (remark ++ rest) = .comment left ∨
      start (remark ++ rest) = .instruction left := by
  cases isRemark with
  | comment legal first => exact ⟨_, .inl rfl⟩
  | instruction isName notReserved apart legal first => exact ⟨_, .inr rfl⟩

theorem IsRemark.length_pos {remark : Text} (isRemark : IsRemark remark) :
    0 < remark.length := by
  cases isRemark <;> exact Nat.succ_pos _

/-! ## Elements and their content -/

theorem IsName.closing?_append {name space : Text} (isName : IsName name)
    (blank : IsBlank space) (rest : Text) :
    closing? name (name ++ (space ++ '>' :: rest)) = some rest := by
  have stops : FirstIs (continuesName · = false) (space ++ '>' :: rest) := by
    apply blank.firstIs_append
    rw [firstIs_cons]
    decide
  have bracket : skipBlanks (space ++ '>' :: rest) = '>' :: rest := by
    rw [blank.skipBlanks_append]
    rfl
  rw [closing?, isName.name?_append stops]
  simp only [Option.bind_eq_bind, Option.bind_some, bracket, if_true]

/-- The end of a section stands in a text only, not over the tag behind it. -/
theorem prefix_of_prefix_append_tag {text rest : Text}
    (inFront : [']', ']', '>'] <+: text ++ '<' :: rest) :
    [']', ']', '>'] <+: text := by
  match text, inFront with
  | [], inFront => simp at inFront
  | [_], inFront => simp at inFront
  | [_, _], inFront => simp at inFront
  | a :: b :: c :: later, inFront => simpa using inFront

theorem content?_character {c : Char} {text left : Text} {items : List Item}
    (legal : IsLegal c) (noTag : c ≠ '<') (noReference : c ≠ '&')
    (noSection : ¬[']', ']', '>'] <+: c :: text)
    (read : content? steps text = some (items, left)) :
    content? (steps + 1) (c :: text) = some (.character c :: items, left) := by
  rw [content?, start_character noTag noReference]
  simp only [if_pos (And.intro legal noSection), read, Option.bind_eq_bind,
    Option.bind_some]
  rfl

theorem content?_reference {body text left : Text} {c : Char}
    {items : List Item} (refers : Refers body c)
    (read : content? steps text = some (items, left)) :
    content? (steps + 1) ('&' :: (body ++ ';' :: text)) =
      some (.character c :: items, left) := by
  have begins : start ('&' :: (body ++ ';' :: text)) =
      .reference (body ++ ';' :: text) := rfl
  rw [content?, begins]
  simp only [refers.reference?_append, read, Option.bind_eq_bind,
    Option.bind_some]
  rfl

theorem content?_verbatim {inner text left : Text} {items : List Item}
    (legal : AreLegal inner) (first : FirstBehind [']', ']', '>'] inner)
    (read : content? steps text = some (items, left)) :
    content? (steps + 1)
      ('<' :: '!' :: '[' :: 'C' :: 'D' :: 'A' :: 'T' :: 'A' :: '['
        :: (inner ++ ([']', ']', '>'] ++ text))) =
      some (inner.map .character ++ items, left) := by
  have begins : start ('<' :: '!' :: '[' :: 'C' :: 'D' :: 'A' :: 'T' :: 'A'
      :: '[' :: (inner ++ ([']', ']', '>'] ++ text))) =
      .verbatim (inner ++ ([']', ']', '>'] ++ text)) := rfl
  have found := first.until?_append (List.cons_ne_nil _ _) text
  rw [content?, begins]
  simp only [found, if_pos legal, read, Option.bind_eq_bind, Option.bind_some]
  rfl

theorem content?_remark {remark : Text} (isRemark : IsRemark remark)
    (text : Text) :
    content? (steps + 1) (remark ++ text) = content? steps text := by
  obtain ⟨left, isComment | isInstruction⟩ := isRemark.start_append text
  · rw [content?, isComment]
    simp only [isRemark.remark?_append, Option.bind_eq_bind, Option.bind_some]
  · rw [content?, isInstruction]
    simp only [isRemark.remark?_append, Option.bind_eq_bind, Option.bind_some]

theorem content?_element {text inside rest left : Text} {item : Item}
    {items : List Item} (begins : start text = .element inside)
    (readItem : element? steps inside = some (item, rest))
    (read : content? steps rest = some (items, left)) :
    content? (steps + 1) text = some (item :: items, left) := by
  rw [content?, begins]
  simp only [readItem, read, Option.bind_eq_bind, Option.bind_some]
  rfl

theorem element?_empty {name text space : Text}
    {attributes : List (Text × Text)} (isName : IsName name)
    (spells : SpellsAttributes text attributes)
    (distinct : (attributes.map (·.1)).Nodup) (blank : IsBlank space)
    (enough : text.length < steps) (rest : Text) :
    element? (steps + 1) (name ++ (text ++ (space ++ '/' :: '>' :: rest))) =
      some (.element name attributes [], rest) := by
  have ends : EndsTag ('/' :: '>' :: rest) := endsTag_cons.mpr (by decide)
  have read := spells.attributes?_append blank ends enough
  rw [element?, isName.name?_append (spells.firstIs_append blank ends)]
  simp only [read, if_pos distinct, Option.bind_eq_bind, Option.bind_some]

theorem element?_filled {name text space left rest : Text}
    {attributes : List (Text × Text)} {content : List Item}
    (isName : IsName name) (spells : SpellsAttributes text attributes)
    (distinct : (attributes.map (·.1)).Nodup) (blank : IsBlank space)
    (enough : text.length < steps) {inside : Text}
    (read : content? steps inside = some (content, left))
    (closes : closing? name left = some rest) :
    element? (steps + 1) (name ++ (text ++ (space ++ '>' :: inside))) =
      some (.element name attributes content, rest) := by
  have ends : EndsTag ('>' :: inside) := endsTag_cons.mpr (by decide)
  have readAttributes := spells.attributes?_append blank ends enough
  rw [element?, isName.name?_append (spells.firstIs_append blank ends)]
  simp only [readAttributes, if_pos distinct, read, closes,
    Option.bind_eq_bind, Option.bind_some]
  rfl

theorem SpellsElement.start_append {text : Text} {item : Item}
    (spells : SpellsElement text item) (rest : Text) :
    ∃ inside, text = '<' :: inside ∧
      start (text ++ rest) = .element (inside ++ rest) := by
  cases spells with
  | empty isName spells distinct blank =>
      obtain ⟨c, later, rfl, starts⟩ := isName.exists_cons
      exact ⟨_, rfl, start_element starts _⟩
  | filled isName spells distinct blank spellsContent blankBehind =>
      obtain ⟨c, later, rfl, starts⟩ := isName.exists_cons
      exact ⟨_, rfl, start_element starts _⟩

mutual

theorem SpellsElement.element?_append {inside rest : Text} {item : Item}
    {steps : Nat} (spells : SpellsElement ('<' :: inside) item)
    (enough : inside.length < steps) :
    element? steps (inside ++ rest) = some (item, rest) := by
  obtain ⟨steps, rfl⟩ := Nat.exists_eq_add_one_of_ne_zero
    (Nat.ne_zero_of_lt enough)
  cases spells with
  | empty isName spells distinct blank =>
      simp only [List.length_append, List.length_cons] at enough
      simp only [List.append_assoc, List.cons_append, List.nil_append]
      exact element?_empty isName spells distinct blank (by omega) rest
  | filled isName spells distinct blank spellsContent blankBehind =>
      simp only [List.length_append, List.length_cons] at enough
      simp only [List.append_assoc, List.cons_append, List.nil_append]
      exact element?_filled isName spells distinct blank (by omega)
        (spellsContent.content?_append (by omega))
        (isName.closing?_append blankBehind rest)

theorem SpellsContent.content?_append {text rest : Text} {items : List Item}
    {steps : Nat} (spells : SpellsContent text items)
    (enough : text.length < steps) :
    content? steps (text ++ '<' :: '/' :: rest) = some (items, rest) := by
  obtain ⟨steps, rfl⟩ := Nat.exists_eq_add_one_of_ne_zero
    (Nat.ne_zero_of_lt enough)
  cases spells with
  | nil => rfl
  | character legal noTag noReference noSection later =>
      rw [List.length_cons] at enough
      rw [List.cons_append]
      refine content?_character legal noTag noReference ?_
        (later.content?_append (by omega))
      intro inFront
      rw [← List.cons_append] at inFront
      exact noSection (prefix_of_prefix_append_tag inFront)
  | reference refers later =>
      simp only [List.length_append, List.length_cons] at enough
      rw [List.cons_append, List.append_assoc, List.cons_append]
      exact content?_reference refers (later.content?_append (by omega))
  | verbatim legal first later =>
      simp only [List.length_append, List.length_cons] at enough
      simp only [List.cons_append, List.append_assoc]
      exact content?_verbatim legal first (later.content?_append (by omega))
  | remark isRemark later =>
      have positive := isRemark.length_pos
      rw [List.length_append] at enough
      rw [List.append_assoc, content?_remark isRemark]
      exact later.content?_append (by omega)
  | @element front text item items spells later =>
      obtain ⟨inside, rfl, begins⟩ :=
        spells.start_append (text ++ '<' :: '/' :: rest)
      rw [List.length_append, List.length_cons] at enough
      rw [List.append_assoc]
      exact content?_element begins (spells.element?_append (by omega))
        (later.content?_append (by omega))

end

/-! ## Documents -/

theorem IsRemark.firstIs_append {remark : Text} (isRemark : IsRemark remark)
    (rest : Text) : FirstIs (· ∉ blanks) (remark ++ rest) := by
  cases isRemark <;> (rw [List.cons_append, firstIs_cons]; decide)

theorem IsMisc.skipMisc_append {text rest : Text} (isMisc : IsMisc text)
    (apart : FirstIs (· ∉ blanks) rest) (noRemark : remark? rest = none)
    (enough : text.length < steps) : skipMisc steps (text ++ rest) = rest := by
  induction isMisc generalizing steps with
  | nil =>
      obtain ⟨steps, rfl⟩ := Nat.exists_eq_add_one_of_ne_zero
        (Nat.ne_zero_of_lt enough)
      rw [List.nil_append, skipMisc, skipBlanks_eq_self apart, noRemark]
  | @blank c text isBlank later induction =>
      obtain ⟨steps, rfl⟩ := Nat.exists_eq_add_one_of_ne_zero
        (Nat.ne_zero_of_lt enough)
      rw [List.length_cons] at enough
      have skipped : skipBlanks (c :: (text ++ rest)) = skipBlanks (text ++ rest) :=
        List.dropWhile_cons_of_pos (decide_eq_true isBlank)
      have read := @induction (steps + 1) (by omega)
      rw [skipMisc] at read
      rw [List.cons_append, skipMisc, skipped, read]
  | remark isRemark later induction =>
      have positive := isRemark.length_pos
      obtain ⟨steps, rfl⟩ := Nat.exists_eq_add_one_of_ne_zero
        (Nat.ne_zero_of_lt enough)
      rw [List.length_append] at enough
      rw [List.append_assoc, skipMisc,
        skipBlanks_eq_self (isRemark.firstIs_append _),
        isRemark.remark?_append]
      exact induction (by omega)

theorem SpellsElement.remark?_append {text : Text} {item : Item}
    (spells : SpellsElement text item) (rest : Text) :
    remark? (text ++ rest) = none := by
  obtain ⟨inside, -, begins⟩ := spells.start_append rest
  rw [remark?, begins]

theorem SpellsElement.firstIs_append {text : Text} {item : Item}
    (spells : SpellsElement text item) (rest : Text) :
    FirstIs (· ∉ blanks) (text ++ rest) := by
  obtain ⟨inside, rfl, -⟩ := spells.start_append rest
  rw [List.cons_append, firstIs_cons]
  decide

theorem declared?_eq_self {text : Text}
    (other : ∀ left, start text ≠ .instruction left) :
    declared? text = some text := by
  rw [declared?]
  split
  next left begins => exact absurd begins (other left)
  next => rfl

theorem declared?_instruction {text inside target left : Text}
    (begins : start text = .instruction inside)
    (named : name? inside = some (target, left)) :
    declared? text =
      if target = ['x', 'm', 'l'] then declaration? left else some text := by
  rw [declared?, begins]
  simp only [named, Option.bind_eq_bind, Option.bind_some]

/-- White space, comments and instructions are not taken for a declaration, nor
is an element behind them. -/
theorem IsMisc.declared?_append {text element rest : Text} {item : Item}
    (isMisc : IsMisc text) (spells : SpellsElement element item) :
    declared? (text ++ (element ++ rest)) = some (text ++ (element ++ rest)) := by
  cases isMisc with
  | nil =>
      obtain ⟨inside, -, begins⟩ := spells.start_append rest
      apply declared?_eq_self
      simp [begins]
  | @blank c text isBlank later =>
      have apart : c ≠ '<' ∧ c ≠ '&' := by
        constructor <;> (rintro rfl; exact absurd isBlank (by decide))
      apply declared?_eq_self
      simp [start_character apart.1 apart.2]
  | remark isRemark later =>
      cases isRemark with
      | comment legal first =>
          apply declared?_eq_self
          simp [start]
      | @instruction target data isName notReserved apart legal first =>
          have noDeclaration : target ≠ ['x', 'm', 'l'] := by
            rintro rfl
            exact notReserved rfl
          have named (left : Text) :
              name? (target ++ (data ++ '?' :: '>' :: left)) =
                some (target, data ++ '?' :: '>' :: left) :=
            isName.name?_append (firstIs_data apart left)
          simp only [List.cons_append, List.append_assoc]
          rw [declared?_instruction rfl (named _), if_neg noDeclaration]

theorem SpellsAttributes.declaration?_append {text space : Text}
    {parts : List (Text × Text)} (spells : SpellsAttributes text parts)
    (noReference : '&' ∉ text) (versioned : isVersion parts = true)
    (blank : IsBlank space) (rest : Text) :
    declaration? (text ++ (space ++ '?' :: '>' :: rest)) = some rest := by
  have ends : EndsTag ('?' :: '>' :: rest) := endsTag_cons.mpr (by decide)
  have enough : text.length <
      (text ++ (space ++ '?' :: '>' :: rest)).length + 1 := by
    rw [List.length_append]
    omega
  have spent : (text ++ (space ++ '?' :: '>' :: rest)).take
      ((text ++ (space ++ '?' :: '>' :: rest)).length
        - ('?' :: '>' :: rest).length) = text ++ space := by
    rw [← List.append_assoc, List.length_append, Nat.add_sub_cancel,
      List.take_left]
  have allowed : isVersion parts ∧ '&' ∉ text ++ space := by
    refine ⟨versioned, ?_⟩
    rw [List.mem_append, not_or]
    refine ⟨noReference, fun member => ?_⟩
    exact absurd (blank '&' member) (by decide)
  rw [declaration?, spells.attributes?_append blank ends enough]
  simp only [Option.bind_eq_bind, Option.bind_some, spent, if_pos allowed]

theorem IsDeclaration.declared?_append {declaration misc element rest : Text}
    {item : Item} (isDeclaration : IsDeclaration declaration)
    (isMisc : IsMisc misc) (spells : SpellsElement element item) :
    declared? (declaration ++ (misc ++ (element ++ rest))) =
      some (misc ++ (element ++ rest)) := by
  cases isDeclaration with
  | absent => exact isMisc.declared?_append spells
  | @present text space parts isParts noReference versioned blank =>
      have ends (left : Text) : EndsTag ('?' :: '>' :: left) :=
        endsTag_cons.mpr (by decide)
      have isName : IsName ['x', 'm', 'l'] := by decide
      have named := isName.name?_append
        (isParts.firstIs_append blank (ends (misc ++ (element ++ rest))))
      simp only [List.cons_append, List.append_assoc, List.nil_append]
      rw [declared?_instruction rfl named, if_pos rfl]
      exact isParts.declaration?_append noReference versioned blank _

/-- The root of a text is read. -/
theorem IsUnified.unified?_eq {text : Text} {root : Item}
    (isUnified : IsUnified text root) : unified? text = some root := by
  obtain ⟨declaration, front, element, behind, rfl, isDeclaration, isFront,
    spells, isBehind⟩ := isUnified
  obtain ⟨inside, rfl, begins⟩ := spells.start_append behind
  have atElement : skipMisc ((front ++ ('<' :: inside ++ behind)).length + 1)
      (front ++ ('<' :: inside ++ behind)) = '<' :: inside ++ behind := by
    apply isFront.skipMisc_append (spells.firstIs_append behind)
      (spells.remark?_append behind)
    rw [List.length_append]
    omega
  have readElement : element? ((inside ++ behind).length + 1)
      (inside ++ behind) = some (root, behind) := by
    apply spells.element?_append
    rw [List.length_append]
    omega
  have atEnd : skipMisc (behind.length + 1) behind = [] := by
    have skipped : skipMisc (behind.length + 1) (behind ++ []) = [] :=
      isBehind.skipMisc_append firstIs_nil rfl (by omega)
    rwa [List.append_nil] at skipped
  rw [unified?, isDeclaration.declared?_append isFront spells]
  simp only [Option.bind_eq_bind, Option.bind_some, atElement, begins,
    readElement, atEnd, if_true]

/-- The root of a document is read. -/
theorem IsDocument.read?_eq {text : Text} {root : Item}
    (isDocument : IsDocument text root) : read? text = some root :=
  IsUnified.unified?_eq isDocument

/-- A document has one root only. -/
theorem IsDocument.unique {text : Text} {root other : Item}
    (isDocument : IsDocument text root) (isDocumentToo : IsDocument text other) :
    root = other := by
  have read := isDocument.read?_eq
  rw [isDocumentToo.read?_eq] at read
  exact (Option.some.inj read).symm

end TemplateLint.Xml
