import TemplateLint.Proofs.Xml.Characters

/-!
# Reading XML

A reader for the whole grammar.  Each step takes a text and returns what is
left of it, and the length of the text bounds the number of steps.  Names,
marks, references and attributes are read as the grammar spells them.
-/

namespace TemplateLint.Xml

/-! ## The reader -/

def skipBlanks (text : Text) : Text := text.dropWhile (· ∈ blanks)

def name? (text : Text) : Option (Text × Text) :=
  if text.head?.any startsName then
    some (text.takeWhile continuesName, text.dropWhile continuesName)
  else none

/-- The text in front of the first mark, and the text behind the mark. -/
def until? (mark : Text) : Text → Option (Text × Text)
  | [] => none
  | c :: rest =>
      match (c :: rest).dropPrefix? mark with
      | some left => some ([], left)
      | none => (until? mark rest).map fun found => (c :: found.1, found.2)

/-- The character of a number, if a document may have it. -/
def numbered? (code : Nat) : Option Char :=
  if IsLegal (Char.ofNat code) ∧ (Char.ofNat code).toNat = code then
    some (Char.ofNat code)
  else none

/-- What is referred to between an ampersand and a semicolon. -/
def referent? : Text → Option Char
  | '#' :: 'x' :: digits =>
      if digits = [] then none
      else (digits.mapM Text.hexadecimalValue?).bind fun values =>
        numbered? (values.foldl (fun value digit => value * 16 + digit) 0)
  | '#' :: digits => (Text.natural? digits).bind numbered?
  | name => (entities.find? fun entity => entity.1 = name).map (·.2)

/-- The character that is referred to behind an ampersand. -/
def reference? (text : Text) : Option (Char × Text) := do
  let (body, left) ← until? [';'] text
  return (← referent? body, left)

/-- The value of an attribute up to its closing quote. -/
def value? (quote : Char) : Nat → Text → Option (Text × Text)
  | 0, _ => none
  | _ + 1, [] => none
  | steps + 1, c :: rest =>
      if c = quote then some ([], rest)
      else if c = '&' then do
        let (referent, left) ← reference? rest
        let (value, left) ← value? quote steps left
        return (referent :: value, left)
      else if c = '<' ∨ ¬IsLegal c then none
      else do
        let (value, left) ← value? quote steps rest
        return (inValue c :: value, left)

/-- What is assigned behind the name of an attribute. -/
def assigned? (steps : Nat) (text : Text) : Option (Text × Text) :=
  match skipBlanks text with
  | '=' :: text =>
      match skipBlanks text with
      | quote :: text =>
          if quote ∈ ['"', apostrophe] then value? quote steps text else none
      | [] => none
  | _ => none

/-- The attributes of a tag, and its end without the white space before it. -/
def attributes? : Nat → Text → Option (List (Text × Text) × Text)
  | 0, _ => none
  | steps + 1, text =>
      match name? (skipBlanks text) with
      | none => some ([], skipBlanks text)
      | some (name, left) =>
          if text.head?.any (· ∈ blanks) then do
            let (value, left) ← assigned? steps left
            let (others, left) ← attributes? steps left
            return ((name, value) :: others, left)
          else none

/-- What a text begins with, and what is left behind the marks for it. -/
inductive Start where
  | closing (left : Text)
  | comment (left : Text)
  | verbatim (left : Text)
  | instruction (left : Text)
  | element (left : Text)
  | reference (left : Text)
  | character (c : Char) (left : Text)
  | nothing

def start : Text → Start
  | '<' :: '/' :: left => .closing left
  | '<' :: '!' :: '-' :: '-' :: left => .comment left
  | '<' :: '!' :: '[' :: 'C' :: 'D' :: 'A' :: 'T' :: 'A' :: '[' :: left =>
      .verbatim left
  | '<' :: '?' :: left => .instruction left
  | '<' :: left => .element left
  | '&' :: left => .reference left
  | c :: left => .character c left
  | [] => .nothing

/-- What is left behind a comment or an instruction. -/
def remark? (text : Text) : Option Text :=
  match start text with
  | .comment left => do
      let (inner, left) ← until? ['-', '-'] left
      match left with
      | '>' :: left => if AreLegal inner then some left else none
      | _ => none
  | .instruction left => do
      let (target, left) ← name? left
      let (data, left) ← until? ['?', '>'] left
      if target.map Char.toLower ≠ ['x', 'm', 'l'] ∧
          data.head?.all (· ∈ blanks) ∧ AreLegal data then some left
      else none
  | _ => none

/-- What is left behind a closing tag, from the name on. -/
def closing? (name text : Text) : Option Text := do
  let (found, left) ← name? text
  match skipBlanks left with
  | '>' :: left => if found = name then some left else none
  | _ => none

mutual

/-- An element behind its first bracket. -/
def element? : Nat → Text → Option (Item × Text)
  | 0, _ => none
  | steps + 1, text => do
      let (name, left) ← name? text
      let (attributes, left) ← attributes? steps left
      if (attributes.map (·.1)).Nodup then
        match left with
        | '/' :: '>' :: left => some (.element name attributes [], left)
        | '>' :: left => do
            let (content, left) ← content? steps left
            let left ← closing? name left
            return (.element name attributes content, left)
        | _ => none
      else none

/-- Content and the opening of the closing tag behind it. -/
def content? : Nat → Text → Option (List Item × Text)
  | 0, _ => none
  | steps + 1, text =>
      match start text with
      | .closing left => some ([], left)
      | .character c left =>
          if IsLegal c ∧ ¬[']', ']', '>'] <+: text then do
            let (items, left) ← content? steps left
            return (.character c :: items, left)
          else none
      | .reference left => do
          let (c, left) ← reference? left
          let (items, left) ← content? steps left
          return (.character c :: items, left)
      | .verbatim left => do
          let (inner, left) ← until? [']', ']', '>'] left
          if AreLegal inner then do
            let (items, left) ← content? steps left
            return (inner.map .character ++ items, left)
          else none
      | .comment _ | .instruction _ => do content? steps (← remark? text)
      | .element left => do
          let (item, left) ← element? steps left
          let (items, left) ← content? steps left
          return (item :: items, left)
      | .nothing => none

end

/-- What is left behind white space, comments and instructions. -/
def skipMisc : Nat → Text → Text
  | 0, text => text
  | steps + 1, text =>
      match remark? (skipBlanks text) with
      | some left => skipMisc steps left
      | none => skipBlanks text

/-- What is left behind the declaration of a document, from its parts on. -/
def declaration? (text : Text) : Option Text := do
  let (parts, stop) ← attributes? (text.length + 1) text
  match stop with
  | '?' :: '>' :: left =>
      let spent := text.take (text.length - stop.length)
      if isVersion parts ∧ '&' ∉ spent then some left else none
  | _ => none

/-- What is left behind the declaration, if there is one. -/
def declared? (text : Text) : Option Text :=
  match start text with
  | .instruction left => do
      let (target, left) ← name? left
      if target = ['x', 'm', 'l'] then declaration? left else some text
  | _ => some text

/-- The root of a text with unified line ends. -/
def unified? (text : Text) : Option Item := do
  let left ← declared? text
  match start (skipMisc (left.length + 1) left) with
  | .element left => do
      let (root, left) ← element? (left.length + 1) left
      if skipMisc (left.length + 1) left = [] then some root else none
  | _ => none

/-- The root of a document. -/
def read? (text : Text) : Option Item := unified? text.universalNewlines

open Text (FirstIs firstIs_nil firstIs_cons)

/-! ## Blanks and names -/

theorem IsBlank.skipBlanks_append {front : Text} (blank : IsBlank front)
    (rest : Text) : skipBlanks (front ++ rest) = skipBlanks rest := by
  apply List.dropWhile_append_of_pos
  intro c member
  exact decide_eq_true (blank c member)

theorem skipBlanks_eq_self {text : Text} (apart : FirstIs (· ∉ blanks) text) :
    skipBlanks text = text := by
  cases text with
  | nil => rfl
  | cons c rest =>
      rw [firstIs_cons] at apart
      exact List.dropWhile_cons_of_neg (by simpa using apart)

theorem continuesName_of_mem_blanks {c : Char} (isBlank : c ∈ blanks) :
    continuesName c = false := by
  have table : ∀ c ∈ blanks, continuesName c = false :=
    forall_mem_of_all (by decide)
  exact table c isBlank

theorem not_mem_blanks_of_startsName {c : Char} (starts : startsName c = true) :
    c ∉ blanks := by
  intro isBlank
  have continues := continuesName_of_mem_blanks isBlank
  simp [continuesName, starts] at continues

/-- A name that ends before a text ends before white space and this text. -/
theorem IsBlank.firstIs_append {front rest : Text} (blank : IsBlank front)
    (stops : FirstIs (continuesName · = false) rest) :
    FirstIs (continuesName · = false) (front ++ rest) := by
  cases front with
  | nil => exact stops
  | cons c front =>
      rw [List.cons_append, firstIs_cons]
      exact continuesName_of_mem_blanks (blank c (.head _))

theorem IsName.exists_cons {name : Text} (isName : IsName name) :
    ∃ c later, name = c :: later ∧ startsName c = true := by
  obtain ⟨⟨first, member, starts⟩, -⟩ := isName
  obtain ⟨later, rfl⟩ := List.head?_eq_some_iff.mp member
  exact ⟨first, later, rfl, starts⟩

theorem IsName.name?_append {name rest : Text} (isName : IsName name)
    (stops : FirstIs (continuesName · = false) rest) :
    name? (name ++ rest) = some (name, rest) := by
  obtain ⟨c, later, rfl, starts⟩ := isName.exists_cons
  rw [name?, Text.takeWhile_append isName.2 stops,
    Text.dropWhile_append isName.2 stops]
  simp [starts]

theorem IsName.skipBlanks_append {name : Text} (isName : IsName name)
    (rest : Text) : skipBlanks (name ++ rest) = name ++ rest := by
  obtain ⟨c, later, rfl, starts⟩ := isName.exists_cons
  apply skipBlanks_eq_self
  rw [List.cons_append, firstIs_cons]
  exact not_mem_blanks_of_startsName starts

theorem name?_eq_none {text : Text} (apart : FirstIs (startsName · = false) text) :
    name? text = none := by
  cases text with
  | nil => rfl
  | cons c rest =>
      rw [firstIs_cons] at apart
      simp [name?, apart]

/-! ## Marks -/

theorem FirstBehind.tail {mark inner : Text} {c : Char}
    (first : FirstBehind mark (c :: inner)) : FirstBehind mark inner := by
  intro front rest split
  apply first (c :: front) rest
  rw [List.cons_append, split, List.cons_append]

theorem FirstBehind.not_begins {mark inner : Text} {c : Char}
    (first : FirstBehind mark (c :: inner)) (rest : Text) :
    ¬mark <+: c :: inner ++ (mark ++ rest) := by
  intro inFront
  have whole : mark <+: c :: inner ++ mark := by
    apply List.prefix_of_prefix_length_le inFront
    · rw [← List.append_assoc]
      exact List.prefix_append _ _
    · rw [List.length_append]
      omega
  obtain ⟨left, split⟩ := whole
  obtain rfl : left = [] := first [] left split.symm
  have lengths := congrArg List.length split
  simp only [List.append_nil, List.length_append, List.length_cons] at lengths
  omega

theorem FirstBehind.until?_append {mark inner : Text}
    (first : FirstBehind mark inner) (some_mark : mark ≠ []) (rest : Text) :
    until? mark (inner ++ (mark ++ rest)) = some (inner, rest) := by
  induction inner with
  | nil =>
      obtain ⟨c, later, rfl⟩ := List.exists_cons_of_ne_nil some_mark
      have dropped : (c :: later ++ rest).dropPrefix? (c :: later) = some rest :=
        List.dropPrefix?_append_of_beq _ BEq.rfl
      rw [List.nil_append, List.cons_append, until?, ← List.cons_append, dropped]
  | cons c inner induction =>
      have kept : (c :: inner ++ (mark ++ rest)).dropPrefix? mark = none := by
        rw [Option.eq_none_iff_forall_ne_some]
        intro left found
        obtain ⟨front, split, same⟩ := List.dropPrefix?_eq_some_iff.mp found
        obtain rfl : mark = front := (eq_of_beq same).symm
        exact first.not_begins rest ⟨left, split.symm⟩
      rw [List.cons_append, until?, ← List.cons_append, kept,
        induction first.tail]
      rfl

theorem firstBehind_singleton {mark : Char} {inner : Text}
    (apart : mark ∉ inner) : FirstBehind [mark] inner := by
  induction inner with
  | nil =>
      intro front rest split
      cases front with
      | nil => simpa using split.symm
      | cons c front => simp at split
  | cons c inner induction =>
      rw [List.mem_cons, not_or] at apart
      intro front rest split
      cases front with
      | nil => exact absurd (List.cons.inj split).1.symm apart.1
      | cons first front =>
          exact induction apart.2 front rest (List.cons.inj split).2

/-! ## References -/

theorem numbered?_toNat {c : Char} (legal : IsLegal c) :
    numbered? c.toNat = some c := by
  rw [numbered?, Char.ofNat_toNat, if_pos ⟨legal, rfl⟩]

theorem Refers.referent?_eq {body : Text} {c : Char} (refers : Refers body c) :
    referent? body = some c := by
  cases refers with
  | @decimal digits _ legal number =>
      have areDigits := isDigit_of_natural? number
      obtain ⟨first, later, rfl⟩ := List.exists_cons_of_ne_nil areDigits.1
      have isDigit := areDigits.2 first (.head _)
      rw [referent?, number, Option.bind_some, numbered?_toNat legal]
      rintro rest ⟨⟩
      exact absurd isDigit (by decide)
  | hexadecimal legal some_digit areDigits number =>
      rw [referent?, if_neg some_digit, areDigits, Option.bind_some, number,
        numbered?_toNat legal]
  | entity known =>
      have table : ∀ entity ∈ entities, referent? entity.1 = some entity.2 := by
        decide
      exact table _ known

theorem Refers.reference?_append {body : Text} {c : Char}
    (refers : Refers body c) (rest : Text) :
    reference? (body ++ ';' :: rest) = some (c, rest) := by
  have first : FirstBehind [';'] body := by
    apply firstBehind_singleton
    intro member
    exact (refers.isLegal ';' member).2 rfl
  have found := first.until?_append (List.cons_ne_nil _ _) rest
  rw [List.singleton_append] at found
  rw [reference?, found]
  simp only [Option.bind_eq_bind, Option.bind_some, refers.referent?_eq]
  rfl

/-! ## Attributes -/

variable {steps : Nat}

theorem SpellsValue.value?_append {quote : Char} {text value : Text}
    (spells : SpellsValue quote text value)
    (isQuote : quote ∈ ['"', apostrophe]) (enough : text.length < steps)
    (rest : Text) :
    value? quote steps (text ++ quote :: rest) = some (value, rest) := by
  induction spells generalizing steps with
  | nil =>
      obtain ⟨steps, rfl⟩ := Nat.exists_eq_add_one_of_ne_zero
        (Nat.ne_zero_of_lt enough)
      rw [List.nil_append, value?, if_pos rfl]
  | character legal noQuote noTag noReference later induction =>
      obtain ⟨steps, rfl⟩ := Nat.exists_eq_add_one_of_ne_zero
        (Nat.ne_zero_of_lt enough)
      rw [List.length_cons] at enough
      rw [List.cons_append, value?, if_neg noQuote, if_neg noReference,
        if_neg (by simp [noTag, legal]), induction (by omega)]
      rfl
  | reference refers later induction =>
      obtain ⟨steps, rfl⟩ := Nat.exists_eq_add_one_of_ne_zero
        (Nat.ne_zero_of_lt enough)
      have noQuote : '&' ≠ quote := by
        rintro rfl
        exact absurd isQuote (by decide)
      simp only [List.length_cons, List.length_append] at enough
      rw [List.cons_append, value?, if_neg noQuote, if_pos rfl,
        List.append_assoc, List.cons_append, refers.reference?_append]
      simp only [Option.bind_eq_bind, Option.bind_some]
      rw [induction (by omega)]
      rfl

/-- What is neither white space nor part of a name, as the end of a tag. -/
def EndsTag (rest : Text) : Prop :=
  FirstIs (fun c => c ∉ blanks ∧ continuesName c = false) rest

theorem endsTag_cons {c : Char} {rest : Text} :
    EndsTag (c :: rest) ↔ c ∉ blanks ∧ continuesName c = false := firstIs_cons

theorem EndsTag.stops {rest : Text} (ends : EndsTag rest) :
    FirstIs (continuesName · = false) rest := fun c first => (ends c first).2

theorem EndsTag.skipBlanks_eq {rest : Text} (ends : EndsTag rest) :
    skipBlanks rest = rest := by
  apply skipBlanks_eq_self
  intro c first
  exact (ends c first).1

theorem EndsTag.name?_eq {rest : Text} (ends : EndsTag rest) :
    name? rest = none := by
  apply name?_eq_none
  intro c first
  have stops := (ends c first).2
  rw [continuesName, Bool.or_eq_false_iff] at stops
  exact stops.1

theorem SpellsValue.assigned?_append {quote : Char} {front back text value : Text}
    (spells : SpellsValue quote text value)
    (isQuote : quote ∈ ['"', apostrophe]) (blankFront : IsBlank front)
    (blankBack : IsBlank back) (enough : text.length < steps) (rest : Text) :
    assigned? steps (front ++ '=' :: (back ++ quote :: (text ++ quote :: rest))) =
      some (value, rest) := by
  have sign : skipBlanks
      (front ++ '=' :: (back ++ quote :: (text ++ quote :: rest))) =
      '=' :: (back ++ quote :: (text ++ quote :: rest)) := by
    rw [blankFront.skipBlanks_append]
    rfl
  have quoted : skipBlanks (back ++ quote :: (text ++ quote :: rest)) =
      quote :: (text ++ quote :: rest) := by
    rw [blankBack.skipBlanks_append]
    apply skipBlanks_eq_self
    rw [firstIs_cons]
    revert isQuote
    simp only [List.mem_cons, List.not_mem_nil, or_false]
    rintro (rfl | rfl) <;> decide
  simp only [assigned?, sign, quoted]
  rw [if_pos isQuote]
  exact spells.value?_append isQuote enough rest

/-- An attribute is read behind white space only. -/
theorem attributes?_named {text name left value rest : Text}
    (behindSpace : text.head?.any (· ∈ blanks) = true)
    (named : name? (skipBlanks text) = some (name, left))
    (assigned : assigned? steps left = some (value, rest)) :
    attributes? (steps + 1) text =
      (attributes? steps rest).map fun found =>
        ((name, value) :: found.1, found.2) := by
  rw [attributes?, named]
  simp only [if_pos behindSpace, assigned, Option.bind_eq_bind,
    Option.bind_some]
  cases attributes? steps rest <;> rfl

theorem SpellsAttributes.attributes?_append {text space rest : Text}
    {attributes : List (Text × Text)}
    (spells : SpellsAttributes text attributes) (blank : IsBlank space)
    (ends : EndsTag rest) (enough : text.length < steps) :
    attributes? steps (text ++ (space ++ rest)) = some (attributes, rest) := by
  induction spells generalizing steps with
  | nil =>
      obtain ⟨steps, rfl⟩ := Nat.exists_eq_add_one_of_ne_zero
        (Nat.ne_zero_of_lt enough)
      have skipped : skipBlanks (space ++ rest) = rest := by
        rw [blank.skipBlanks_append, ends.skipBlanks_eq]
      rw [List.nil_append, attributes?, skipped, ends.name?_eq]
  | @cons before name front back text value later quote others isSpace
      some_space isName blankFront blankBack isQuote spells _ induction =>
      obtain ⟨steps, rfl⟩ := Nat.exists_eq_add_one_of_ne_zero
        (Nat.ne_zero_of_lt enough)
      simp only [List.length_cons, List.length_append] at enough
      simp only [List.append_assoc, List.cons_append]
      have behindSpace (behind : Text) :
          (before ++ behind).head?.any (· ∈ blanks) = true := by
        obtain ⟨c, others, rfl⟩ := List.exists_cons_of_ne_nil some_space
        exact decide_eq_true (isSpace c (.head _))
      have named (behind : Text) :
          name? (skipBlanks (before ++ (name ++ (front ++ '=' :: behind)))) =
            some (name, front ++ '=' :: behind) := by
        rw [isSpace.skipBlanks_append, isName.skipBlanks_append]
        apply isName.name?_append
        apply blankFront.firstIs_append
        rw [firstIs_cons]
        decide
      rw [attributes?_named (behindSpace _) (named _)
        (spells.assigned?_append isQuote blankFront blankBack (by omega) _),
        induction (by omega)]
      rfl

/-- Behind a name its attributes begin with white space, if there are any. -/
theorem SpellsAttributes.firstIs_append {text space rest : Text}
    {attributes : List (Text × Text)}
    (spells : SpellsAttributes text attributes) (blank : IsBlank space)
    (ends : EndsTag rest) :
    FirstIs (continuesName · = false) (text ++ (space ++ rest)) := by
  cases spells with
  | nil => exact blank.firstIs_append ends.stops
  | cons isSpace some_space isName blankFront blankBack isQuote spells later =>
      obtain ⟨c, others, rfl⟩ := List.exists_cons_of_ne_nil some_space
      simp only [List.cons_append, firstIs_cons]
      exact continuesName_of_mem_blanks (isSpace c (.head _))

end TemplateLint.Xml
