import TemplateLint.Json.Reader
import TemplateLint.Proofs.Json.Grammar

/-!
# The reader reads the grammar

Whatever text spells a value, the reader returns this value and what is left of
the text.  A number must not go on in what is left.  Twice the length of a text
is enough for the steps, as every bracket, comma and character is read once.
-/

namespace TemplateLint.Json

/-! ## Blanks -/

theorem IsBlank.skipBlanks_append {front : Text} (blank : IsBlank front)
    (rest : Text) : skipBlanks (front ++ rest) = skipBlanks rest := by
  apply List.dropWhile_append_of_pos
  intro c member
  simpa [or_assoc] using blank c member

theorem IsBlank.value?_append {front : Text} (blank : IsBlank front)
    (steps : Nat) (rest : Text) :
    value? steps (front ++ rest) = value? steps rest := by
  cases steps with
  | zero => rfl
  | succ steps => rw [value?, value?, blank.skipBlanks_append]

/-- A number does not go on here. -/
def Stops (rest : Text) : Prop :=
  ∀ c ∈ rest.head?, c.isDigit = false ∧ c ≠ '.' ∧ c ≠ 'e' ∧ c ≠ 'E'

theorem stops_nil : Stops [] := by
  intro c member
  cases member

theorem stops_cons {c : Char} (stops : c.isDigit = false ∧ c ≠ '.' ∧ c ≠ 'e' ∧ c ≠ 'E')
    (rest : Text) : Stops (c :: rest) := by
  intro first member
  cases member
  exact stops

theorem IsBlank.stops_append {front rest : Text} (blank : IsBlank front)
    (stops : Stops rest) : Stops (front ++ rest) := by
  cases front with
  | nil => exact stops
  | cons c front =>
      have isBlank := blank c (.head _)
      apply stops_cons
      revert isBlank
      simp only [List.mem_cons, List.not_mem_nil, or_false]
      rintro (rfl | rfl | rfl | rfl) <;> decide

/-! ## Strings -/

theorem SpellsUnit.codeUnit?_append {digits : Text} {unit : Nat}
    (spells : SpellsUnit digits unit) (rest : Text) :
    codeUnit? (digits ++ rest) = some (unit, rest) := by
  cases spells with
  | digits isFirst isSecond isThird isFourth =>
      simp [codeUnit?, isFirst, isSecond, isThird, isFourth]

theorem escaped?_of_mem {letter c : Char} (known : (letter, c) ∈ letters) :
    escaped? letter = some c ∧ letter ≠ 'u' := by
  have table : ∀ pair ∈ letters,
      escaped? pair.1 = some pair.2 ∧ pair.1 ≠ 'u' := by decide
  exact table _ known

theorem numbered?_of_unit {digits : Text} {c : Char}
    (spells : SpellsUnit digits c.toNat) (rest : Text) :
    numbered? (digits ++ rest) = some (c, rest) := by
  have outside : c.toNat < 0xD800 ∨ 0xE000 ≤ c.toNat := by
    rcases c.valid with low | high
    · exact .inl low
    · exact .inr (Nat.succ_le_of_lt high.1)
  simp [numbered?, spells.codeUnit?_append, if_pos outside, Char.ofNat_toNat]

theorem numbered?_of_pair {high low : Text} {upper lower : Nat} {c : Char}
    (spellsHigh : SpellsUnit high (0xD800 + upper)) (upperFits : upper < 0x400)
    (spellsLow : SpellsUnit low (0xDC00 + lower)) (lowerFits : lower < 0x400)
    (code : c.toNat = 0x10000 + upper * 0x400 + lower) (rest : Text) :
    numbered? (high ++ '\\' :: 'u' :: low ++ rest) = some (c, rest) := by
  have inside : ¬(0xD800 + upper < 0xD800 ∨ 0xE000 ≤ 0xD800 + upper) := by omega
  have isPair : 0xD800 + upper < 0xDC00 ∧ 0xDC00 ≤ 0xDC00 + lower ∧
      0xDC00 + lower < 0xE000 := by omega
  have restored : Char.ofNat (0x10000 + (0xD800 + upper - 0xD800) * 0x400 +
      (0xDC00 + lower - 0xDC00)) = c := by
    rw [Nat.add_sub_cancel_left, Nat.add_sub_cancel_left, ← code,
      Char.ofNat_toNat]
  rw [List.append_assoc, numbered?, spellsHigh.codeUnit?_append]
  simp only [Option.bind_eq_bind, Option.bind_some, if_neg inside,
    List.cons_append, spellsLow.codeUnit?_append, if_pos isPair, restored]
  rfl

theorem SpellsCharacter.characters?_append {text : Text} {c : Char}
    (spells : SpellsCharacter text c) (steps : Nat) (rest : Text) :
    characters? (steps + 1) (text ++ rest) =
      (characters? steps rest).map fun found => (c :: found.1, found.2) := by
  cases spells with
  | itself noQuote noBackslash noControl =>
      have accepted : ¬(c = '\\' ∨ c.toNat < 0x20) := by
        rw [not_or]
        exact ⟨noBackslash, Nat.not_lt.mpr noControl⟩
      rw [List.singleton_append, characters?, if_neg accepted]
      · cases characters? steps rest <;> rfl
      · exact noQuote
      · exact fun _ same _ => noBackslash same
      · exact fun _ _ same _ => noBackslash same
  | letter known =>
      obtain ⟨escaped, notUnit⟩ := escaped?_of_mem known
      rw [List.cons_append, List.singleton_append, characters?, escaped]
      · cases characters? steps rest <;> rfl
      · exact notUnit
  | unit spells =>
      rw [List.cons_append, List.cons_append, characters?,
        numbered?_of_unit spells]
      simp only [Option.bind_eq_bind, Option.bind_some]
      cases characters? steps rest <;> rfl
  | pair spellsHigh upperFits spellsLow lowerFits code =>
      rw [List.cons_append, List.cons_append, List.cons_append,
        List.cons_append, characters?,
        numbered?_of_pair spellsHigh upperFits spellsLow lowerFits code]
      simp only [Option.bind_eq_bind, Option.bind_some]
      cases characters? steps rest <;> rfl

theorem SpellsCharacter.length_pos {text : Text} {c : Char}
    (spells : SpellsCharacter text c) : 0 < text.length := by
  cases spells <;> simp

theorem SpellsCharacters.characters?_append {text value : Text}
    (spells : SpellsCharacters text value) {steps : Nat}
    (enough : text.length < steps) (rest : Text) :
    characters? steps (text ++ '"' :: rest) = some (value, rest) := by
  induction spells generalizing steps with
  | nil =>
      obtain ⟨steps, rfl⟩ := Nat.exists_eq_succ_of_ne_zero (Nat.ne_of_gt enough)
      rfl
  | @cons text others c value first later induction =>
      have positive := first.length_pos
      rw [List.length_append] at enough
      obtain ⟨steps, rfl⟩ := Nat.exists_eq_succ_of_ne_zero
        (Nat.ne_of_gt (Nat.zero_lt_of_lt enough))
      rw [List.append_assoc, first.characters?_append,
        induction (by omega)]
      rfl

/-! ## Numbers -/

theorem AreDigits.digits?_append {digits rest : Text}
    (areDigits : AreDigits digits) (stops : ∀ c ∈ rest.head?, c.isDigit = false) :
    digits? (digits ++ rest) = some (digits, rest) := by
  have ends : rest.takeWhile Char.isDigit = [] ∧
      rest.dropWhile Char.isDigit = rest := by
    cases rest with
    | nil => exact ⟨rfl, rfl⟩
    | cons c rest => simp [stops c rfl]
  rw [digits?, List.takeWhile_append_of_pos areDigits.2,
    List.dropWhile_append_of_pos areDigits.2, ends.1, ends.2]
  simp [areDigits.1]

theorem IsPoint.fraction_append {point rest : Text} (isPoint : IsPoint point)
    (stops : ∀ c ∈ rest.head?, c.isDigit = false ∧ c ≠ '.') :
    fraction (point ++ rest) = (point, rest) := by
  cases isPoint with
  | none =>
      cases rest with
      | nil => rfl
      | cons c rest =>
          rw [List.nil_append, fraction]
          rintro later ⟨⟩
          exact (stops '.' rfl).2 rfl
  | some areDigits =>
      have found := areDigits.digits?_append fun c member =>
        (stops c member).1
      rw [List.cons_append, fraction, found]

theorem IsPower.exponent_append {power rest : Text} (isPower : IsPower power)
    (stops : Stops rest) : exponent (power ++ rest) = (power, rest) := by
  cases isPower with
  | none =>
      cases rest with
      | nil => rfl
      | cons c rest =>
          have stopsHere := stops c rfl
          rw [List.nil_append, exponent]
          · rintro later ⟨⟩
            exact stopsHere.2.2.1 rfl
          · rintro later ⟨⟩
            exact stopsHere.2.2.2 rfl
  | @some mark sign digits isMark isSign areDigits =>
      have found := areDigits.digits?_append fun c member =>
        (stops c member).1
      obtain ⟨first, others, rfl⟩ := List.exists_cons_of_ne_nil areDigits.1
      have isDigit := areDigits.2 first (.head _)
      have noSign : first ≠ '-' ∧ first ≠ '+' := by
        constructor <;> (rintro rfl; exact absurd isDigit (by decide))
      simp only [List.mem_cons, List.not_mem_nil, or_false] at isMark isSign
      rcases isMark with rfl | rfl <;> rcases isSign with rfl | rfl | rfl <;>
        simp_all [exponent]

/-- Behind the point of a number, its digits end. -/
theorem IsPower.stops_append {power rest : Text} (isPower : IsPower power)
    (stops : Stops rest) :
    ∀ c ∈ (power ++ rest).head?, c.isDigit = false ∧ c ≠ '.' := by
  cases isPower with
  | none => exact fun c member => ⟨(stops c member).1, (stops c member).2.1⟩
  | some isMark isSign areDigits =>
      rintro c ⟨⟩
      simp only [List.mem_cons, List.not_mem_nil, or_false] at isMark
      rcases isMark with rfl | rfl <;> decide

theorem IsPoint.stops_append {point rest : Text} (isPoint : IsPoint point)
    (stops : ∀ c ∈ rest.head?, c.isDigit = false ∧ c ≠ '.') :
    ∀ c ∈ (point ++ rest).head?, c.isDigit = false := by
  cases isPoint with
  | none => exact fun c member => (stops c member).1
  | some areDigits =>
      rintro c ⟨⟩
      rfl

theorem AreDigits.unsigned?_append {whole point power rest : Text}
    (areDigits : AreDigits whole) (isPoint : IsPoint point)
    (isPower : IsPower power) (stops : Stops rest) (negative : Bool) :
    unsigned? negative (whole ++ (point ++ (power ++ rest))) =
      if point.isEmpty && power.isEmpty then
        let value : Int := Text.digitsValue whole
        some (integer (if negative then -value else value), rest)
      else
        let literal := whole ++ (point ++ power)
        some (decimal (if negative then '-' :: literal else literal), rest) := by
  have behindPoint := isPower.stops_append stops
  rw [unsigned?, areDigits.digits?_append (isPoint.stops_append behindPoint)]
  simp only [Option.bind_eq_bind, Option.bind_some,
    isPoint.fraction_append behindPoint, isPower.exponent_append stops,
    List.append_assoc]
  split <;> rfl

/-! ## Values -/

theorem value?_digit {c : Char} (isDigit : c.isDigit = true) (steps : Nat)
    (rest : Text) :
    value? (steps + 1) (c :: rest) = unsigned? false (c :: rest) := by
  have skipped : skipBlanks (c :: rest) = c :: rest := by
    apply List.dropWhile_cons_of_neg
    simp only [Bool.or_eq_true, decide_eq_true_eq, not_or]
    refine ⟨⟨⟨?_, ?_⟩, ?_⟩, ?_⟩ <;>
      (rintro rfl; exact absurd isDigit (by decide))
  rw [value?, skipped]
  split <;> first
    | rfl
    | rename_i same
      cases same
      exact absurd isDigit (by decide)

theorem AreDigits.value?_append {digits : Text} (areDigits : AreDigits digits)
    (steps : Nat) (rest : Text) :
    value? (steps + 1) (digits ++ rest) = unsigned? false (digits ++ rest) := by
  obtain ⟨first, others, rfl⟩ := List.exists_cons_of_ne_nil areDigits.1
  exact value?_digit (areDigits.2 first (.head _)) steps _

theorem SpellsNumber.value?_append {text rest : Text} {value : Json}
    (spells : SpellsNumber text value) (stops : Stops rest) (steps : Nat) :
    value? (steps + 1) (text ++ rest) = some (value, rest) := by
  cases spells with
  | natural isWhole =>
      rw [isWhole.1.value?_append]
      exact isWhole.1.unsigned?_append .none .none stops Bool.false
  | negative isWhole =>
      exact isWhole.1.unsigned?_append .none .none stops Bool.true
  | @decimal sign whole point power isSign isWhole isPoint isPower isDecimal =>
      have notWhole : ¬(point.isEmpty && power.isEmpty) = Bool.true := by
        simpa [List.isEmpty_iff] using isDecimal
      have read := isWhole.1.unsigned?_append isPoint isPower stops
      simp only [if_neg notWhole] at read
      simp only [List.mem_cons, List.not_mem_nil, or_false] at isSign
      simp only [List.append_assoc]
      rcases isSign with rfl | rfl
      · rw [List.nil_append, isWhole.1.value?_append, read]
        rfl
      · exact read Bool.true

/-- Neither a blank nor a closing bracket begins a value. -/
theorem Spells.begins {text : Text} {value : Json} (spells : Spells text value) :
    ∃ c later, text = c :: later ∧ c ∉ [' ', '\t', '\n', '\r', ']'] := by
  have digits {digits : Text} (isWhole : IsWhole digits) :
      ∃ c later, digits = c :: later ∧ c ∉ [' ', '\t', '\n', '\r', ']'] := by
    obtain ⟨first, others, rfl⟩ := List.exists_cons_of_ne_nil isWhole.1.1
    refine ⟨first, others, rfl, fun member => ?_⟩
    have isDigit := isWhole.1.2 first (.head _)
    simp only [List.mem_cons, List.not_mem_nil, or_false] at member
    rcases member with rfl | rfl | rfl | rfl | rfl <;>
      exact absurd isDigit (by decide)
  cases spells with
  | number spells =>
      cases spells with
      | natural isWhole => exact digits isWhole
      | negative isWhole => exact ⟨_, _, rfl, by decide⟩
      | decimal isSign isWhole isPoint isPower isDecimal =>
          simp only [List.mem_cons, List.not_mem_nil, or_false] at isSign
          rcases isSign with rfl | rfl
          · obtain ⟨first, others, rfl, outside⟩ := digits isWhole
            exact ⟨first, _, rfl, outside⟩
          · exact ⟨_, _, rfl, by decide⟩
  | string spells =>
      cases spells
      exact ⟨_, _, rfl, by decide⟩
  | _ => exact ⟨_, _, rfl, by decide⟩

theorem Padded.begins {text padded : Text} {value : Json}
    (around : Padded text padded) (spells : Spells text value) (rest : Text) :
    ∃ c later, skipBlanks (padded ++ rest) = c :: later ∧ c ≠ ']' := by
  cases around with
  | @around front back blankFront blankBack =>
      obtain ⟨c, later, rfl, outside⟩ := spells.begins
      simp only [List.mem_cons, List.not_mem_nil, or_false, not_or] at outside
      refine ⟨c, later ++ back ++ rest, ?_, outside.2.2.2.2⟩
      rw [List.append_assoc, blankFront.skipBlanks_append]
      apply List.dropWhile_cons_of_neg
      simp [outside]

theorem SpellsItems.begins {text : Text} {items : List Json}
    (spells : SpellsItems text items) (rest : Text) :
    ∃ c later, skipBlanks (text ++ rest) = c :: later ∧ c ≠ ']' := by
  cases spells with
  | last spells around => exact around.begins spells rest
  | more spells around later =>
      rw [List.append_assoc]
      exact around.begins spells _

theorem SpellsMembers.begins {text : Text} {members : List (String × Json)}
    (spells : SpellsMembers text members) (rest : Text) :
    ∃ later, skipBlanks (text ++ rest) = '"' :: later := by
  have member {text : Text} {member : String × Json}
      (spells : SpellsMember text member) (rest : Text) :
      ∃ later, skipBlanks (text ++ rest) = '"' :: later := by
    obtain ⟨⟨_⟩, ⟨blankFront, _⟩, _, _⟩ := spells
    rw [List.append_assoc, List.append_assoc, blankFront.skipBlanks_append]
    exact ⟨_, rfl⟩
  cases spells with
  | last spells => exact member spells rest
  | more spells later =>
      rw [List.append_assoc]
      exact member spells _

theorem value?_quote (steps : Nat) (rest : Text) :
    value? (steps + 1) ('"' :: rest) =
      (characters? steps rest).map fun found =>
        (string (String.ofList found.1), found.2) := by
  have skipped : skipBlanks ('"' :: rest) = '"' :: rest := rfl
  simp only [value?, skipped]
  cases characters? steps rest <;> rfl

theorem value?_emptyArray {rest left : Text}
    (closed : skipBlanks rest = ']' :: left) (steps : Nat) :
    value? (steps + 1) ('[' :: rest) = some (array [], left) := by
  have skipped : skipBlanks ('[' :: rest) = '[' :: rest := rfl
  simp only [value?, skipped, closed]

theorem value?_array {rest later : Text} {c : Char}
    (begins : skipBlanks rest = c :: later) (notClosing : c ≠ ']')
    (steps : Nat) :
    value? (steps + 1) ('[' :: rest) =
      (items? steps rest).map fun found => (array found.1, found.2) := by
  have skipped : skipBlanks ('[' :: rest) = '[' :: rest := rfl
  simp only [value?, skipped, begins]
  split
  next same => exact absurd (List.cons.inj same).1 notClosing
  next => cases items? steps rest <;> rfl

theorem value?_emptyObject {rest left : Text}
    (closed : skipBlanks rest = '\x7d' :: left) (steps : Nat) :
    value? (steps + 1) ('\x7b' :: rest) = some (object [], left) := by
  have skipped : skipBlanks ('\x7b' :: rest) = '\x7b' :: rest := rfl
  simp only [value?, skipped, closed]

theorem value?_object {rest later : Text}
    (begins : skipBlanks rest = '"' :: later) (steps : Nat) :
    value? (steps + 1) ('\x7b' :: rest) =
      (members? steps rest).map fun found => (object found.1, found.2) := by
  have skipped : skipBlanks ('\x7b' :: rest) = '\x7b' :: rest := rfl
  simp only [value?, skipped, begins]
  cases members? steps rest <;> rfl

theorem Padded.value?_append {text padded rest : Text} {value : Json}
    (around : Padded text padded) (steps : Nat)
    (read : ∀ rest, Stops rest → value? steps (text ++ rest) = some (value, rest))
    (stops : Stops rest) :
    ∃ left, value? steps (padded ++ rest) = some (value, left) ∧
      skipBlanks left = skipBlanks rest := by
  obtain ⟨blankFront, blankBack⟩ := around
  refine ⟨_, ?_, blankBack.skipBlanks_append rest⟩
  rw [List.append_assoc, blankFront.value?_append, List.append_assoc]
  exact read _ (blankBack.stops_append stops)

theorem Padded.length_le {text padded : Text} (around : Padded text padded) :
    text.length ≤ padded.length := by
  cases around
  simp
  omega

theorem items?_last {item : Json} {text left rest : Text} {steps : Nat}
    (read : value? steps text = some (item, left))
    (skipped : skipBlanks left = ']' :: rest) :
    items? (steps + 1) text = some ([item], rest) := by
  rw [items?, read]
  simp [skipped]

theorem items?_more {item : Json} {text left rest : Text} {steps : Nat}
    (read : value? steps text = some (item, left))
    (skipped : skipBlanks left = ',' :: rest) :
    items? (steps + 1) text =
      (items? steps rest).map fun found => (item :: found.1, found.2) := by
  rw [items?, read]
  simp only [Option.bind_eq_bind, Option.bind_some, skipped]
  cases items? steps rest <;> rfl

/-- A member that is read, and what the text behind it adds. -/
def membersFrom? (steps : Nat) (member : String × Json) :
    Text → Option (List (String × Json) × Text)
  | ',' :: others =>
      (members? steps others).map fun found => (member :: found.1, found.2)
  | '\x7d' :: left => some ([member], left)
  | _ => none

theorem members?_member {key : String} {value : Json}
    {text afterQuote afterKey afterColon left : Text} {steps : Nat}
    (quoted : skipBlanks text = '"' :: afterQuote)
    (readKey : characters? steps afterQuote = some (key.toList, afterKey))
    (colon : skipBlanks afterKey = ':' :: afterColon)
    (read : value? steps afterColon = some (value, left)) :
    members? (steps + 1) text =
      membersFrom? steps (key, value) (skipBlanks left) := by
  rw [members?, quoted]
  simp only [readKey, colon, read, Option.bind_eq_bind, Option.bind_some,
    String.ofList_toList]
  split
  next others same =>
    rw [same, membersFrom?]
    cases members? steps others <;> rfl
  next final same =>
    rw [same]
    rfl
  next noComma noBrace =>
    rw [membersFrom?]
    · exact noComma
    · exact noBrace

theorem SpellsString.quoted_append {text padded : Text} {key : String}
    (spells : SpellsString text key) (around : Padded text padded)
    (steps : Nat) (enough : text.length ≤ steps) (rest : Text) :
    ∃ afterQuote afterKey,
      skipBlanks (padded ++ rest) = '"' :: afterQuote ∧
      characters? steps afterQuote = some (key.toList, afterKey) ∧
      skipBlanks afterKey = skipBlanks rest := by
  cases spells with
  | @quoted inner _ spells =>
      cases around with
      | @around front back blankFront blankBack =>
          simp only [List.length_cons, List.length_append] at enough
          refine ⟨inner ++ '"' :: (back ++ rest), back ++ rest, ?_,
            spells.characters?_append (by omega) _,
            blankBack.skipBlanks_append rest⟩
          rw [List.append_assoc, blankFront.skipBlanks_append]
          simp [skipBlanks]

mutual

-- A list of items spends one step more than its first item does, and a bracket
-- one more than the list.  Both brackets of an array together make up for this,
-- hence the factor two.
theorem Spells.value?_append {text rest : Text} {value : Json} {steps : Nat}
    (spells : Spells text value) (enough : 2 * text.length ≤ steps)
    (stops : Stops rest) : value? steps (text ++ rest) = some (value, rest) := by
  cases steps with
  | zero =>
      obtain ⟨c, later, rfl, -⟩ := spells.begins
      simp at enough
  | succ steps =>
      cases spells with
      | null => rfl
      | true => rfl
      | false => rfl
      | number spells => exact spells.value?_append stops steps
      | string spells =>
          cases spells with
          | quoted spells =>
              simp only [List.length_cons, List.length_append] at enough
              rw [List.cons_append, List.append_assoc, List.singleton_append,
                value?_quote, spells.characters?_append (by omega)]
              simp
      | emptyArray blank =>
          rw [List.cons_append, List.append_assoc, List.singleton_append]
          exact value?_emptyArray (blank.skipBlanks_append (']' :: rest)) steps
      | array spells =>
          simp only [List.length_cons, List.length_append] at enough
          obtain ⟨c, later, begins, notClosing⟩ := spells.begins (']' :: rest)
          rw [List.cons_append, List.append_assoc, List.singleton_append,
            value?_array begins notClosing, spells.items?_append (by omega)]
          rfl
      | emptyObject blank =>
          rw [List.cons_append, List.append_assoc, List.singleton_append]
          exact value?_emptyObject (blank.skipBlanks_append ('\x7d' :: rest)) steps
      | object spells =>
          simp only [List.length_cons, List.length_append] at enough
          obtain ⟨later, begins⟩ := spells.begins ('\x7d' :: rest)
          rw [List.cons_append, List.append_assoc, List.singleton_append,
            value?_object begins, spells.members?_append (by omega)]
          rfl

theorem SpellsItems.items?_append {text rest : Text} {items : List Json}
    {steps : Nat} (spells : SpellsItems text items)
    (enough : 2 * text.length < steps) :
    items? steps (text ++ ']' :: rest) = some (items, rest) := by
  obtain ⟨steps, rfl⟩ := Nat.exists_eq_succ_of_ne_zero (Nat.ne_zero_of_lt enough)
  cases spells with
  | last spells around =>
      have shorter := around.length_le
      obtain ⟨left, read, skipped⟩ := around.value?_append steps
        (fun _ => spells.value?_append (by omega))
        (stops_cons (by decide) rest : Stops (']' :: rest))
      exact items?_last read skipped
  | more spells around later =>
      have shorter := around.length_le
      simp only [List.length_append, List.length_cons] at enough
      obtain ⟨left, read, skipped⟩ := around.value?_append steps
        (fun _ => spells.value?_append (by omega))
        (stops_cons (by decide) _ : Stops (',' :: (_ ++ ']' :: rest)))
      rw [List.append_assoc, List.cons_append,
        items?_more read skipped, later.items?_append (by omega)]
      rfl

theorem SpellsMember.members?_append {text rest : Text}
    {member : String × Json} {steps : Nat} (spells : SpellsMember text member)
    (enough : 2 * text.length ≤ steps) (stops : Stops rest) :
    members? (steps + 1) (text ++ rest) =
      membersFrom? steps member (skipBlanks rest) := by
  cases spells with
  | @pair _ padded _ paddedBehind key value spellsKey around spells aroundBehind =>
      have shorter := around.length_le
      have shorterBehind := aroundBehind.length_le
      simp only [List.length_append, List.length_cons] at enough
      obtain ⟨afterQuote, afterKey, quoted, readKey, colon⟩ :=
        spellsKey.quoted_append around steps (by omega)
          (':' :: (paddedBehind ++ rest))
      obtain ⟨left, read, skipped⟩ := aroundBehind.value?_append steps
        (fun _ => spells.value?_append (by omega)) stops
      rw [← skipped, List.append_assoc]
      exact members?_member quoted readKey colon read

theorem SpellsMembers.members?_append {text rest : Text}
    {members : List (String × Json)} {steps : Nat}
    (spells : SpellsMembers text members) (enough : 2 * text.length < steps) :
    members? steps (text ++ '\x7d' :: rest) = some (members, rest) := by
  obtain ⟨steps, rfl⟩ := Nat.exists_eq_succ_of_ne_zero (Nat.ne_zero_of_lt enough)
  cases spells with
  | last spells =>
      rw [spells.members?_append (by omega) (stops_cons (by decide) rest)]
      rfl
  | more spells later =>
      simp only [List.length_append, List.length_cons] at enough
      rw [List.append_assoc, List.cons_append,
        spells.members?_append (by omega) (stops_cons (by decide) _)]
      change (members? steps _).map _ = _
      rw [later.members?_append (by omega)]
      rfl

end

/-- A whole text is read as the value that it spells. -/
theorem IsText.read?_eq {text : Text} {value : Json}
    (isText : IsText text value) : read? text = some value := by
  obtain ⟨inner, spells, around⟩ := isText
  have shorter := around.length_le
  obtain ⟨left, read, skipped⟩ := around.value?_append
    (2 * text.length + 2) (fun _ => spells.value?_append (by omega)) stops_nil
  rw [List.append_nil] at read
  rw [read?, read]
  simp only [Option.bind_eq_bind, Option.bind_some, skipped]
  rfl

/-- A text spells one value only. -/
theorem IsText.unique {text : Text} {value other : Json}
    (isText : IsText text value) (isTextToo : IsText text other) :
    value = other := by
  have read := isText.read?_eq
  rw [isTextToo.read?_eq] at read
  exact (Option.some.inj read).symm

end TemplateLint.Json
