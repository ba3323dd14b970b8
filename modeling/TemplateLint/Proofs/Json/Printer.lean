import TemplateLint.Json.Printer
import TemplateLint.Proofs.Json.Reader
import TemplateLint.Proofs.Text.Digits

/-!
# What is printed is JSON

A printed value spells this value in any layout that puts only blanks, commas
and colons between the parts, so that it is read back.  A number with a point
or an exponent has to be one already, as it is printed as it was written.
-/

namespace TemplateLint.Json

/-! ## Strings and numbers -/

theorem spellsUnit_hexadecimal {unit : Nat} (control : unit < 0x20) :
    SpellsUnit (Text.hexadecimal 4 unit) unit := by
  have table : ∀ unit < 0x20, ∃ high low,
      Text.hexadecimal 4 unit =
        ['0', '0', Nat.digitChar high, Nat.digitChar low] ∧
      Text.hexadecimalValue? (Nat.digitChar high) = some high ∧
      Text.hexadecimalValue? (Nat.digitChar low) = some low ∧
      high * 16 + low = unit := by
    intro unit control
    refine ⟨unit / 16, unit % 16, ?_⟩
    revert unit
    decide
  obtain ⟨high, low, digits, isHigh, isLow, rfl⟩ := table unit control
  rw [digits]
  have spells := SpellsUnit.digits (a := '0') (b := '0') rfl rfl isHigh isLow
  simpa using spells

theorem spellsCharacter_escapeChar (c : Char) :
    SpellsCharacter (escapeChar c) c := by
  rw [escapeChar]
  split
  next same =>
    subst same
    exact .letter (by decide)
  next noQuote =>
  split
  next same =>
    subst same
    exact .letter (by decide)
  next noBackslash =>
  split
  next same =>
    subst same
    exact .letter (by decide)
  next =>
  split
  next same =>
    subst same
    exact .letter (by decide)
  next =>
  split
  next same =>
    subst same
    exact .letter (by decide)
  next =>
  split
  next code =>
    obtain rfl : c = Char.ofNat 8 := by rw [← code, Char.ofNat_toNat]
    exact .letter (by decide)
  next =>
  split
  next code =>
    obtain rfl : c = Char.ofNat 12 := by rw [← code, Char.ofNat_toNat]
    exact .letter (by decide)
  next =>
  split
  next control => exact .unit (spellsUnit_hexadecimal control)
  next noControl =>
    exact .itself noQuote noBackslash (Nat.not_lt.mp noControl)

theorem spellsString_quote (value : String) :
    SpellsString (quote value.toList) value := by
  apply SpellsString.quoted
  induction value.toList with
  | nil => exact .nil
  | cons c others induction =>
      exact .cons (spellsCharacter_escapeChar c) induction

theorem isWhole_ofNat (number : Nat) : IsWhole (Text.ofNat number) :=
  ⟨⟨Text.ofNat_ne_nil number, fun _ => Text.isDigit_of_mem_ofNat⟩,
    Text.ofNat_eq_of_head?_eq_zero⟩

theorem spellsNumber_ofInt (value : Int) :
    SpellsNumber (Text.ofInt value) (.integer value) := by
  rw [Text.ofInt]
  split
  next isNegative =>
    have spells := SpellsNumber.negative (isWhole_ofNat value.natAbs)
    rw [Text.digitsValue_ofNat] at spells
    rwa [show -(value.natAbs : Int) = value by omega] at spells
  next nonnegative =>
    have spells := SpellsNumber.natural (isWhole_ofNat value.natAbs)
    rw [Text.digitsValue_ofNat] at spells
    rwa [show (value.natAbs : Int) = value by omega] at spells

/-! ## Layouts -/

/-- Blanks with one mark among them. -/
def IsMark (mark : Char) (text : Text) : Prop :=
  ∃ front back, IsBlank front ∧ IsBlank back ∧ text = front ++ mark :: back

/-- A layout adds blanks only. -/
structure Layout.IsProper (layout : Layout) : Prop where
  afterOpen : ∀ depth, IsBlank (layout.afterOpen depth)
  betweenItems : ∀ depth, IsMark ',' (layout.betweenItems depth)
  beforeClose : ∀ depth, IsBlank (layout.beforeClose depth)
  afterKey : IsMark ':' layout.afterKey

theorem isBlank_nil : IsBlank [] := List.forall_mem_nil _

theorem isBlank_indentedLine (depth : Nat) : IsBlank (indentedLine depth) := by
  intro c member
  rcases List.mem_cons.mp member with rfl | inSpaces
  · decide
  · rw [List.eq_of_mem_replicate inSpaces]
    decide

theorem Layout.isProper_compact : Layout.compact.IsProper where
  afterOpen _ := isBlank_nil
  betweenItems _ := ⟨[], [], isBlank_nil, isBlank_nil, rfl⟩
  beforeClose _ := isBlank_nil
  afterKey := ⟨[], [], isBlank_nil, isBlank_nil, rfl⟩

theorem Layout.isProper_indented : Layout.indented.IsProper where
  afterOpen depth := isBlank_indentedLine (depth + 1)
  betweenItems depth :=
    ⟨[], _, isBlank_nil, isBlank_indentedLine (depth + 1), rfl⟩
  beforeClose depth := isBlank_indentedLine depth
  afterKey := ⟨[], [' '], isBlank_nil, by simp [IsBlank], rfl⟩

/-! ## Values -/

mutual

/-- Numbers that are kept as they were written are numbers of the grammar. -/
def IsWritable : Json → Prop
  | decimal literal => SpellsNumber literal (decimal literal)
  | array items => AreWritable items
  | object members => HaveWritable members
  | null | bool _ | integer _ | string _ => True

def AreWritable : List Json → Prop
  | [] => True
  | item :: others => item.IsWritable ∧ AreWritable others

def HaveWritable : List (String × Json) → Prop
  | [] => True
  | (_, value) :: others => value.IsWritable ∧ HaveWritable others

end

variable {layout : Layout}

mutual

theorem spells_print (proper : layout.IsProper) (depth : Nat) :
    (value : Json) → value.IsWritable →
      Spells (print layout depth value) value
  | .null, _ => .null
  | .bool true, _ => .true
  | .bool false, _ => .false
  | .integer value, _ => .number (spellsNumber_ofInt value)
  | .decimal literal, isWritable => .number isWritable
  | .string value, _ => .string (spellsString_quote value)
  | .array [], _ => .emptyArray isBlank_nil
  | .array (first :: others), isWritable => by
      have spells := spells_print proper (depth + 1) first isWritable.1
      have items := spells_printItems proper depth others isWritable.2
        (proper.afterOpen depth) spells
      simpa [print] using Spells.array items
  | .object [], _ => .emptyObject isBlank_nil
  | .object ((key, first) :: others), isWritable => by
      have spells := spells_print proper (depth + 1) first isWritable.1
      have members := spells_printMembers proper depth others isWritable.2
        (proper.afterOpen depth) key spells
      simpa [print] using Spells.object members

theorem spells_printItems (proper : layout.IsProper) (depth : Nat) :
    (others : List Json) → AreWritable others →
      {front text : Text} → {first : Json} → IsBlank front →
      Spells text first →
      SpellsItems (front ++ (text ++ (printItems layout depth others ++
        layout.beforeClose depth))) (first :: others)
  | [], _, _, _, _, blankFront, spells =>
      .last spells (.around blankFront (proper.beforeClose depth))
  | item :: others, areWritable, _, _, _, blankFront, spells => by
      -- What stands behind the comma belongs to the next item already.
      obtain ⟨back, frontBehind, blankBack, blankBehind, mark⟩ :=
        proper.betweenItems depth
      have spellsItem := spells_print proper (depth + 1) item areWritable.1
      have later := spells_printItems proper depth others areWritable.2
        blankBehind spellsItem
      simpa [printItems, mark] using
        SpellsItems.more spells (.around blankFront blankBack) later

theorem spells_printMembers (proper : layout.IsProper) (depth : Nat) :
    (others : List (String × Json)) → HaveWritable others →
      {front text : Text} → {first : Json} → IsBlank front → (key : String) →
      Spells text first →
      SpellsMembers (front ++ (quote key.toList ++ (layout.afterKey ++ (text ++
        (printMembers layout depth others ++ layout.beforeClose depth)))))
        ((key, first) :: others)
  | [], _, _, _, _, blankFront, key, spells => by
      obtain ⟨back, frontBehind, blankBack, blankBehind, mark⟩ := proper.afterKey
      have member := SpellsMember.pair (spellsString_quote key)
        (.around blankFront blankBack) spells
        (.around blankBehind (proper.beforeClose depth))
      simpa [printMembers, mark] using SpellsMembers.last member
  | (keyBehind, value) :: others, haveWritable, _, _, _, blankFront, key, spells => by
      obtain ⟨back, frontBehind, blankBack, blankBehind, mark⟩ := proper.afterKey
      obtain ⟨backValue, frontLater, blankBackValue, blankLater, comma⟩ :=
        proper.betweenItems depth
      have member := SpellsMember.pair (spellsString_quote key)
        (.around blankFront blankBack) spells
        (.around blankBehind blankBackValue)
      have spellsValue := spells_print proper (depth + 1) value haveWritable.1
      have later := spells_printMembers proper depth others haveWritable.2
        blankLater keyBehind spellsValue
      simpa [printMembers, mark, comma] using SpellsMembers.more member later

end

/-- What is printed is JSON, and nothing else than the value. -/
theorem isText_print {value : Json} (isWritable : value.IsWritable)
    (proper : layout.IsProper) : IsText (print layout 0 value) value := by
  refine ⟨_, spells_print proper 0 value isWritable, ?_⟩
  simpa using Padded.around isBlank_nil isBlank_nil

theorem read?_compact {value : Json} (isWritable : value.IsWritable) :
    read? value.compact = some value :=
  (isText_print isWritable Layout.isProper_compact).read?_eq

theorem read?_indented {value : Json} (isWritable : value.IsWritable) :
    read? value.indented = some value :=
  (isText_print isWritable Layout.isProper_indented).read?_eq

end TemplateLint.Json
