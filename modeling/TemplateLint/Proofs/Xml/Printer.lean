import TemplateLint.Proofs.Xml.Documents

/-!
# What is printed is a document

A printed element spells this element with the white space that indents it.
Names have to be names; texts and values may have any characters that a
document may have, and no others.
-/

namespace TemplateLint.Xml

/-! ## What elements have to be -/

/-- The names of attributes are names, and no two of them are the same. -/
def AreNamed (attributes : List (Text × Text)) : Prop :=
  (∀ pair ∈ attributes, IsName pair.1) ∧ (attributes.map (·.1)).Nodup

def AreLegalValues (attributes : List (Text × Text)) : Prop :=
  ∀ pair ∈ attributes, AreLegal pair.2

@[simp] theorem areLegalValues_nil : AreLegalValues [] := List.forall_mem_nil _

@[simp] theorem areLegalValues_cons {pair : Text × Text}
    {others : List (Text × Text)} :
    AreLegalValues (pair :: others) ↔ AreLegal pair.2 ∧ AreLegalValues others :=
  List.forall_mem_cons

mutual

/-- All names are names. -/
def IsNamed : Xml → Prop
  | leaf name attributes _ => IsName name ∧ AreNamed attributes
  | node name attributes children =>
      IsName name ∧ AreNamed attributes ∧ AreNamedAll children

def AreNamedAll : List Xml → Prop
  | [] => True
  | child :: later => child.IsNamed ∧ AreNamedAll later

end

mutual

/-- All texts and values consist of characters that a document may have. -/
def HasLegalTexts : Xml → Prop
  | leaf _ attributes content => AreLegalValues attributes ∧ AreLegal content
  | node _ attributes children =>
      AreLegalValues attributes ∧ HaveLegalTexts children

def HaveLegalTexts : List Xml → Prop
  | [] => True
  | child :: later => child.HasLegalTexts ∧ HaveLegalTexts later

end

/-! ## What is read -/

mutual

/-- An element with the white space between its children. -/
def item (depth : Nat) : Xml → Item
  | leaf name attributes content =>
      .element name attributes (content.map .character)
  | node name attributes [] => .element name attributes []
  | node name attributes children =>
      .element name attributes
        (items (depth + 1) children ++ (newLine depth).map .character)

def items (depth : Nat) : List Xml → List Item
  | [] => []
  | child :: later =>
      (newLine depth).map .character ++ item depth child :: items depth later

end

/-! ## Escapes -/

/-- The characters that are escaped in texts. -/
def specialInText : List Char := ['&', '<', '>']

/-- The characters that are escaped in values. -/
def specialInAttribute : List Char := '"' :: '\n' :: '\r' :: '\t' :: specialInText

theorem escapeInText_eq_self {c : Char} (plain : c ∉ specialInText) :
    escapeInText c = [c] := by
  simp only [specialInText, List.mem_cons, List.not_mem_nil, or_false, not_or] at plain
  rw [escapeInText, if_neg plain.1, if_neg plain.2.1, if_neg plain.2.2]

theorem escapeInAttribute_eq_self {c : Char}
    (plain : c ∉ specialInAttribute) : escapeInAttribute c = [c] := by
  simp only [specialInAttribute, List.mem_cons, not_or] at plain
  obtain ⟨noQuote, noNewline, noReturn, noTab, others⟩ := plain
  rw [escapeInAttribute, if_neg noQuote, if_neg noNewline, if_neg noReturn,
    if_neg noTab, escapeInText_eq_self others]

/-- What stands in no escape stands for itself. -/
theorem eq_of_mem_escapeInText {written c : Char}
    (apart : ∀ c ∈ specialInText, written ∉ escapeInText c)
    (member : written ∈ escapeInText c) : written = c ∧ c ∉ specialInText := by
  by_cases special : c ∈ specialInText
  · exact absurd member (apart c special)
  · rw [escapeInText_eq_self special, List.mem_singleton] at member
    exact ⟨member, special⟩

theorem refers_escapeInText {c : Char} (special : c ∈ specialInText) :
    ∃ body, Refers body c ∧ escapeInText c = '&' :: (body ++ [';']) := by
  simp only [specialInText, List.mem_cons, List.not_mem_nil, or_false] at special
  rcases special with rfl | rfl | rfl
  · exact ⟨['a', 'm', 'p'], .entity (by decide), rfl⟩
  · exact ⟨['l', 't'], .entity (by decide), rfl⟩
  · exact ⟨['g', 't'], .entity (by decide), rfl⟩

theorem refers_escapeInAttribute {c : Char}
    (special : c ∈ specialInAttribute) :
    ∃ body, Refers body c ∧ escapeInAttribute c = '&' :: (body ++ [';']) := by
  by_cases inText : c ∈ specialInText
  · have same : escapeInAttribute c = escapeInText c := by
      have table : ∀ c ∈ specialInText, escapeInAttribute c = escapeInText c :=
        forall_mem_of_all (by decide)
      exact table c inText
    rw [same]
    exact refers_escapeInText inText
  · simp only [specialInAttribute, List.mem_cons, inText, or_false] at special
    rcases special with rfl | rfl | rfl | rfl
    · exact ⟨['q', 'u', 'o', 't'], .entity (by decide), rfl⟩
    · exact ⟨['#', '1', '0'], .decimal (by decide) (by decide), rfl⟩
    · exact ⟨['#', '1', '3'], .decimal (by decide) (by decide), rfl⟩
    · exact ⟨['#', '0', '9'], .decimal (by decide) (by decide), rfl⟩

/-! ## Values -/

theorem SpellsValue.escape {c : Char} {text value : Text} (legal : IsLegal c)
    (later : SpellsValue '"' text value) :
    SpellsValue '"' (escapeInAttribute c ++ text) (c :: value) := by
  by_cases special : c ∈ specialInAttribute
  · obtain ⟨body, refers, written⟩ := refers_escapeInAttribute special
    have spells := SpellsValue.reference refers later
    rw [written]
    simpa using spells
  · rw [escapeInAttribute_eq_self special]
    simp only [specialInAttribute, specialInText, List.mem_cons,
      List.not_mem_nil, or_false, not_or] at special
    obtain ⟨noQuote, noNewline, noReturn, noTab, noReference, noTag, -⟩ := special
    have kept : inValue c = c := by
      rw [inValue, blanks]
      split
      next isBlank => simp_all
      next => rfl
    have spells := SpellsValue.character legal noQuote noTag noReference later
    rwa [kept] at spells

theorem spellsValue_escape {value : Text} (legal : AreLegal value) :
    SpellsValue '"' (value.flatMap escapeInAttribute) value := by
  induction value with
  | nil => exact .nil
  | cons c value induction =>
      rw [areLegal_cons] at legal
      exact .escape legal.1 (induction legal.2)

theorem spellsAttributes_assignments {attributes : List (Text × Text)}
    (named : ∀ pair ∈ attributes, IsName pair.1)
    (legal : AreLegalValues attributes) :
    SpellsAttributes (attributes.flatMap assignment) attributes := by
  induction attributes with
  | nil => exact .nil
  | cons pair attributes induction =>
      obtain ⟨name, value⟩ := pair
      rw [List.forall_mem_cons] at named
      rw [areLegalValues_cons] at legal
      have space : IsBlank [' '] := by simp [IsBlank, blanks]
      have none : IsBlank [] := List.forall_mem_nil _
      have spells := SpellsAttributes.cons space (List.cons_ne_nil _ _) named.1
        none none (.head _) (spellsValue_escape legal.1)
        (induction named.2 legal.2)
      simpa [assignment] using spells

/-! ## Content -/

theorem SpellsContent.blank {space text : Text} {items : List Item}
    (blank : IsBlank space) (later : SpellsContent text items) :
    SpellsContent (space ++ text) (space.map .character ++ items) := by
  induction space with
  | nil => exact later
  | cons c space induction =>
      have behind := induction fun c member => blank c (.tail _ member)
      have plain : IsLegal c ∧ c ≠ '<' ∧ c ≠ '&' ∧ c ≠ ']' := by
        have table : ∀ c ∈ blanks, IsLegal c ∧ c ≠ '<' ∧ c ≠ '&' ∧ c ≠ ']' :=
          forall_mem_of_all (by decide)
        exact table c (blank c (.head _))
      apply SpellsContent.character plain.1 plain.2.1 plain.2.2.1 _ behind
      intro inFront
      exact plain.2.2.2 (List.cons_prefix_cons.mp inFront).1.symm

/-- No bracket that closes a tag is left in a text. -/
theorem not_mem_escape (text : Text) : '>' ∉ text.flatMap escapeInText := by
  rw [List.mem_flatMap]
  rintro ⟨c, -, member⟩
  obtain ⟨rfl, plain⟩ :=
    eq_of_mem_escapeInText (forall_mem_of_all (by decide)) member
  exact plain (by decide)

theorem spellsContent_escape {text : Text} (legal : AreLegal text) :
    SpellsContent (text.flatMap escapeInText) (text.map .character) := by
  induction text with
  | nil => exact .nil
  | cons c text induction =>
      rw [areLegal_cons] at legal
      have later := induction legal.2
      by_cases special : c ∈ specialInText
      · obtain ⟨body, refers, written⟩ := refers_escapeInText special
        have spells := SpellsContent.reference refers later
        rw [List.flatMap_cons, written]
        simpa using spells
      · have noSection : ¬[']', ']', '>'] <+: (c :: text).flatMap escapeInText := by
          intro inFront
          exact not_mem_escape _ (inFront.subset (by decide))
        rw [List.flatMap_cons, escapeInText_eq_self special] at noSection ⊢
        simp only [specialInText, List.mem_cons, not_or] at special
        exact .character legal.1 special.2.1 special.1 noSection later

/-! ## Elements -/

theorem isBlank_nil : IsBlank [] := List.forall_mem_nil _

theorem isBlank_newLine (depth : Nat) : IsBlank (newLine depth) := by
  intro c member
  rcases List.mem_cons.mp member with rfl | inSpaces
  · decide
  · rw [List.eq_of_mem_replicate inSpaces]
    decide

/-- An element closed in its own tag. -/
theorem spells_closed {name : Text} {attributes : List (Text × Text)}
    (isName : IsName name) (named : AreNamed attributes)
    (legal : AreLegalValues attributes) :
    SpellsElement (opening name attributes ++ " />")
      (.element name attributes []) := by
  have space : IsBlank [' '] := by simp [IsBlank, blanks]
  have spells := SpellsElement.empty isName
    (spellsAttributes_assignments named.1 legal) named.2 space
  simpa [opening] using spells

theorem spells_opened {name inner : Text} {attributes : List (Text × Text)}
    {content : List Item} (isName : IsName name) (named : AreNamed attributes)
    (legal : AreLegalValues attributes) (spells : SpellsContent inner content) :
    SpellsElement (opening name attributes ++ ['>'] ++ inner ++ closing name)
      (.element name attributes content) := by
  have spells := SpellsElement.filled isName
    (spellsAttributes_assignments named.1 legal) named.2 isBlank_nil spells
    isBlank_nil
  simpa [opening, closing] using spells

mutual

theorem spells_print (depth : Nat) :
    (xml : Xml) → xml.IsNamed → xml.HasLegalTexts →
      SpellsElement (print depth xml) (item depth xml)
  | leaf name attributes [], named, legal =>
      spells_closed named.1 named.2 legal.1
  | leaf name attributes (c :: content), named, legal =>
      spells_opened named.1 named.2 legal.1 (spellsContent_escape legal.2)
  | node name attributes [], named, legal =>
      spells_closed named.1 named.2.1 legal.1
  | node name attributes (child :: later), named, legal => by
      have behind := SpellsContent.blank (isBlank_newLine depth) .nil
      have content := spells_printChildren (depth + 1) (child :: later)
        named.2.2 legal.2 behind
      have spells := spells_opened named.1 named.2.1 legal.1 content
      simpa [print, item] using spells

theorem spells_printChildren (depth : Nat) :
    (children : List Xml) → AreNamedAll children → HaveLegalTexts children →
      {text : Text} → {behind : List Item} → SpellsContent text behind →
      SpellsContent (printChildren depth children ++ text)
        (items depth children ++ behind)
  | [], _, _, _, _, spells => spells
  | child :: later, named, legal, _, _, spells => by
      have first := spells_print depth child named.1 legal.1
      have others := spells_printChildren depth later named.2 legal.2 spells
      have content := SpellsContent.blank (isBlank_newLine depth)
        (.element first others)
      simpa [printChildren, items] using content

end

/-! ## Legal characters -/

theorem areLegal_escapeInText {c : Char} :
    AreLegal (escapeInText c) ↔ IsLegal c := by
  by_cases special : c ∈ specialInText
  · have table : ∀ c ∈ specialInText, AreLegal (escapeInText c) ∧ IsLegal c :=
      forall_mem_of_all (by decide)
    exact iff_of_true (table c special).1 (table c special).2
  · rw [escapeInText_eq_self special, areLegal_cons]
    exact and_iff_left areLegal_nil

theorem areLegal_escapeInAttribute {c : Char} :
    AreLegal (escapeInAttribute c) ↔ IsLegal c := by
  by_cases special : c ∈ specialInAttribute
  · have table : ∀ c ∈ specialInAttribute,
        AreLegal (escapeInAttribute c) ∧ IsLegal c :=
      forall_mem_of_all (by decide)
    exact iff_of_true (table c special).1 (table c special).2
  · rw [escapeInAttribute_eq_self special, areLegal_cons]
    exact and_iff_left areLegal_nil

theorem areLegal_flatMap {Part : Type} {write : Part → Text} {parts : List Part} :
    AreLegal (parts.flatMap write) ↔ ∀ part ∈ parts, AreLegal (write part) := by
  induction parts with
  | nil => simp
  | cons part parts induction =>
      rw [List.flatMap_cons, areLegal_append, List.forall_mem_cons, induction]

theorem areLegal_assignment {pair : Text × Text} (isName : IsName pair.1) :
    AreLegal (assignment pair) ↔ AreLegal pair.2 := by
  simp only [assignment, areLegal_append, areLegal_cons, areLegal_nil,
    areLegal_flatMap, areLegal_escapeInAttribute]
  constructor
  · intro legal
    exact legal.1.2
  · intro legal
    exact ⟨⟨⟨⟨by decide, isName.areLegal⟩, by decide⟩, legal⟩, by decide⟩

theorem areLegal_opening {name : Text} {attributes : List (Text × Text)}
    (isName : IsName name) (named : AreNamed attributes) :
    AreLegal (opening name attributes) ↔ AreLegalValues attributes := by
  simp only [opening, areLegal_append, areLegal_cons, areLegal_flatMap]
  constructor
  · intro legal pair member
    exact (areLegal_assignment (named.1 pair member)).mp (legal.2 pair member)
  · intro legal
    refine ⟨⟨by decide, isName.areLegal⟩, fun pair member => ?_⟩
    exact (areLegal_assignment (named.1 pair member)).mpr (legal pair member)

theorem areLegal_closed {name : Text} {attributes : List (Text × Text)}
    (isName : IsName name) (named : AreNamed attributes) :
    AreLegal (opening name attributes ++ " />") ↔ AreLegalValues attributes := by
  have bracket : AreLegal " />" := by decide
  rw [areLegal_append, areLegal_opening isName named, and_iff_left bracket]

theorem areLegal_opened {name inner : Text} {attributes : List (Text × Text)}
    (isName : IsName name) (named : AreNamed attributes) :
    AreLegal (opening name attributes ++ ['>'] ++ inner ++ closing name) ↔
      AreLegalValues attributes ∧ AreLegal inner := by
  have bracket : AreLegal ['>'] := by decide
  have closes : AreLegal (closing name) := by
    simp only [closing, areLegal_append]
    exact ⟨⟨by decide, isName.areLegal⟩, by decide⟩
  rw [areLegal_append, areLegal_append, areLegal_append,
    areLegal_opening isName named, and_iff_left bracket, and_iff_left closes]

mutual

theorem areLegal_print (depth : Nat) :
    (xml : Xml) → xml.IsNamed →
      (AreLegal (print depth xml) ↔ xml.HasLegalTexts)
  | leaf name attributes [], named => by
      rw [print, areLegal_closed named.1 named.2, HasLegalTexts,
        and_iff_left areLegal_nil]
  | leaf name attributes (c :: content), named => by
      rw [print, areLegal_opened named.1 named.2, HasLegalTexts,
        areLegal_flatMap]
      · simp only [areLegal_escapeInText]
        rfl
      · exact List.cons_ne_nil _ _
  | node name attributes [], named => by
      rw [print, areLegal_closed named.1 named.2.1, HasLegalTexts,
        HaveLegalTexts, and_true]
  | node name attributes (child :: later), named => by
      have children := areLegal_printChildren (depth + 1) (child :: later)
        named.2.2
      have line := (isBlank_newLine depth).areLegal
      rw [print, List.append_assoc (opening name attributes ++ ['>']),
        areLegal_opened named.1 named.2.1, HasLegalTexts, areLegal_append,
        children, and_iff_left line]
      exact List.cons_ne_nil _ _

theorem areLegal_printChildren (depth : Nat) :
    (children : List Xml) → AreNamedAll children →
      (AreLegal (printChildren depth children) ↔ HaveLegalTexts children)
  | [], _ => iff_of_true areLegal_nil trivial
  | child :: later, named => by
      have line := (isBlank_newLine depth).areLegal
      rw [printChildren, areLegal_append, areLegal_append,
        areLegal_print depth child named.1,
        areLegal_printChildren depth later named.2, and_iff_right line,
        HaveLegalTexts]

end

end TemplateLint.Xml
