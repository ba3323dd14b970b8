import TemplateLint.Proofs.Xml.Printer

/-!
# Line ends of a document

Before a document is read its line ends are unified.  In values they are
escaped and stay as they are, and between elements there are newlines only, so
that this changes texts and nothing else.
-/

namespace TemplateLint

namespace Text

/-! ## Line ends of a text -/

theorem universalNewlines_append {front rest : Text} (single : '\r' ∉ front) :
    universalNewlines (front ++ rest) = front ++ universalNewlines rest := by
  induction front with
  | nil => rfl
  | cons c front induction =>
      rw [List.mem_cons, not_or] at single
      have plain : c ≠ '\r' := fun same => single.1 same.symm
      rw [List.cons_append, universalNewlines, induction single.2]
      · rfl
      · intro _ same _
        exact plain same
      · exact plain

theorem universalNewlines_return {rest : Text}
    (apart : FirstIs (· ≠ '\n') rest) :
    universalNewlines ('\r' :: rest) = '\n' :: universalNewlines rest := by
  cases rest with
  | nil => rfl
  | cons c rest =>
      rw [firstIs_cons] at apart
      rw [universalNewlines]
      rintro later ⟨⟩
      exact apart rfl

theorem universalNewlines_ne_nil {text : Text} (some_text : text ≠ []) :
    universalNewlines text ≠ [] := by
  fun_cases universalNewlines text with
  | case1 | case2 | case3 => exact List.cons_ne_nil _ _
  | case4 => exact absurd rfl some_text

end Text

namespace Xml

open Text (universalNewlines_append universalNewlines_return
  universalNewlines_ne_nil)

/-! ## Line ends of an element -/

mutual

/-- An element with unified line ends in its texts. -/
def unified : Xml → Xml
  | leaf name attributes content =>
      leaf name attributes content.universalNewlines
  | node name attributes children => node name attributes (unifiedAll children)

def unifiedAll : List Xml → List Xml
  | [] => []
  | child :: later => child.unified :: unifiedAll later

end

theorem not_mem_escapeInAttribute (c : Char) : '\r' ∉ escapeInAttribute c := by
  intro member
  by_cases special : c ∈ specialInAttribute
  · have table : ∀ c ∈ specialInAttribute,
        '\r' ∉ escapeInAttribute c := forall_mem_of_all (by decide)
    exact table c special member
  · rw [escapeInAttribute_eq_self special, List.mem_singleton] at member
    rw [← member] at special
    exact special (by decide)

theorem not_mem_escapeInText {c : Char} (plain : c ≠ '\r') :
    '\r' ∉ escapeInText c := by
  intro member
  exact plain
    (eq_of_mem_escapeInText (forall_mem_of_all (by decide)) member).1.symm

theorem firstIs_escapeInText {c : Char} (plain : c ≠ '\n') (rest : Text) :
    Text.FirstIs (· ≠ '\n') (escapeInText c ++ rest) := by
  by_cases special : c ∈ specialInText
  · obtain ⟨body, -, written⟩ := refers_escapeInText special
    rw [written, List.cons_append, Text.firstIs_cons]
    decide
  · rw [escapeInText_eq_self special, List.singleton_append, Text.firstIs_cons]
    exact plain

/-- A line end is not torn apart by what is escaped. -/
theorem universalNewlines_escape (text : Text) {rest : Text}
    (apart : Text.FirstIs (· ≠ '\n') rest) :
    Text.universalNewlines (text.flatMap escapeInText ++ rest) =
      text.universalNewlines.flatMap escapeInText ++ rest.universalNewlines := by
  fun_induction Text.universalNewlines text with
  | case1 later induction =>
      have kept : escapeInText '\r' = ['\r'] ∧ escapeInText '\n' = ['\n'] := by
        decide
      rw [List.flatMap_cons, List.flatMap_cons, List.flatMap_cons, kept.1, kept.2]
      simp only [List.cons_append, List.nil_append]
      rw [Text.universalNewlines, induction]
  | case2 later noNewline induction =>
      have kept : escapeInText '\r' = ['\r'] ∧ escapeInText '\n' = ['\n'] := by
        decide
      have apartLater :
          Text.FirstIs (· ≠ '\n') (later.flatMap escapeInText ++ rest) := by
        cases later with
        | nil => exact apart
        | cons c later =>
            rw [List.flatMap_cons, List.append_assoc]
            apply firstIs_escapeInText
            rintro rfl
            exact noNewline later rfl
      rw [List.flatMap_cons, List.flatMap_cons, kept.1, kept.2]
      simp only [List.cons_append, List.nil_append]
      rw [universalNewlines_return apartLater, induction]
  | case3 c later noPair noReturn induction =>
      rw [List.flatMap_cons, List.append_assoc,
        universalNewlines_append (not_mem_escapeInText noReturn), induction,
        List.flatMap_cons, List.append_assoc]
  | case4 => rfl

theorem print_leaf {content : Text} (some_content : content ≠ []) (depth : Nat)
    (name : Text) (attributes : List (Text × Text)) :
    print depth (leaf name attributes content) =
      opening name attributes ++ ['>'] ++ content.flatMap escapeInText
        ++ closing name := by
  rw [print]
  exact some_content

/-! ## Tags -/

theorem IsName.not_mem_return {name : Text} (isName : IsName name) :
    '\r' ∉ name := by
  intro member
  exact absurd (isName.2 _ member) (by decide)

theorem not_mem_opening {name : Text} {attributes : List (Text × Text)}
    (isName : IsName name) (named : AreNamed attributes) :
    '\r' ∉ opening name attributes := by
  have noReturn : ∀ pair ∈ attributes, '\r' ∉ assignment pair := by
    intro pair member
    have inName := (named.1 pair member).not_mem_return
    simp [assignment, inName, not_mem_escapeInAttribute]
  simp only [opening, List.mem_append, List.mem_cons, List.mem_flatMap, not_or,
    not_exists, not_and]
  exact ⟨⟨by decide, isName.not_mem_return⟩, noReturn⟩

theorem not_mem_closing {name : Text} (isName : IsName name) :
    '\r' ∉ closing name := by
  simp [closing, isName.not_mem_return]

theorem not_mem_newLine (depth : Nat) : '\r' ∉ newLine depth := by
  simp [newLine]

/-- Unifying line ends goes on inside an element and behind it. -/
theorem universalNewlines_opened {name : Text} {attributes : List (Text × Text)}
    {inner unifiedInner rest : Text} (isName : IsName name)
    (named : AreNamed attributes)
    (inside : ∀ rest, Text.FirstIs (· ≠ '\n') rest →
      Text.universalNewlines (inner ++ rest) =
        unifiedInner ++ rest.universalNewlines) :
    Text.universalNewlines
        (opening name attributes ++ ['>'] ++ inner ++ closing name ++ rest) =
      opening name attributes ++ ['>'] ++ unifiedInner ++ closing name
        ++ rest.universalNewlines := by
  have front : '\r' ∉ opening name attributes ++ ['>'] := by
    simp [not_mem_opening isName named]
  have apart : Text.FirstIs (· ≠ '\n') (closing name ++ rest) := by
    simp [closing]
  rw [List.append_assoc, List.append_assoc, universalNewlines_append front,
    inside _ apart, universalNewlines_append (not_mem_closing isName)]
  simp only [List.append_assoc]

theorem universalNewlines_closed {name : Text} {attributes : List (Text × Text)}
    (isName : IsName name) (named : AreNamed attributes) (rest : Text) :
    Text.universalNewlines (opening name attributes ++ " />" ++ rest) =
      opening name attributes ++ " />" ++ rest.universalNewlines := by
  apply universalNewlines_append
  simp [not_mem_opening isName named]

/-! ## Elements -/

mutual

theorem universalNewlines_print (depth : Nat) (rest : Text) :
    (xml : Xml) → xml.IsNamed →
      Text.universalNewlines (print depth xml ++ rest) =
        print depth xml.unified ++ rest.universalNewlines
  | leaf name attributes [], named =>
      universalNewlines_closed named.1 named.2 rest
  | leaf name attributes (c :: content), named => by
      have some_content : c :: content ≠ [] := List.cons_ne_nil _ _
      rw [unified, print_leaf some_content,
        print_leaf (universalNewlines_ne_nil some_content)]
      apply universalNewlines_opened named.1 named.2
      intro rest apart
      exact universalNewlines_escape (c :: content) apart
  | node name attributes [], named =>
      universalNewlines_closed named.1 named.2.1 rest
  | node name attributes (child :: later), named => by
      have printed (child : Xml) (later : List Xml) :
          print depth (node name attributes (child :: later)) =
            opening name attributes ++ ['>']
              ++ (printChildren (depth + 1) (child :: later) ++ newLine depth)
              ++ closing name := by
        rw [print, List.append_assoc (opening name attributes ++ ['>'])]
        exact List.cons_ne_nil _ _
      rw [unified, unifiedAll, printed, printed]
      apply universalNewlines_opened named.1 named.2.1
      intro rest apart
      rw [List.append_assoc,
        universalNewlines_printChildren (depth + 1) _ (child :: later) named.2.2,
        universalNewlines_append (not_mem_newLine depth), unifiedAll,
        List.append_assoc]

theorem universalNewlines_printChildren (depth : Nat) (rest : Text) :
    (children : List Xml) → AreNamedAll children →
      Text.universalNewlines (printChildren depth children ++ rest) =
        printChildren depth (unifiedAll children) ++ rest.universalNewlines
  | [], _ => rfl
  | child :: later, named => by
      rw [printChildren, List.append_assoc, List.append_assoc,
        universalNewlines_append (not_mem_newLine depth),
        universalNewlines_print depth _ child named.1,
        universalNewlines_printChildren depth rest later named.2, unifiedAll,
        printChildren, List.append_assoc, List.append_assoc]

end

/-! ## Documents -/

mutual

theorem isNamed_unified : (xml : Xml) → xml.IsNamed → xml.unified.IsNamed
  | leaf _ _ _, named => named
  | node _ _ children, named =>
      ⟨named.1, named.2.1, areNamedAll_unifiedAll children named.2.2⟩

theorem areNamedAll_unifiedAll :
    (children : List Xml) → AreNamedAll children →
      AreNamedAll (unifiedAll children)
  | [], _ => trivial
  | child :: later, named =>
      ⟨isNamed_unified child named.1, areNamedAll_unifiedAll later named.2⟩

end

mutual

theorem hasLegalTexts_unified :
    (xml : Xml) → xml.HasLegalTexts → xml.unified.HasLegalTexts
  | leaf _ _ _, legal => ⟨legal.1, areLegal_universalNewlines.mpr legal.2⟩
  | node _ _ children, legal =>
      ⟨legal.1, haveLegalTexts_unifiedAll children legal.2⟩

theorem haveLegalTexts_unifiedAll :
    (children : List Xml) → HaveLegalTexts children →
      HaveLegalTexts (unifiedAll children)
  | [], _ => trivial
  | child :: later, legal =>
      ⟨hasLegalTexts_unified child legal.1,
        haveLegalTexts_unifiedAll later legal.2⟩

end

/-- The parts of the declaration in front of every document. -/
def declarationParts : List (Text × Text) :=
  [("version", "1.0"), ("encoding", "UTF-8")]

theorem document_eq (xml : Xml) :
    document xml =
      '<' :: '?' :: 'x' :: 'm' :: 'l'
          :: (declarationParts.flatMap assignment ++ ([] ++ ['?', '>']))
        ++ (['\n'] ++ print 0 xml) := rfl

theorem isDeclaration_parts :
    IsDeclaration
      ('<' :: '?' :: 'x' :: 'm' :: 'l'
        :: (declarationParts.flatMap assignment ++ ([] ++ ['?', '>']))) := by
  have named : ∀ pair ∈ declarationParts, IsName pair.1 := by decide
  have legal : AreLegalValues declarationParts := by
    unfold AreLegalValues
    decide
  exact .present (spellsAttributes_assignments named legal) (by decide)
    (by decide) isBlank_nil

variable {xml : Xml}

/-- What is printed is a document, which holds the element. -/
theorem isDocument_document (named : xml.IsNamed) (legal : xml.HasLegalTexts) :
    IsDocument xml.document (item 0 xml.unified) := by
  have spells := spells_print 0 xml.unified (isNamed_unified xml named)
    (hasLegalTexts_unified xml legal)
  refine ⟨_, ['\n'], print 0 xml.unified, [], ?_, isDeclaration_parts,
    .blank (by decide) .nil, spells, .nil⟩
  have printed := universalNewlines_print 0 [] xml named
  rw [List.append_nil] at printed
  rw [document_eq, universalNewlines_append (by decide),
    universalNewlines_append (by decide), printed]
  rfl

theorem areLegal_document (named : xml.IsNamed) :
    AreLegal xml.document ↔ xml.HasLegalTexts := by
  rw [document_eq, areLegal_append, areLegal_append, areLegal_print 0 xml named,
    and_iff_right (by decide), and_iff_right (by decide)]

/-- A printed element is a document if and only if its texts and values consist
of characters that a document may have. -/
theorem isDocument_document_iff (named : xml.IsNamed) :
    (∃ root, IsDocument xml.document root) ↔ xml.HasLegalTexts := by
  constructor
  · rintro ⟨root, isDocument⟩
    exact (areLegal_document named).mp isDocument.areLegal
  · intro legal
    exact ⟨_, isDocument_document named legal⟩

end Xml

end TemplateLint
