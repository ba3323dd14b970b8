import TemplateLint.Proofs.Xml.LineEnds

/-!
# Looking for elements and attributes

A reader of a document looks for what it needs by names.  In what is printed it
finds the elements that were printed, in their order, and their values.
-/

namespace TemplateLint.Xml

/-- Whether an item is an element of a name. -/
def Item.isNamed (name : Text) : Item → Bool
  | .element found _ _ => found = name
  | .character _ => false

/-- The elements of a name that an element holds. -/
def Item.children (name : Text) : Item → List Item
  | .element _ _ content => content.filter (·.isNamed name)
  | .character _ => []

/-- The first value of a key. -/
def valueOf? (key : Text) (attributes : List (Text × Text)) : Option Text :=
  (attributes.find? fun pair => pair.1 = key).map (·.2)

def Item.attribute? (key : Text) : Item → Option Text
  | .element _ attributes _ => valueOf? key attributes
  | .character _ => none

def name : Xml → Text
  | leaf name _ _ | node name _ _ => name

def attributes : Xml → List (Text × Text)
  | leaf _ attributes _ | node _ attributes _ => attributes

/-! ## What is found in a printed element -/

theorem isNamed_item (name : Text) (depth : Nat) (xml : Xml) :
    (item depth xml).isNamed name = decide (xml.name = name) := by
  match xml with
  | leaf _ _ _ | node _ _ [] | node _ _ (_ :: _) => rfl

theorem attribute?_item (key : Text) (depth : Nat) (xml : Xml) :
    (item depth xml).attribute? key = valueOf? key xml.attributes := by
  match xml with
  | leaf _ _ _ | node _ _ [] | node _ _ (_ :: _) => rfl

theorem filter_characters (name text : Text) :
    (text.map Item.character).filter (·.isNamed name) = [] := by
  induction text with
  | nil => rfl
  | cons c text induction => exact induction

theorem filter_items (name : Text) (depth : Nat) (children : List Xml) :
    (items depth children).filter (·.isNamed name) =
      (children.filter (·.name = name)).map (item depth) := by
  induction children with
  | nil => rfl
  | cons child later induction =>
      rw [items, List.filter_append, filter_characters, List.nil_append,
        List.filter_cons, isNamed_item, List.filter_cons, induction]
      split <;> rfl

/-- White space between elements is not looked at. -/
theorem children_item (wanted : Text) (depth : Nat) (name : Text)
    (attributes : List (Text × Text)) (children : List Xml) :
    (item depth (node name attributes children)).children wanted =
      (children.filter (·.name = wanted)).map (item (depth + 1)) := by
  cases children with
  | nil => rfl
  | cons child later =>
      rw [item, Item.children, List.filter_append, filter_characters,
        List.append_nil, filter_items]
      exact List.cons_ne_nil _ _

/-! ## Lists of elements -/

theorem unifiedAll_eq_map (children : List Xml) :
    unifiedAll children = children.map unified := by
  induction children with
  | nil => rfl
  | cons child later induction => rw [unifiedAll, induction, List.map_cons]

theorem areNamed_iff {attributes : List (Text × Text)} :
    AreNamed attributes ↔ (∀ name ∈ attributes.map (·.1), IsName name) ∧
      (attributes.map (·.1)).Nodup := by
  rw [List.forall_mem_map, AreNamed]

theorem areNamedAll_iff {children : List Xml} :
    AreNamedAll children ↔ ∀ child ∈ children, child.IsNamed := by
  induction children with
  | nil => exact iff_of_true trivial (List.forall_mem_nil _)
  | cons child later induction =>
      rw [AreNamedAll, induction, List.forall_mem_cons]

theorem haveLegalTexts_iff {children : List Xml} :
    HaveLegalTexts children ↔ ∀ child ∈ children, child.HasLegalTexts := by
  induction children with
  | nil => exact iff_of_true trivial (List.forall_mem_nil _)
  | cons child later induction =>
      rw [HaveLegalTexts, induction, List.forall_mem_cons]

/-- Elements of one name are all found by this name. -/
theorem filter_map_of_name {Part : Type} {element : Part → Xml} {wanted : Text}
    (named : ∀ part, (element part).name = wanted) (parts : List Part) :
    (parts.map element).filter (·.name = wanted) = parts.map element := by
  rw [List.filter_eq_self, List.forall_mem_map]
  intro part _
  exact decide_eq_true (named part)

theorem name_unified (xml : Xml) : xml.unified.name = xml.name := by
  cases xml <;> rfl

theorem attributes_unified (xml : Xml) :
    xml.unified.attributes = xml.attributes := by
  cases xml <;> rfl

/-- Values are found as they were printed. -/
theorem attribute?_unified (key : Text) (depth : Nat) (xml : Xml) :
    (item depth xml.unified).attribute? key = valueOf? key xml.attributes := by
  rw [attribute?_item, attributes_unified]

/-- Elements are found as they were printed. -/
theorem children_unified (wanted : Text) (depth : Nat) (name : Text)
    (attributes : List (Text × Text)) (children : List Xml) :
    (item depth (node name attributes children).unified).children wanted =
      (children.filter (·.name = wanted)).map
        fun child => item (depth + 1) child.unified := by
  rw [unified, unifiedAll_eq_map, children_item, List.filter_map, List.map_map]
  simp only [Function.comp_def, name_unified]

end TemplateLint.Xml
