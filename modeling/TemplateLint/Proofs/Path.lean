import TemplateLint.Path
import TemplateLint.Proofs.Text.Parts

/-!
# Written paths

The components of a path that was read are names.  A path made of names is
read back from its written form.
-/

namespace TemplateLint

namespace Path

/-- A component that is not left out by reading. -/
structure IsName (component : String) : Prop where
  notEmpty : component ≠ ""
  notDot : component ≠ "."
  noSlash : '/' ∉ component.toList

instance (component : String) : Decidable (IsName component) :=
  decidable_of_iff
    (component ≠ "" ∧ component ≠ "." ∧ '/' ∉ component.toList)
    ⟨fun ⟨notEmpty, notDot, noSlash⟩ => ⟨notEmpty, notDot, noSlash⟩,
      fun ⟨notEmpty, notDot, noSlash⟩ => ⟨notEmpty, notDot, noSlash⟩⟩

theorem isName_dots : IsName ".." := by decide

/-- Every component is a name. -/
def WellFormed (path : Path) : Prop :=
  ∀ component ∈ path.components, IsName component

/-! ## Paths made of names -/

theorem wellFormed_ofString (text : String) : (ofString text).WellFormed := by
  intro component member
  obtain ⟨inParts, kept⟩ := List.mem_filter.mp member
  obtain ⟨part, isPart, rfl⟩ := List.mem_map.mp inParts
  rw [decide_eq_true_eq] at kept
  refine ⟨kept.1, kept.2, ?_⟩
  rw [String.toList_ofList]
  exact Text.not_mem_of_mem_parts isPart

theorem WellFormed.under {directory path : Path}
    (wellFormed : directory.WellFormed) (wellFormedPath : path.WellFormed) :
    (directory.under path).WellFormed := by
  rw [Path.under]
  split
  · exact wellFormedPath
  · intro component member
    rcases List.mem_append.mp member with above | below
    · exact wellFormed component above
    · exact wellFormedPath component below

theorem mem_of_mem_resolveDots {done components : List String}
    {component : String} (member : component ∈ resolveDots done components) :
    component ∈ done ∨ component ∈ components := by
  induction components generalizing done with
  | nil => exact .inl (List.mem_reverse.mp member)
  | cons first components induction =>
      rw [resolveDots] at member
      split at member
      · rcases induction member with before | later
        · exact .inl (List.mem_of_mem_drop before)
        · exact .inr (.tail _ later)
      · rcases induction member with before | later
        · rcases List.mem_cons.mp before with rfl | before
          · exact .inr (.head _)
          · exact .inl before
        · exact .inr (.tail _ later)

theorem not_mem_resolveDots {done components : List String}
    (named : ".." ∉ done) : ".." ∉ resolveDots done components := by
  induction components generalizing done with
  | nil => simpa [resolveDots] using named
  | cons component components induction =>
      rw [resolveDots]
      split
      · exact induction fun member => named (List.mem_of_mem_drop member)
      · rename_i isName
        apply induction
        rw [List.mem_cons, not_or]
        exact ⟨Ne.symm isName, named⟩

theorem WellFormed.resolveDots {path : Path} (wellFormed : path.WellFormed) :
    (Path.mk path.anchor (Path.resolveDots [] path.components)).WellFormed := by
  intro component member
  rcases mem_of_mem_resolveDots member with before | given
  · contradiction
  · exact wellFormed component given

theorem isAbsolute_under {directory path : Path}
    (absolute : directory.isAbsolute = true) :
    (directory.under path).isAbsolute = true := by
  rw [Path.under]
  split
  · assumption
  · exact absolute

theorem under_of_isAbsolute {directory path : Path}
    (absolute : path.isAbsolute = true) : directory.under path = path := by
  rw [Path.under, if_pos absolute]

/-! ## Reading back -/

variable {names : List String}

theorem componentsOf_intercalate (areNames : ∀ name ∈ names, IsName name) :
    componentsOf ("/".intercalate names).toList = names := by
  by_cases none : names = []
  · rw [none]
    rfl
  · have noSlash : ∀ part ∈ names.map String.toList, '/' ∉ part := by
      intro part member
      obtain ⟨name, named, rfl⟩ := List.mem_map.mp member
      exact (areNames name named).noSlash
    have split : Text.parts '/' ("/".intercalate names).toList =
        names.map String.toList := by
      rw [Text.parts_eq_splitOn, String.toList_intercalate]
      exact List.splitOn_intercalate '/' noSlash (by simpa using none)
    rw [componentsOf, split, List.map_map, List.filter_eq_self.mpr]
    · simp
    · intro name member
      have named : name ∈ names := by simpa using member
      simp [(areNames name named).notEmpty, (areNames name named).notDot]

/-- Leading slashes are no components. -/
theorem componentsOf_anchor (anchor : Anchor) (text : Text) :
    componentsOf (anchor.text.toList ++ text) = componentsOf text := by
  have slash : ∀ text, componentsOf ('/' :: text) = componentsOf text := by
    intro text
    simp [componentsOf, Text.parts, Text.cut]
  cases anchor with
  | relative => rfl
  | root => exact slash text
  | doubleRoot => exact (slash _).trans (slash text)

theorem head?_intercalate_ne_slash (areNames : ∀ name ∈ names, IsName name) :
    ("/".intercalate names).toList.head? ≠ some '/' := by
  rw [String.toList_intercalate]
  cases names with
  | nil => simp
  | cons name names =>
      obtain ⟨notEmpty, -, noSlash⟩ := areNames name (.head _)
      cases first : name.toList with
      | nil => exact absurd (String.toList_eq_nil_iff.mp first) notEmpty
      | cons c rest =>
          rw [first, List.mem_cons, not_or] at noSlash
          cases names <;> simp [first, Ne.symm noSlash.1]

theorem anchorOf_anchor (anchor : Anchor) {text : Text}
    (noSlash : text.head? ≠ some '/') :
    anchorOf (anchor.text.toList ++ text) = anchor := by
  cases text with
  | nil => cases anchor <;> rfl
  | cons c text =>
      have other : c ≠ '/' := by simpa using noSlash
      cases anchor <;> simp [Anchor.text, anchorOf, other]

/-- The written form of a path made of names is read as that path. -/
theorem ofString_toString {path : Path} (wellFormed : path.WellFormed) :
    ofString path.toString = path := by
  obtain ⟨anchor, names⟩ := path
  have read : ofString (anchor.text ++ "/".intercalate names) =
      ⟨anchor, names⟩ := by
    rw [ofString, ofText, String.toList_append,
      anchorOf_anchor anchor (head?_intercalate_ne_slash wellFormed),
      componentsOf_anchor, componentsOf_intercalate wellFormed]
  rw [toString]
  dsimp only
  split
  · rename_i nothing
    rw [nothing] at read
    exact read
  · exact read

end Path

end TemplateLint
