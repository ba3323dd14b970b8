import TemplateLint.Proofs.Linter.Name
import TemplateLint.Proofs.Text.Character

/-!
# Where the words of a class name end

The linter name of a class marks the end of every word but the last, and only
that.  Whether a word ends at a character is told by the character and the two
behind it, although the seams are filled in two passes, each of which takes
whole runs of characters from the text.
-/

namespace TemplateLint.LinterName

open Text

/-! ## Ends of words -/

/-- Whether the character at a position passes a test. -/
def passesAt (name : Text) (position : Nat) (test : Char → Bool) : Bool :=
  name[position]?.any test

/-- A small letter or digit with a capital behind it. -/
def endsHump (name : Text) (position : Nat) : Bool :=
  (passesAt name position isSmall
    || passesAt name position Character.isDecimalDigit)
    && passesAt name (position + 1) isCapital

/-- A capital with a capital behind it that a small letter follows. -/
def endsAcronym (name : Text) (position : Nat) : Bool :=
  passesAt name position isCapital && passesAt name (position + 1) isCapital
    && passesAt name (position + 2) isSmall

/-- Whether one word ends at a position and another one begins behind it. -/
def isWordEnd (name : Text) (position : Nat) : Bool :=
  endsHump name position || endsAcronym name position

variable {c : Char} {text rest : Text} {test : Char → Bool}

@[simp] theorem passesAt_nil {position : Nat} :
    passesAt [] position test = false := rfl

@[simp] theorem passesAt_zero : passesAt (c :: rest) 0 test = test c := rfl

@[simp] theorem passesAt_succ {position : Nat} :
    passesAt (c :: rest) (position + 1) test = passesAt rest position test :=
  rfl

theorem passesAt_drop {position offset : Nat} :
    passesAt (text.drop position) offset test =
      passesAt text (position + offset) test := by
  rw [passesAt, List.getElem?_drop, passesAt]

theorem isWordEnd_drop {position : Nat} :
    isWordEnd (text.drop position) 0 = isWordEnd text position := by
  simp [isWordEnd, endsHump, endsAcronym, passesAt_drop]

/-! ## Letters and digits -/

/-- The boundaries of the ASCII letters. -/
def letterBoundaries : List Nat := [65, 91, 97, 123]

theorem within_of_letter (letter : isCapital c = true ∨ isSmall c = true) :
    Character.within letterBoundaries c.toNat = true := by
  simp only [isCapital, isSmall, Bool.and_eq_true, decide_eq_true_eq,
    Char.le_def, UInt32.le_iff_toNat_le] at letter
  simp only [letterBoundaries, Character.within, Character.within.go]
  rcases letter with ⟨first, last⟩ | ⟨first, last⟩
  · have reached : 65 ≤ c.toNat := first
    have notPassed : ¬91 ≤ c.toNat := Nat.not_le_of_lt (Nat.lt_succ_of_le last)
    rw [if_pos reached, if_neg notPassed]
    rfl
  · have reached : 97 ≤ c.toNat := first
    have notPassed : ¬123 ≤ c.toNat := Nat.not_le_of_lt (Nat.lt_succ_of_le last)
    rw [if_pos (by omega), if_pos (by omega), if_pos reached, if_neg notPassed]
    rfl

theorem not_isDecimalDigit_of_isCapital (capital : isCapital c = true) :
    Character.isDecimalDigit c = false :=
  Character.not_within_of_areApart (by decide +kernel) (by decide)
    (by decide +kernel) (within_of_letter (.inl capital))

theorem not_isSmall_of_isCapital (capital : isCapital c = true) :
    isSmall c = false := by
  simp only [isCapital, isSmall, Bool.and_eq_true, Bool.and_eq_false_iff,
    decide_eq_true_eq, decide_eq_false_iff_not, Char.le_def,
    UInt32.le_iff_toNat_le] at capital ⊢
  have last : 'Z'.val.toNat < 'a'.val.toNat := by decide
  omega

/-- Letters and digits beside an end of a word have no influence on the case
of others. -/
theorem isFirm_of_letter (letter : isCapital c = true ∨ isSmall c = true) :
    LowerCase.IsFirm c where
  noSigma := by
    rintro rfl
    revert letter
    decide
  notIgnorable :=
    Character.not_within_of_areApart (by decide +kernel) (by decide)
      (by decide +kernel) (within_of_letter letter)

theorem isFirm_of_isDecimalDigit (digit : Character.isDecimalDigit c = true) :
    LowerCase.IsFirm c where
  noSigma := by
    rintro rfl
    revert digit
    decide +kernel
  notIgnorable :=
    Character.not_within_of_areApart (by decide +kernel) (by decide +kernel)
      (by decide +kernel) digit

/-! ## Ends of the two seams -/

theorem endsAcronym_of_not_small {next : Char}
    (notSmall : passesAt rest 0 isSmall = false) :
    endsAcronym (c :: next :: rest) 0 = false :=
  Bool.and_eq_false_iff.mpr (.inr notSmall)

theorem marked_capitalised (filling : Char) {last capital small : Char}
    (isLast : isCapital last = true) (isFirst : isCapital capital = true)
    (isSecond : isSmall small = true) (rest : Text) :
    marked (endsAcronym · 0) filling (last :: capital :: small :: rest) =
      last :: filling :: capital :: small ::
        marked (endsAcronym · 0) filling rest := by
  have noCapital : isCapital small = false := by
    refine Bool.eq_false_iff.mpr fun both => ?_
    rw [not_isSmall_of_isCapital both] at isSecond
    contradiction
  have ending : endsAcronym (last :: capital :: small :: rest) 0 = true :=
    Bool.and_eq_true_iff.mpr
      ⟨Bool.and_eq_true_iff.mpr ⟨isLast, isFirst⟩, isSecond⟩
  have insideFirst : endsAcronym (capital :: small :: rest) 0 = false := by
    simp [endsAcronym, noCapital]
  have insideSecond : endsAcronym (small :: rest) 0 = false := by
    simp [endsAcronym, noCapital]
  rw [marked_of_ends ending, marked_of_not_ends insideFirst,
    marked_of_not_ends insideSecond]

/-- Of the capitals on the left of a seam only the last one ends an acronym:
two more capitals follow every other one. -/
theorem marked_acronymSeam (filling : Char) {left right : Text}
    (fits : acronymSeam.Fits left right) (rest : Text) :
    marked (endsAcronym · 0) filling (left ++ right ++ rest) =
      left ++ filling :: right ++ marked (endsAcronym · 0) filling rest := by
  obtain ⟨notEmpty, capitals, -, inRow⟩ := fits
  match right, inRow with
  | [capital, small], .cons isFirst (.cons isSecond .nil) =>
  induction left with
  | nil => exact absurd rfl notEmpty
  | cons c more induction =>
      cases more with
      | nil =>
          exact marked_capitalised filling (capitals c (.head _)) isFirst
            isSecond rest
      | cons next later =>
          have notSmall : passesAt (later ++ [capital, small] ++ rest) 0
              isSmall = false := by
            cases later with
            | nil => exact not_isSmall_of_isCapital isFirst
            | cons third _ =>
                exact not_isSmall_of_isCapital
                  (capitals third (.tail _ (.tail _ (.head _))))
          have further := induction (List.cons_ne_nil _ _)
            fun c member => capitals c (.tail _ member)
          exact (marked_of_not_ends (endsAcronym_of_not_small notSmall)).trans
            (congrArg (c :: ·) further)

theorem hasEnds_acronymSeam : acronymSeam.HasEnds (endsAcronym · 0) where
  begins text ending := by
    match text with
    | [] => simp [endsAcronym] at ending
    | [_] => simp [endsAcronym] at ending
    | [_, _] => simp [endsAcronym] at ending
    | first :: second :: third :: rest =>
        simp only [endsAcronym, passesAt_zero, passesAt_succ,
          Bool.and_eq_true] at ending
        obtain ⟨⟨firstPasses, secondPasses⟩, thirdPasses⟩ := ending
        exact ⟨[first], [second, third], rest, rfl, List.cons_ne_nil _ _,
          List.forall_mem_singleton.mpr firstPasses, fun _ => rfl,
          .cons secondPasses (.cons thirdPasses .nil)⟩
  between filling _ _ rest fits := marked_acronymSeam filling fits rest

theorem hasEnds_humpSeam : humpSeam.HasEnds (endsHump · 0) where
  begins text ending := by
    match text with
    | [] => simp [endsHump] at ending
    | [_] => simp [endsHump] at ending
    | first :: second :: rest =>
        rw [endsHump, Bool.and_eq_true] at ending
        exact ⟨[first], [second], rest, rfl, List.cons_ne_nil _ _,
          List.forall_mem_singleton.mpr ending.1, fun _ => rfl,
          .cons ending.2 .nil⟩
  between filling left right rest fits := by
    obtain ⟨-, passes, single, inRow⟩ := fits
    obtain ⟨first, rfl⟩ := List.length_eq_one_iff.mp (single rfl)
    match right, inRow with
    | [capital], .cons isNext .nil =>
    have ending : endsHump (first :: capital :: rest) 0 = true :=
      Bool.and_eq_true_iff.mpr ⟨passes first (.head _), isNext⟩
    have inside : endsHump (capital :: rest) 0 = false := by
      simp [endsHump, not_isSmall_of_isCapital isNext,
        not_isDecimalDigit_of_isCapital isNext]
    rw [List.append_assoc, List.singleton_append, List.singleton_append,
      marked_of_ends ending, marked_of_not_ends inside]
    rfl

/-! ## Both passes -/

theorem passesAt_marked {ends : Text → Bool} {mark : Char} :
    passesAt (marked ends mark text) 0 test = passesAt text 0 test := by
  cases text with
  | nil => rfl
  | cons c rest =>
      rw [marked]
      split <;> rfl

/-- The second pass finds its ends where they were, because the marks of the
first one stand between capitals. -/
theorem marked_marked (name : Text) :
    marked (endsHump · 0) '_' (marked (endsAcronym · 0) '_' name) =
      marked (isWordEnd · 0) '_' name := by
  have noCapital : isCapital '_' = false := by decide
  have noSide : humpSeam.left '_' = false := by decide +kernel
  induction name with
  | nil => rfl
  | cons c rest induction =>
      have same : endsHump (c :: marked (endsAcronym · 0) '_' rest) 0 =
          endsHump (c :: rest) 0 := by
        rw [endsHump, passesAt_succ, passesAt_marked]
        rfl
      cases acronym : endsAcronym (c :: rest) 0 with
      | true =>
          have noHump (text : Text) : endsHump (c :: '_' :: text) 0 = false :=
            Bool.and_eq_false_iff.mpr (.inr noCapital)
          have noMark (text : Text) : endsHump ('_' :: text) 0 = false :=
            Bool.and_eq_false_iff.mpr (.inl noSide)
          have ending : isWordEnd (c :: rest) 0 = true := by
            rw [isWordEnd, acronym, Bool.or_true]
          rw [marked_of_ends acronym, marked_of_not_ends (noHump _),
            marked_of_not_ends (noMark _), marked_of_ends ending,
            induction]
      | false =>
          have whole : isWordEnd (c :: rest) 0 = endsHump (c :: rest) 0 := by
            rw [isWordEnd, acronym, Bool.or_false]
          rw [marked_of_not_ends acronym, marked, marked, same,
            whole, induction]

theorem underscore_eq_lower_marked (name : List Char) :
    underscore name =
      LowerCase.lower (marked (isWordEnd · 0) '_' name) := by
  rw [underscore, Seam.fill_eq_marked hasEnds_acronymSeam,
    Seam.fill_eq_marked hasEnds_humpSeam, marked_marked]

/-- Behind the end of a word stands a capital. -/
theorem isCapital_of_isWordEnd (ending : isWordEnd (c :: rest) 0 = true) :
    passesAt rest 0 isCapital = true := by
  rcases Bool.or_eq_true_iff.mp ending with hump | acronym
  · exact (Bool.and_eq_true_iff.mp hump).2
  · exact (Bool.and_eq_true_iff.mp (Bool.and_eq_true_iff.mp acronym).1).2

theorem isFirm_of_isWordEnd (ending : isWordEnd (c :: rest) 0 = true) :
    LowerCase.IsFirm c := by
  rcases Bool.or_eq_true_iff.mp ending with hump | acronym
  · rcases Bool.or_eq_true_iff.mp (Bool.and_eq_true_iff.mp hump).1 with
      small | digit
    · exact isFirm_of_letter (.inr small)
    · exact isFirm_of_isDecimalDigit digit
  · exact isFirm_of_letter
      (.inl (Bool.and_eq_true_iff.mp (Bool.and_eq_true_iff.mp acronym).1).1)

theorem marksFirm_isWordEnd : LowerCase.MarksFirm (isWordEnd · 0) := by
  intro c rest ending
  have capital := isCapital_of_isWordEnd ending
  refine ⟨isFirm_of_isWordEnd ending, ?_⟩
  cases rest with
  | nil => exact firstIs_nil
  | cons next later =>
      exact firstIs_cons.mpr (isFirm_of_letter (.inl capital))

theorem isSettled_underscore : LowerCase.IsSettled '_'.toNat := by
  rw [LowerCase.IsSettled]
  decide +kernel

/-- Lower case of the character at a position. -/
def smallAt (name : Text) (entry : Char × Nat) : Text :=
  LowerCase.inContext (name.take entry.2).reverse entry.1
    (name.drop (entry.2 + 1))

theorem lower_eq_flatMap (name : Text) :
    LowerCase.lower name = name.zipIdx.flatMap (smallAt name) := by
  rw [LowerCase.lower, LowerCase.lowerFrom_eq_respellFrom]
  exact respell_eq_flatMap LowerCase.inContext name

/-- What is written for a character may depend on whether a word ends there,
which is told by its position. -/
theorem respell_isWordEnd (spell : Text → Char → Text → Bool → Text)
    (name : Text) :
    respell (fun before c after =>
        spell before c after (isWordEnd (c :: after) 0)) name =
      name.zipIdx.flatMap fun entry =>
        spell (name.take entry.2).reverse entry.1 (name.drop (entry.2 + 1))
          (isWordEnd name entry.2) := by
  refine (respell_eq_flatMap _ name).trans ?_
  refine List.flatMap_congr fun entry member => ?_
  obtain ⟨inside, same⟩ := List.getElem?_eq_some_iff.mp
    (List.mem_zipIdx_iff_getElem?.mp member)
  have fromHere : entry.1 :: name.drop (entry.2 + 1) = name.drop entry.2 := by
    rw [← same, List.getElem_cons_drop]
  rw [fromHere, isWordEnd_drop]

/-- The linter name is the lower case of the class name with one underscore
behind each end of a word.  The underscores have no part in lower-casing: they
stand in the same places of the lower-case class name.  A linter name is its
own linter name. -/
theorem underscore_marks_word_ends (name : List Char) :
    underscore name =
        LowerCase.lower (name.zipIdx.flatMap fun entry =>
          entry.1 :: if isWordEnd name entry.2 then ['_'] else []) ∧
      LowerCase.lower name = name.zipIdx.flatMap (smallAt name) ∧
      underscore name = name.zipIdx.flatMap (fun entry =>
        smallAt name entry ++ if isWordEnd name entry.2 then ['_'] else []) ∧
      underscore (underscore name) = underscore name := by
  refine ⟨?_, lower_eq_flatMap name, ?_, underscore_underscore name⟩
  · have byPosition := respell_isWordEnd
      (fun _ c _ ends => c :: if ends then ['_'] else []) name
    rw [underscore_eq_lower_marked, marked_eq_respellFrom []]
    exact congrArg LowerCase.lower byPosition
  · rw [underscore_eq_lower_marked,
      LowerCase.lower_marked marksFirm_isWordEnd isSettled_underscore]
    exact respell_isWordEnd (fun before c after ends =>
      LowerCase.inContext before c after ++ if ends then ['_'] else []) name

example : underscore "parseHTMLFast2Go".toList =
    "parse_html_fast2_go".toList := by decide +kernel

end TemplateLint.LinterName
