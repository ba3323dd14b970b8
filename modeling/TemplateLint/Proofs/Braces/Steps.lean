import TemplateLint.Proofs.Braces.Expansion
import TemplateLint.Proofs.Braces.Pattern

/-!
# Steps on patterns

A step of the expansion is a step on the pattern that a text is read as: the
leftmost group without groups inside is replaced by each of its alternatives.
What a step leaves is read as patterns again.
-/

namespace TemplateLint.Braces

theorem isPlain_singleton {c : Char} (notBrace : isBrace c = false) :
    IsPlain [c] :=
  isPlain_cons.mpr ⟨notBrace, isPlain_nil⟩

/-! ## Patterns without groups -/

mutual

/-- A pattern has no groups. -/
def Pattern.isFlat : Pattern → Bool
  | .nothing => true
  | .plain _ rest => rest.isFlat
  | .group _ _ => false

def Alternatives.areFlat : Alternatives → Bool
  | .last pattern => pattern.isFlat
  | .more pattern others => pattern.isFlat && others.areFlat

end

/-- No group has groups inside. -/
def Pattern.isUnnested : Pattern → Bool
  | .nothing => true
  | .plain _ rest => rest.isUnnested
  | .group alternatives rest => alternatives.areFlat && rest.isUnnested

def Alternatives.toList : Alternatives → List Pattern
  | .last pattern => [pattern]
  | .more pattern others => pattern :: others.toList

theorem Alternatives.words_eq_flatMap : (alternatives : Alternatives) →
    alternatives.words = alternatives.toList.flatMap Pattern.words
  | .last pattern => by
      rw [Alternatives.words, toList, List.flatMap_singleton]
  | .more pattern others => by
      rw [Alternatives.words, toList, List.flatMap_cons,
        others.words_eq_flatMap]

theorem Alternatives.fits_of_mem {alternatives : Alternatives}
    (isFit : alternatives.fit = true) {pattern : Pattern}
    (member : pattern ∈ alternatives.toList) : pattern.fits true = true := by
  induction alternatives using toList.induct with
  | case1 only =>
      obtain rfl := List.mem_singleton.mp member
      exact isFit
  | case2 first others induction =>
      simp only [Alternatives.fit, Bool.and_eq_true] at isFit
      rcases List.mem_cons.mp member with rfl | later
      · exact isFit.1
      · exact induction isFit.2 later

theorem Alternatives.isFlat_of_mem {alternatives : Alternatives}
    (areFlat : alternatives.areFlat = true) {pattern : Pattern}
    (member : pattern ∈ alternatives.toList) : pattern.isFlat = true := by
  induction alternatives using toList.induct with
  | case1 only =>
      obtain rfl := List.mem_singleton.mp member
      exact areFlat
  | case2 first others induction =>
      simp only [Alternatives.areFlat, Bool.and_eq_true] at areFlat
      rcases List.mem_cons.mp member with rfl | later
      · exact areFlat.1
      · exact induction areFlat.2 later

namespace Pattern

variable {pattern : Pattern} {inGroup : Bool}

theorem isPlain_text (isFlat : pattern.isFlat = true)
    (isFit : pattern.fits inGroup = true) : IsPlain pattern.text := by
  induction pattern using isUnnested.induct with
  | case1 => exact isPlain_nil
  | case2 c rest induction =>
      simp only [Pattern.fits, Bool.and_eq_true, Bool.not_eq_true'] at isFit
      exact isPlain_cons.mpr ⟨isFit.1.1, induction isFlat isFit.2⟩
  | case3 => cases isFlat

theorem isPlain_text_comma (isFlat : pattern.isFlat = true)
    (isFit : pattern.fits inGroup = true) : IsPlain (pattern.text ++ [',']) :=
  isPlain_append.mpr
    ⟨isPlain_text isFlat isFit, isPlain_singleton (by decide)⟩

theorem comma_not_mem_text (isFlat : pattern.isFlat = true)
    (isFit : pattern.fits true = true) : ',' ∉ pattern.text := by
  induction pattern using isUnnested.induct with
  | case1 => exact List.not_mem_nil
  | case2 c rest induction =>
      simp only [Pattern.fits, Bool.and_eq_true, Bool.not_eq_true',
        Bool.true_and, beq_eq_false_iff_ne] at isFit
      rw [Pattern.text, List.mem_cons, not_or]
      exact ⟨Ne.symm isFit.1.2, induction isFlat isFit.2⟩
  | case3 => cases isFlat

theorem words_of_isFlat (isFlat : pattern.isFlat = true) :
    pattern.words = [pattern.text] := by
  induction pattern using isUnnested.induct with
  | case1 => rfl
  | case2 c rest induction =>
      rw [Pattern.words, induction isFlat]
      rfl
  | case3 => cases isFlat

end Pattern

theorem Alternatives.isPlain_text {alternatives : Alternatives}
    (areFlat : alternatives.areFlat = true) (isFit : alternatives.fit = true) :
    IsPlain alternatives.text := by
  induction alternatives using toList.induct with
  | case1 only => exact Pattern.isPlain_text areFlat isFit
  | case2 first others induction =>
      simp only [Alternatives.areFlat, Bool.and_eq_true] at areFlat
      simp only [Alternatives.fit, Bool.and_eq_true] at isFit
      rw [Alternatives.text]
      exact isPlain_append.mpr
        ⟨first.isPlain_text areFlat.1 isFit.1,
          isPlain_cons.mpr ⟨by decide, induction areFlat.2 isFit.2⟩⟩

/-- Cutting at the commas finds the alternatives. -/
theorem Alternatives.parts_text {alternatives : Alternatives}
    (areFlat : alternatives.areFlat = true) (isFit : alternatives.fit = true) :
    alternatives.text.parts ',' = alternatives.toList.map Pattern.text := by
  induction alternatives using toList.induct with
  | case1 only =>
      exact Text.parts_of_not_mem (Pattern.comma_not_mem_text areFlat isFit)
  | case2 first others induction =>
      simp only [Alternatives.areFlat, Bool.and_eq_true] at areFlat
      simp only [Alternatives.fit, Bool.and_eq_true] at isFit
      rw [Alternatives.text,
        Text.parts_append (first.comma_not_mem_text areFlat.1 isFit.1),
        induction areFlat.2 isFit.2]
      rfl

/-! ## One pattern behind another -/

namespace Pattern

def followedBy : Pattern → Pattern → Pattern
  | .nothing, behind => behind
  | .plain c rest, behind => .plain c (rest.followedBy behind)
  | .group alternatives rest, behind =>
      .group alternatives (rest.followedBy behind)

variable (pattern behind : Pattern)

theorem text_followedBy :
    (pattern.followedBy behind).text = pattern.text ++ behind.text := by
  induction pattern using isUnnested.induct with
  | case1 => rfl
  | case2 c rest induction => simp [followedBy, Pattern.text, induction]
  | case3 alternatives rest induction =>
      simp [followedBy, Pattern.text, induction]

theorem words_followedBy : (pattern.followedBy behind).words =
    pattern.words.flatMap fun front => behind.words.map (front ++ ·) := by
  induction pattern using isUnnested.induct with
  | case1 => simp [followedBy, Pattern.words]
  | case2 c rest induction =>
      simp [followedBy, Pattern.words, induction, List.map_flatMap,
        List.flatMap_map, Function.comp_def]
  | case3 alternatives rest induction =>
      simp [followedBy, Pattern.words, induction, List.map_flatMap,
        List.flatMap_map, List.flatMap_assoc, Function.comp_def]

variable {pattern behind}

theorem fits_followedBy {inGroup : Bool} (isFit : pattern.fits true = true)
    (isFitBehind : behind.fits inGroup = true) :
    (pattern.followedBy behind).fits inGroup = true := by
  induction pattern using isUnnested.induct with
  | case1 => exact isFitBehind
  | case2 c rest induction =>
      simp only [Pattern.fits, Bool.and_eq_true, Bool.not_eq_true',
        Bool.true_and] at isFit
      simp [followedBy, Pattern.fits, isFit.1.1, isFit.1.2, induction isFit.2]
  | case3 alternatives rest induction =>
      simp only [Pattern.fits, Bool.and_eq_true] at isFit
      simp [followedBy, Pattern.fits, isFit.1, induction isFit.2]

theorem isUnnested_followedBy (isFlat : pattern.isFlat = true) :
    (pattern.followedBy behind).isUnnested = behind.isUnnested := by
  induction pattern using isUnnested.induct with
  | case1 => rfl
  | case2 c rest induction =>
      rw [followedBy, isUnnested]
      exact induction isFlat
  | case3 => cases isFlat

end Pattern

/-! ## Steps on patterns -/

mutual

/-- The leftmost group without groups inside is replaced by each of its
alternatives. -/
inductive Pattern.Steps : Pattern → List Pattern → Prop where
  | plain {c : Char} {rest : Pattern} {results : List Pattern}
      (later : rest.Steps results) :
      Pattern.Steps (.plain c rest) (results.map (.plain c))
  | inside {alternatives : Alternatives} {rest : Pattern}
      {results : List Alternatives} (inner : alternatives.Step results) :
      Pattern.Steps (.group alternatives rest) (results.map (.group · rest))
  | here {alternatives : Alternatives} {rest : Pattern}
      (areFlat : alternatives.areFlat = true) :
      Pattern.Steps (.group alternatives rest)
        (alternatives.toList.map (·.followedBy rest))

inductive Alternatives.Step : Alternatives → List Alternatives → Prop where
  | last {pattern : Pattern} {results : List Pattern}
      (steps : pattern.Steps results) :
      Alternatives.Step (.last pattern) (results.map .last)
  | first {pattern : Pattern} {others : Alternatives} {results : List Pattern}
      (steps : pattern.Steps results) :
      Alternatives.Step (.more pattern others) (results.map (.more · others))
  | later {pattern : Pattern} {others : Alternatives}
      {results : List Alternatives} (isFlat : pattern.isFlat = true)
      (step : others.Step results) :
      Alternatives.Step (.more pattern others) (results.map (.more pattern))

end

mutual

theorem Pattern.isFlat_or_steps : (pattern : Pattern) →
    pattern.isFlat = true ∨ ∃ results, pattern.Steps results
  | .nothing => .inl rfl
  | .plain c rest => by
      rcases rest.isFlat_or_steps with isFlat | ⟨results, steps⟩
      · exact .inl isFlat
      · exact .inr ⟨_, .plain steps⟩
  | .group alternatives rest => by
      rcases alternatives.areFlat_or_step with areFlat | ⟨results, step⟩
      · exact .inr ⟨_, .here areFlat⟩
      · exact .inr ⟨_, .inside step⟩

theorem Alternatives.areFlat_or_step : (alternatives : Alternatives) →
    alternatives.areFlat = true ∨ ∃ results, alternatives.Step results
  | .last pattern => by
      rcases pattern.isFlat_or_steps with isFlat | ⟨results, steps⟩
      · exact .inl isFlat
      · exact .inr ⟨_, .last steps⟩
  | .more pattern others => by
      rcases pattern.isFlat_or_steps with isFlat | ⟨results, steps⟩
      · rcases others.areFlat_or_step with areFlat | ⟨results, step⟩
        · exact .inl (by simp [Alternatives.areFlat, isFlat, areFlat])
        · exact .inr ⟨_, .later isFlat step⟩
      · exact .inr ⟨_, .first steps⟩

end

mutual

/-- The first brace of a pattern with groups is one that opens. -/
theorem Pattern.Steps.inside?_text {inGroup : Bool} (tail : Text) :
    {pattern : Pattern} → {results : List Pattern} → pattern.Steps results →
      pattern.fits inGroup = true → inside? (pattern.text ++ tail) = none
  | .plain c rest, _, .plain later, isFit => by
      simp only [Pattern.fits, Bool.and_eq_true, Bool.not_eq_true'] at isFit
      have found := inside?_append (isPlain_singleton isFit.1.1)
        (rest.text ++ tail)
      rwa [later.inside?_text tail isFit.2] at found
  | .group _ _, _, _, _ => inside?_open _

theorem Alternatives.Step.inside?_text (tail : Text) :
    {alternatives : Alternatives} → {results : List Alternatives} →
      alternatives.Step results → alternatives.fit = true →
      inside? (alternatives.text ++ tail) = none
  | _, _, .last steps, isFit => steps.inside?_text tail isFit
  | .more pattern others, _, .first steps, isFit => by
      simp only [Alternatives.fit, Bool.and_eq_true] at isFit
      rw [Alternatives.text, List.append_assoc]
      exact steps.inside?_text _ isFit.1
  | .more pattern others, _, .later isFlat step, isFit => by
      simp only [Alternatives.fit, Bool.and_eq_true] at isFit
      have found := inside?_append (pattern.isPlain_text_comma isFlat isFit.1)
        (others.text ++ tail)
      rw [step.inside?_text tail isFit.2] at found
      simpa [Alternatives.text] using found

end

mutual

/-- A step on a pattern is the step on its text. -/
theorem Pattern.Steps.choices?_text {inGroup : Bool} (tail : Text) :
    {pattern : Pattern} → {results : List Pattern} → pattern.Steps results →
      pattern.fits inGroup = true →
      choices? (pattern.text ++ tail) = some (results.map (·.text ++ tail))
  | .plain c rest, _, .plain later, isFit => by
      simp only [Pattern.fits, Bool.and_eq_true, Bool.not_eq_true'] at isFit
      have found := choices?_append (isPlain_singleton isFit.1.1)
        (rest.text ++ tail)
      rw [later.choices?_text tail isFit.2] at found
      simpa [Pattern.text, Function.comp_def] using found
  | .group alternatives rest, _, .inside inner, isFit => by
      simp only [Pattern.fits, Bool.and_eq_true] at isFit
      -- The brace of this group is passed over, as another one opens first.
      have notHere := inner.inside?_text ('\x7d' :: rest.text ++ tail) isFit.1
      have found := inner.choices?_text ('\x7d' :: rest.text ++ tail) isFit.1
      rw [Pattern.text, List.cons_append, List.append_assoc,
        choices?_cons_of_none (by rw [if_pos rfl, notHere]), found]
      simp [Pattern.text]
  | .group alternatives rest, _, .here areFlat, isFit => by
      simp only [Pattern.fits, Bool.and_eq_true] at isFit
      rw [Pattern.text, List.cons_append, List.append_assoc, List.cons_append,
        choices?_group (alternatives.isPlain_text areFlat isFit.1),
        alternatives.parts_text areFlat isFit.1]
      simp [Pattern.text_followedBy]

theorem Alternatives.Step.choices?_text (tail : Text) :
    {alternatives : Alternatives} → {results : List Alternatives} →
      alternatives.Step results → alternatives.fit = true →
      choices? (alternatives.text ++ tail) =
        some (results.map (·.text ++ tail))
  | .last pattern, _, .last steps, isFit => by
      rw [Alternatives.text, steps.choices?_text tail isFit]
      simp [Alternatives.text]
  | .more pattern others, _, .first steps, isFit => by
      simp only [Alternatives.fit, Bool.and_eq_true] at isFit
      rw [Alternatives.text, List.append_assoc, steps.choices?_text _ isFit.1]
      simp [Alternatives.text]
  | .more pattern others, _, .later isFlat step, isFit => by
      simp only [Alternatives.fit, Bool.and_eq_true] at isFit
      have found := choices?_append (pattern.isPlain_text_comma isFlat isFit.1)
        (others.text ++ tail)
      rw [step.choices?_text tail isFit.2] at found
      simpa [Alternatives.text, Function.comp_def] using found

end

mutual

theorem Pattern.Steps.fits {inGroup : Bool} :
    {pattern : Pattern} → {results : List Pattern} → pattern.Steps results →
      pattern.fits inGroup = true →
      ∀ result ∈ results, result.fits inGroup = true
  | .plain c rest, _, .plain later, isFit => by
      simp only [Pattern.fits, Bool.and_eq_true] at isFit
      simpa [Pattern.fits, isFit.1] using later.fits isFit.2
  | .group alternatives rest, _, .inside inner, isFit => by
      simp only [Pattern.fits, Bool.and_eq_true] at isFit
      simpa [Pattern.fits, isFit.2] using inner.fit isFit.1
  | .group alternatives rest, _, .here areFlat, isFit => by
      simp only [Pattern.fits, Bool.and_eq_true] at isFit
      intro result member
      obtain ⟨chosen, inList, rfl⟩ := List.mem_map.mp member
      exact Pattern.fits_followedBy
        (Alternatives.fits_of_mem isFit.1 inList) isFit.2

theorem Alternatives.Step.fit :
    {alternatives : Alternatives} → {results : List Alternatives} →
      alternatives.Step results → alternatives.fit = true →
      ∀ result ∈ results, result.fit = true
  | .last pattern, _, .last steps, isFit => by
      simpa [Alternatives.fit] using steps.fits isFit
  | .more pattern others, _, .first steps, isFit => by
      simp only [Alternatives.fit, Bool.and_eq_true] at isFit
      simpa [Alternatives.fit, isFit.2] using steps.fits isFit.1
  | .more pattern others, _, .later isFlat step, isFit => by
      simp only [Alternatives.fit, Bool.and_eq_true] at isFit
      simpa [Alternatives.fit, isFit.1] using step.fit isFit.2

end

end TemplateLint.Braces
