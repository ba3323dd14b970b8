import Mathlib.Data.List.Basic
import TemplateLint.Proofs.Braces.Steps

/-!
# The language of a pattern

A step keeps the words of a pattern, so that the expansion ends with exactly
these.  A word can come more than once, as every alternative that stands beside
a replaced group is kept with each of its choices.
-/

namespace TemplateLint.Braces

theorem Alternatives.toList_ne_nil (alternatives : Alternatives) :
    alternatives.toList ≠ [] := by
  cases alternatives with
  | last pattern => exact List.cons_ne_nil _ _
  | more pattern others => exact List.cons_ne_nil _ _

mutual

/-- Every group has an alternative, though it may be empty. -/
theorem Pattern.Steps.results_ne_nil : {pattern : Pattern} →
    {results : List Pattern} → pattern.Steps results → results ≠ []
  | _, _, .plain later => List.map_eq_nil_iff.not.mpr later.results_ne_nil
  | _, _, .inside inner => List.map_eq_nil_iff.not.mpr inner.results_ne_nil
  | .group alternatives _, _, .here _ =>
      List.map_eq_nil_iff.not.mpr alternatives.toList_ne_nil

theorem Alternatives.Step.results_ne_nil : {alternatives : Alternatives} →
    {results : List Alternatives} → alternatives.Step results → results ≠ []
  | _, _, .last steps => List.map_eq_nil_iff.not.mpr steps.results_ne_nil
  | _, _, .first steps => List.map_eq_nil_iff.not.mpr steps.results_ne_nil
  | _, _, .later _ step => List.map_eq_nil_iff.not.mpr step.results_ne_nil

end

theorem Pattern.words_group (alternatives : Alternatives) (rest : Pattern) :
    (Pattern.group alternatives rest).words =
      (alternatives.toList.map (·.followedBy rest)).flatMap Pattern.words := by
  simp [Pattern.words, Alternatives.words_eq_flatMap, Pattern.words_followedBy,
    List.flatMap_map, List.flatMap_assoc]

mutual

/-- The words of the results are those of the pattern. -/
theorem Pattern.Steps.mem_words_iff : {pattern : Pattern} →
    {results : List Pattern} → pattern.Steps results → {word : Text} →
      (word ∈ pattern.words ↔ ∃ result ∈ results, word ∈ result.words)
  | .plain c rest, _, .plain later, word => by
      simp only [Pattern.words, List.mem_map, exists_exists_and_eq_and]
      constructor
      · rintro ⟨front, member, rfl⟩
        obtain ⟨result, inResults, inWords⟩ := later.mem_words_iff.mp member
        exact ⟨result, inResults, front, inWords, rfl⟩
      · rintro ⟨result, inResults, front, inWords, rfl⟩
        exact ⟨front, later.mem_words_iff.mpr ⟨result, inResults, inWords⟩, rfl⟩
  | .group alternatives rest, _, .inside inner, word => by
      simp only [Pattern.words, List.mem_map, exists_exists_and_eq_and, List.mem_flatMap]
      constructor
      · rintro ⟨choice, member, behind⟩
        obtain ⟨result, inResults, inWords⟩ := inner.mem_words_iff.mp member
        exact ⟨result, inResults, choice, inWords, behind⟩
      · rintro ⟨result, inResults, choice, inWords, behind⟩
        exact ⟨choice, inner.mem_words_iff.mpr ⟨result, inResults, inWords⟩,
          behind⟩
  | .group alternatives rest, _, .here _, word => by
      rw [Pattern.words_group, List.mem_flatMap]

theorem Alternatives.Step.mem_words_iff : {alternatives : Alternatives} →
    {results : List Alternatives} → alternatives.Step results → {word : Text} →
      (word ∈ alternatives.words ↔ ∃ result ∈ results, word ∈ result.words)
  | .last pattern, _, .last steps, word => by
      simp only [Alternatives.words, List.mem_map, exists_exists_and_eq_and]
      exact steps.mem_words_iff
  | .more pattern others, _, .first steps, word => by
      -- The words of the other alternatives are in every result, so that there
      -- has to be one.
      obtain ⟨some, member⟩ := List.exists_mem_of_ne_nil _ steps.results_ne_nil
      simp only [Alternatives.words, List.mem_map, exists_exists_and_eq_and, List.mem_append,
        steps.mem_words_iff]
      constructor
      · rintro (⟨result, inResults, inWords⟩ | inOthers)
        · exact ⟨result, inResults, .inl inWords⟩
        · exact ⟨some, member, .inr inOthers⟩
      · rintro ⟨result, inResults, inWords | inOthers⟩
        · exact .inl ⟨result, inResults, inWords⟩
        · exact .inr inOthers
  | .more pattern others, _, .later _ step, word => by
      obtain ⟨some, member⟩ := List.exists_mem_of_ne_nil _ step.results_ne_nil
      simp only [Alternatives.words, List.mem_map, exists_exists_and_eq_and, List.mem_append,
        step.mem_words_iff]
      constructor
      · rintro (inFirst | ⟨result, inResults, inWords⟩)
        · exact ⟨some, member, .inl inFirst⟩
        · exact ⟨result, inResults, .inr inWords⟩
      · rintro ⟨result, inResults, inFirst | inWords⟩
        · exact .inl inFirst
        · exact .inr ⟨result, inResults, inWords⟩

end

theorem Alternatives.Step.not_areFlat {alternatives : Alternatives}
    {results : List Alternatives} (step : alternatives.Step results)
    (isFit : alternatives.fit = true) : alternatives.areFlat ≠ true := by
  intro areFlat
  have noChoices := choices?_of_isPlain (alternatives.isPlain_text areFlat isFit)
  have found := step.choices?_text [] isFit
  rw [List.append_nil, noChoices] at found
  cases found

/-- Without nesting, the words keep their order too. -/
theorem Pattern.Steps.words_eq_flatMap {inGroup : Bool} {pattern : Pattern}
    {results : List Pattern} (steps : pattern.Steps results)
    (isFit : pattern.fits inGroup = true)
    (unnested : pattern.isUnnested = true) :
    pattern.words = results.flatMap Pattern.words ∧
      ∀ result ∈ results, result.isUnnested = true := by
  cases steps with
  | plain later =>
      simp only [Pattern.fits, Bool.and_eq_true] at isFit
      obtain ⟨same, unnestedLater⟩ := later.words_eq_flatMap isFit.2 unnested
      constructor
      · simp [Pattern.words, same, List.map_flatMap, List.flatMap_map]
      · simpa [Pattern.isUnnested] using unnestedLater
  | inside inner =>
      simp only [Pattern.fits, Bool.and_eq_true] at isFit
      simp only [Pattern.isUnnested, Bool.and_eq_true] at unnested
      exact absurd unnested.1 (inner.not_areFlat isFit.1)
  | here areFlat =>
      simp only [Pattern.isUnnested, Bool.and_eq_true] at unnested
      refine ⟨Pattern.words_group _ _, fun result member => ?_⟩
      obtain ⟨chosen, inList, rfl⟩ := List.mem_map.mp member
      rw [Pattern.isUnnested_followedBy (Alternatives.isFlat_of_mem areFlat inList)]
      exact unnested.2

/-! ## The expansion -/

/-- A step on a text that is read as a pattern is one on the pattern. -/
theorem Reads.step {text : Text} {pattern : Pattern} {group : Group}
    (reads : Reads text pattern) (found : group? text = some group) :
    ∃ results, pattern.Steps results ∧
      group.choices = results.map Pattern.text ∧
      ∀ result ∈ results, Reads result.text result := by
  obtain ⟨isFit, rfl⟩ := reads
  rcases pattern.isFlat_or_steps with isFlat | ⟨results, steps⟩
  · have noChoices := choices?_of_isPlain (pattern.isPlain_text isFlat isFit)
    rw [choices?, found] at noChoices
    cases noChoices
  · have same := steps.choices?_text [] isFit
    simp only [List.append_nil] at same
    rw [choices?, found] at same
    exact ⟨results, steps, Option.some.inj same,
      fun result member => ⟨steps.fits isFit result member, rfl⟩⟩

theorem Reads.words_of_done {text : Text} {pattern : Pattern}
    (reads : Reads text pattern) (noGroup : group? text = none) :
    pattern.words = [text] := by
  obtain ⟨isFit, rfl⟩ := reads
  rcases pattern.isFlat_or_steps with isFlat | ⟨results, steps⟩
  · exact Pattern.words_of_isFlat isFlat
  · have found := steps.choices?_text [] isFit
    rw [List.append_nil, choices?, noGroup] at found
    cases found

/-- A run on a text ends with the words of a pattern that it is read as. -/
theorem Expands.mem_iff {text word : Text} {words : List Text}
    (expands : Expands text words) {pattern : Pattern}
    (reads : Reads text pattern) : word ∈ words ↔ word ∈ pattern.words := by
  -- By induction on the run, for any pattern: its choices are read as the
  -- results of a step on the pattern, not as the pattern itself.
  induction expands generalizing pattern with
  | done noGroup => rw [reads.words_of_done noGroup]
  | @step text group words found runs induction =>
      obtain ⟨results, steps, choices, read⟩ := reads.step found
      rw [steps.mem_words_iff, choices, List.flatMap_map, List.mem_flatMap]
      have inChoices : ∀ result ∈ results, result.text ∈ group.choices := by
        intro result member
        rw [choices]
        exact List.mem_map_of_mem member
      constructor
      · rintro ⟨result, member, inWords⟩
        exact ⟨result, member,
          (induction _ (inChoices result member) (read result member)).mp inWords⟩
      · rintro ⟨result, member, inWords⟩
        exact ⟨result, member,
          (induction _ (inChoices result member) (read result member)).mpr inWords⟩

/-- Without nesting, a run ends with the words in their order. -/
theorem Expands.eq_words {text : Text} {words : List Text}
    (expands : Expands text words) {pattern : Pattern}
    (reads : Reads text pattern) (unnested : pattern.isUnnested = true) :
    words = pattern.words := by
  induction expands generalizing pattern with
  | done noGroup => rw [reads.words_of_done noGroup]
  | @step text group words found runs induction =>
      obtain ⟨results, steps, choices, read⟩ := reads.step found
      obtain ⟨same, unnestedResults⟩ := steps.words_eq_flatMap reads.1 unnested
      rw [same, choices, List.flatMap_map]
      apply List.flatMap_congr
      intro result member
      have inChoices : result.text ∈ group.choices := by
        rw [choices]
        exact List.mem_map_of_mem member
      exact induction _ inChoices (read result member)
        (unnestedResults result member)

/-- A pattern with balanced braces expands, after finitely many steps, to the
words that it stands for, and in their order where no group has groups inside. -/
theorem expand_finds_words {text : Text} (balanced : isBalanced text = true) :
    Expands text (expand text) ∧
      (∃ pattern, Reads text pattern) ∧
      ∀ pattern, Reads text pattern →
        (∀ word, word ∈ expand text ↔ word ∈ pattern.words) ∧
        (pattern.isUnnested = true → expand text = pattern.words) :=
  ⟨expands_expand text, isBalanced_iff_reads.mp balanced,
    fun _ reads => ⟨fun _ => (expands_expand text).mem_iff reads,
      (expands_expand text).eq_words reads⟩⟩

example : expand "\x7ba,b\x7d/\x7bc,d\x7d".toList =
    ["a/c".toList, "a/d".toList, "b/c".toList, "b/d".toList] := by decide

/-- One alternative beside a group inside is found once for each choice there. -/
theorem expand_finds_words_in_nested_group :
    isBalanced "x\x7ba,\x7bb,\x7dc\x7d".toList = true ∧
      expand "x\x7ba,\x7bb,\x7dc\x7d".toList =
        ["xa".toList, "xbc".toList, "xa".toList, "xc".toList] ∧
      ∃ pattern, Reads "x\x7ba,\x7bb,\x7dc\x7d".toList pattern ∧
        pattern.words = ["xa".toList, "xbc".toList, "xc".toList] ∧
        ∀ word, word ∈ expand "x\x7ba,\x7bb,\x7dc\x7d".toList ↔
          word ∈ pattern.words := by
  have balanced : isBalanced "x\x7ba,\x7bb,\x7dc\x7d".toList = true := by decide
  have reads : Reads "x\x7ba,\x7bb,\x7dc\x7d".toList
      (.plain 'x' (.group
        (.more (.plain 'a' .nothing)
          (.last (.group (.more (.plain 'b' .nothing) (.last .nothing))
            (.plain 'c' .nothing))))
        .nothing)) := by
    constructor <;> decide
  have found := (expand_finds_words balanced).2.2 _ reads
  exact ⟨balanced, by decide, _, reads, by decide, found.1⟩

end TemplateLint.Braces
