import TemplateLint.Braces

/-!
# Patterns with braces

A pattern is a sequence of plain characters and groups, and a group has
alternatives, each of them a pattern.  The words of a pattern are its meaning.
Every text with balanced braces is the text of a pattern, and no other text is.
-/

namespace TemplateLint.Braces

mutual

/-- A sequence of plain characters and groups. -/
inductive Pattern where
  | nothing
  | plain (c : Char) (rest : Pattern)
  | group (alternatives : Alternatives) (rest : Pattern)

/-- What stands between the commas of a group. -/
inductive Alternatives where
  | last (pattern : Pattern)
  | more (pattern : Pattern) (others : Alternatives)

end

mutual

def Pattern.text : Pattern → Text
  | .nothing => []
  | .plain c rest => c :: rest.text
  | .group alternatives rest =>
      '\x7b' :: (alternatives.text ++ '\x7d' :: rest.text)

def Alternatives.text : Alternatives → Text
  | .last pattern => pattern.text
  | .more pattern others => pattern.text ++ ',' :: others.text

end

mutual

/-- The words that a pattern stands for: a plain character stands for itself,
and a group for what any of its alternatives stands for.  The choice in a group
varies more slowly than those behind it. -/
def Pattern.words : Pattern → List Text
  | .nothing => [[]]
  | .plain c rest => rest.words.map (c :: ·)
  | .group alternatives rest =>
      alternatives.words.flatMap fun choice => rest.words.map (choice ++ ·)

def Alternatives.words : Alternatives → List Text
  | .last pattern => pattern.words
  | .more pattern others => pattern.words ++ others.words

end

mutual

/-- Braces are never plain, and commas only outside of all groups. -/
def Pattern.fits (inGroup : Bool) : Pattern → Bool
  | .nothing => true
  | .plain c rest =>
      !isBrace c && !(inGroup && c == ',') && rest.fits inGroup
  | .group alternatives rest => alternatives.fit && rest.fits inGroup

def Alternatives.fit : Alternatives → Bool
  | .last pattern => pattern.fits true
  | .more pattern others => pattern.fits true && others.fit

end

/-- A text is read as a pattern. -/
def Reads (text : Text) (pattern : Pattern) : Prop :=
  pattern.fits false = true ∧ pattern.text = text

/-! ## Balanced braces -/

/-- Every brace that opens is closed, where some are open already. -/
def closes (opened : Nat) : Text → Bool
  | [] => opened == 0
  | c :: rest =>
      if c = '\x7b' then closes (opened + 1) rest
      else if c = '\x7d' then 0 < opened && closes (opened - 1) rest
      else closes opened rest

/-- Braces are balanced. -/
def isBalanced (text : Text) : Bool := closes 0 text

theorem closes_plain {c : Char} (plain : isBrace c = false) (opened : Nat)
    (rest : Text) : closes opened (c :: rest) = closes opened rest := by
  simp only [isBrace, Bool.or_eq_false_iff, decide_eq_false_iff_not] at plain
  rw [closes, if_neg plain.1, if_neg plain.2]

theorem closes_open (opened : Nat) (rest : Text) :
    closes opened ('\x7b' :: rest) = closes (opened + 1) rest := by
  rw [closes, if_pos rfl]

theorem closes_close (opened : Nat) (rest : Text) :
    closes (opened + 1) ('\x7d' :: rest) = closes opened rest := by
  simp [closes]

theorem closes_zero_close (rest : Text) : closes 0 ('\x7d' :: rest) = false := by
  simp [closes]

mutual

theorem Pattern.closes_text_append (opened : Nat) {inGroup : Bool}
    (tail : Text) : (pattern : Pattern) → pattern.fits inGroup = true →
      closes opened (pattern.text ++ tail) = closes opened tail
  | .nothing, _ => rfl
  | .plain c rest, isFit => by
      simp only [Pattern.fits, Bool.and_eq_true, Bool.not_eq_true'] at isFit
      rw [Pattern.text, List.cons_append, closes_plain isFit.1.1,
        rest.closes_text_append opened tail isFit.2]
  | .group alternatives rest, isFit => by
      simp only [Pattern.fits, Bool.and_eq_true] at isFit
      rw [Pattern.text, List.cons_append, closes_open, List.append_assoc,
        alternatives.closes_text_append (opened + 1) _ isFit.1,
        List.cons_append, closes_close,
        rest.closes_text_append opened tail isFit.2]

theorem Alternatives.closes_text_append (opened : Nat) (tail : Text) :
    (alternatives : Alternatives) → alternatives.fit = true →
      closes opened (alternatives.text ++ tail) = closes opened tail
  | .last pattern, isFit => by
      rw [Alternatives.fit] at isFit
      rw [Alternatives.text, pattern.closes_text_append opened tail isFit]
  | .more pattern others, isFit => by
      simp only [Alternatives.fit, Bool.and_eq_true] at isFit
      rw [Alternatives.text, List.append_assoc,
        pattern.closes_text_append opened _ isFit.1, List.cons_append,
        closes_plain (by decide),
        others.closes_text_append opened tail isFit.2]

end

/-- What follows inside of groups that are open: the rest of a pattern, or the
rest of a group and what follows behind it. -/
inductive Follows : Nat → Text → Prop where
  | outside (pattern : Pattern) (fits : pattern.fits false = true) :
      Follows 0 pattern.text
  | inside (alternatives : Alternatives) {opened : Nat} {rest : Text}
      (fits : alternatives.fit = true) (later : Follows opened rest) :
      Follows (opened + 1) (alternatives.text ++ '\x7d' :: rest)

namespace Follows

variable {opened : Nat} {rest : Text} {c : Char}

theorem plain (isPlain : isBrace c = false) (noComma : c ≠ ',')
    (follows : Follows opened rest) : Follows opened (c :: rest) := by
  cases follows with
  | outside pattern fits =>
      exact outside (.plain c pattern)
        (by simp [Pattern.fits, isPlain, fits])
  | @inside alternatives opened rest fits later =>
      cases alternatives with
      | last pattern =>
          exact inside (.last (.plain c pattern))
            (by simpa [Alternatives.fit, Pattern.fits, isPlain, noComma]
              using fits) later
      | more pattern others =>
          rw [Alternatives.text, List.append_assoc]
          have follows := inside
            (.more (.plain c pattern) others)
            (by simpa [Alternatives.fit, Pattern.fits, isPlain, noComma]
              using fits) later
          simpa [Alternatives.text, Pattern.text] using follows

theorem comma (follows : Follows opened rest) : Follows opened (',' :: rest) := by
  cases follows with
  | outside pattern fits =>
      exact outside (.plain ',' pattern)
        (by simpa [Pattern.fits, isBrace] using fits)
  | @inside alternatives opened rest fits later =>
      exact inside (.more .nothing alternatives)
        (by simpa [Alternatives.fit, Pattern.fits] using fits) later

theorem opening (follows : Follows (opened + 1) rest) :
    Follows opened ('\x7b' :: rest) := by
  cases follows with
  | @inside alternatives _ rest fits later =>
      cases later with
      | outside pattern fitsLater =>
          exact outside (.group alternatives pattern)
            (by simp [Pattern.fits, fits, fitsLater])
      | @inside others opened rest fitsLater later =>
          cases others with
          | last pattern =>
              have follows := inside
                (.last (.group alternatives pattern))
                (by simpa [Alternatives.fit, Pattern.fits, fits]
                  using fitsLater) later
              simpa [Alternatives.text, Pattern.text] using follows
          | more pattern others =>
              have follows := inside
                (.more (.group alternatives pattern) others)
                (by simpa [Alternatives.fit, Pattern.fits, fits]
                  using fitsLater) later
              simpa [Alternatives.text, Pattern.text] using follows

theorem closing (follows : Follows opened rest) :
    Follows (opened + 1) ('\x7d' :: rest) :=
  inside (.last .nothing) rfl follows

end Follows

theorem follows_of_closes {opened : Nat} {text : Text}
    (isClosed : closes opened text = true) : Follows opened text := by
  induction text generalizing opened with
  | nil =>
      obtain rfl : opened = 0 := by simpa [closes] using isClosed
      exact .outside .nothing rfl
  | cons c rest induction =>
      by_cases isOpening : c = '\x7b'
      · subst isOpening
        rw [closes_open] at isClosed
        exact (induction isClosed).opening
      · by_cases isClosing : c = '\x7d'
        · subst isClosing
          cases opened with
          | zero =>
              rw [closes_zero_close] at isClosed
              contradiction
          | succ opened =>
              rw [closes_close] at isClosed
              exact (induction isClosed).closing
        · have plain : isBrace c = false := by
            simp [isBrace, isOpening, isClosing]
          rw [closes_plain plain] at isClosed
          by_cases isComma : c = ','
          · subst isComma
            exact (induction isClosed).comma
          · exact (induction isClosed).plain plain isComma

/-- Exactly the texts with balanced braces are read as patterns. -/
theorem isBalanced_iff_reads {text : Text} :
    isBalanced text = true ↔ ∃ pattern, Reads text pattern := by
  constructor
  · intro isClosed
    cases follows_of_closes isClosed with
    | outside pattern fits => exact ⟨pattern, fits, rfl⟩
  · rintro ⟨pattern, fits, rfl⟩
    have same := pattern.closes_text_append 0 [] fits
    rw [List.append_nil] at same
    rw [isBalanced, same]
    rfl

end TemplateLint.Braces
