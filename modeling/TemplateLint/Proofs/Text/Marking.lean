import TemplateLint.Proofs.Text.LowerCase
import TemplateLint.Proofs.Text.Lines

/-!
# Marks in a text

A mark stands behind some characters of a text, chosen by the text that begins
with them.  Which characters these are can be said position by position, and
marks between characters that have no influence on the case of others do not
change how a text is lower-cased.
-/

namespace TemplateLint.Text

/-! ## Texts spelled anew -/

/-- Spells each character anew, between the reversed text before it and the
text after it. -/
def respellFrom (spell : Text → Char → Text → Text) (before : Text) :
    Text → Text
  | [] => []
  | c :: after => spell before c after ++ respellFrom spell (c :: before) after

def respell (spell : Text → Char → Text → Text) (text : Text) : Text :=
  respellFrom spell [] text

/-- The text around each character is told by its position. -/
theorem respell_eq_flatMap (spell : Text → Char → Text → Text) (text : Text) :
    respell spell text = text.zipIdx.flatMap fun entry =>
      spell (text.take entry.2).reverse entry.1 (text.drop (entry.2 + 1)) := by
  suffices anywhere : ∀ before after, text = before ++ after →
      respellFrom spell before.reverse after =
        (after.zipIdx before.length).flatMap fun entry => spell
          (text.take entry.2).reverse entry.1 (text.drop (entry.2 + 1)) from
    anywhere [] text rfl
  intro before after
  induction after generalizing before with
  | nil => intro _; rfl
  | cons c after induction =>
      intro whole
      have later := induction (before ++ [c]) (by simpa using whole)
      rw [List.reverse_append, List.length_append] at later
      rw [respellFrom, List.zipIdx_cons, List.flatMap_cons]
      have front : text.take before.length = before := by
        rw [whole, List.take_left]
      have back : text.drop (before.length + 1) = after := by
        rw [whole, ← List.drop_drop, List.drop_left]
        rfl
      rw [front, back]
      exact congrArg (spell before.reverse c after ++ ·) later

/-! ## Marked texts -/

/-- A text with a mark behind each character at which what follows, the
character included, passes a test. -/
def marked (ends : Text → Bool) (mark : Char) : Text → Text
  | [] => []
  | c :: rest =>
      if ends (c :: rest) then c :: mark :: marked ends mark rest
      else c :: marked ends mark rest

variable {ends : Text → Bool} {mark c : Char} {text rest : Text}

theorem marked_of_ends (ending : ends (c :: rest) = true) :
    marked ends mark (c :: rest) = c :: mark :: marked ends mark rest := by
  rw [marked, if_pos ending]

theorem marked_of_not_ends (inside : ends (c :: rest) = false) :
    marked ends mark (c :: rest) = c :: marked ends mark rest := by
  rw [marked, if_neg (Bool.eq_false_iff.mp inside)]

theorem marked_eq_respellFrom (before : Text) :
    marked ends mark text = respellFrom (fun _ c after =>
      c :: if ends (c :: after) then [mark] else []) before text := by
  induction text generalizing before with
  | nil => rfl
  | cons c rest induction =>
      rw [marked, respellFrom, induction (c :: before)]
      split <;> rfl

end TemplateLint.Text

namespace TemplateLint.LowerCase

open Text

theorem lowerFrom_eq_respellFrom (before text : Text) :
    lowerFrom before text = respellFrom inContext before text := by
  induction text generalizing before with
  | nil => rfl
  | cons c after induction => rw [lowerFrom, respellFrom, induction]

/-! ## Marks without influence -/

/-- A character whose small letter does not depend on its neighbours, and
which no character looks past to find a neighbour of its own. -/
structure IsFirm (c : Char) : Prop where
  noSigma : c ≠ 'Σ'
  notIgnorable : Character.isCaseIgnorable c = false

variable {ends : Text → Bool} {mark c : Char} {rest others : Text}

theorem meetsCased_cons_of_ignorable
    (ignorable : Character.isCaseIgnorable c = true) :
    meetsCased (c :: rest) = meetsCased rest := by
  rw [meetsCased, List.dropWhile_cons_of_pos ignorable, meetsCased]

theorem meetsCased_cons_of_not_ignorable
    (seen : Character.isCaseIgnorable c = false) :
    meetsCased (c :: rest) = Character.isCased c := by
  rw [meetsCased, List.dropWhile_cons_of_neg (Bool.eq_false_iff.mp seen)]

theorem meetsCased_cons_congr
    (alike : meetsCased rest = meetsCased others ∨ IsFirm c) :
    meetsCased (c :: rest) = meetsCased (c :: others) := by
  cases seen : Character.isCaseIgnorable c with
  | true =>
      have same := alike.resolve_right fun firm => by
        rw [firm.notIgnorable] at seen
        contradiction
      rw [meetsCased_cons_of_ignorable seen, same,
        meetsCased_cons_of_ignorable seen]
  | false =>
      rw [meetsCased_cons_of_not_ignorable seen,
        meetsCased_cons_of_not_ignorable seen]

theorem inContext_congr {before after later : Text}
    (alike : c = 'Σ' →
      meetsCased before = meetsCased others ∧
        meetsCased after = meetsCased later) :
    inContext before c after = inContext others c later := by
  rw [inContext, inContext]
  split
  next sigma => rw [(alike sigma).1, (alike sigma).2]
  next => rfl

/-- The marks stand between firm characters only. -/
def MarksFirm (ends : Text → Bool) : Prop :=
  ∀ c rest, ends (c :: rest) = true → IsFirm c ∧ FirstIs IsFirm rest

theorem meetsCased_marked (firm : MarksFirm ends) (text : Text) :
    meetsCased (marked ends mark text) = meetsCased text := by
  induction text with
  | nil => rfl
  | cons c rest induction =>
      cases ending : ends (c :: rest) with
      | true =>
          rw [marked_of_ends ending]
          exact meetsCased_cons_congr (.inr (firm c rest ending).1)
      | false =>
          rw [marked_of_not_ends ending]
          exact meetsCased_cons_congr (.inl induction)

/-- Lower case of a character, and a mark if something ends there. -/
def markedSmall (ends : Text → Bool) (mark : Char) (before : Text) (c : Char)
    (after : Text) : Text :=
  inContext before c after ++ if ends (c :: after) then [mark] else []

/-- The reversed texts before a character differ by the marks in them.  Right
behind a mark this may show, but only to a character that does not look
back. -/
theorem lowerFrom_marked (firm : MarksFirm ends)
    (settled : IsSettled mark.toNat) (text : Text) :
    ∀ markedBefore before,
      meetsCased markedBefore = meetsCased before ∨ FirstIs IsFirm text →
      lowerFrom markedBefore (marked ends mark text) =
        respellFrom (markedSmall ends mark) before text := by
  induction text with
  | nil => exact fun _ _ _ => rfl
  | cons c rest induction =>
      intro markedBefore before alike
      rw [firstIs_cons] at alike
      rw [respellFrom, markedSmall]
      cases ending : ends (c :: rest) with
      | true =>
          obtain ⟨firmHere, firmNext⟩ := firm c rest ending
          have here (after : Text) :
              inContext markedBefore c after = inContext before c rest :=
            inContext_congr fun sigma => absurd sigma firmHere.noSigma
          rw [marked_of_ends ending, lowerFrom, lowerFrom, here,
            inContext_eq_self settled,
            induction _ (c :: before) (.inr firmNext), if_pos rfl,
            List.append_assoc]
      | false =>
          have here : inContext markedBefore c (marked ends mark rest) =
              inContext before c rest :=
            inContext_congr fun sigma =>
              ⟨alike.resolve_right fun firmHere => firmHere.noSigma sigma,
                meetsCased_marked firm rest⟩
          have next := meetsCased_cons_congr alike
          rw [marked_of_not_ends ending, lowerFrom, here,
            induction _ (c :: before) (.inl next), if_neg Bool.false_ne_true,
            List.append_nil]

/-- The marks stay where they are while the rest becomes what it would be
without them. -/
theorem lower_marked (firm : MarksFirm ends) (settled : IsSettled mark.toNat)
    (text : Text) :
    lower (marked ends mark text) = respell (markedSmall ends mark) text :=
  lowerFrom_marked firm settled text [] [] (.inl rfl)

end TemplateLint.LowerCase
