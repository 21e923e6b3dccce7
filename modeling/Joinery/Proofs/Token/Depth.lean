import Joinery.Token

/-!
# Bracket depths

The depth behind a text is the number of its opening brackets less the number of its
closing ones. So a text ends at the depth at which it starts exactly if it has as many of
both.
-/

namespace Joinery

/-- A text with as many opening as closing brackets. -/
def Text.IsLevel (text : Text) : Prop :=
  text.count '{' + text.count '(' = text.count '}' + text.count ')'

instance (text : Text) : Decidable (Text.IsLevel text) :=
  inferInstanceAs (Decidable (_ = _))

namespace Token

/-- A character of a class without brackets does not change the depth. -/
theorem depthChange_eq_zero
    {holds : Char → Bool}
    {character : Char}
    (held : holds character = true)
    (noBrackets : ['{', '(', '}', ')'].all (!holds ·) = true) :
    depthChange character = 0 := by
  have different (bracket : Char) (isBracket : bracket ∈ ['{', '(', '}', ')']) :
      character ≠ bracket := by
    rintro rfl
    simpa [held] using List.all_eq_true.mp noBrackets _ isBracket
  unfold depthChange
  rw [if_neg (by simp [different]), if_neg (by simp [different])]

theorem depthChange_of_isBlank
    {character : Char}
    (blank : Text.isBlank character = true) :
    depthChange character = 0 :=
  depthChange_eq_zero blank (by decide)

theorem depthOf_append (first second : Text) :
    depthOf (first ++ second) = depthOf first + depthOf second := by
  induction first with
  | nil => exact (Int.zero_add _).symm
  | cons character others inductionHypothesis =>
      rw [List.cons_append, depthOf, depthOf, inductionHypothesis, Int.add_assoc]

theorem depthOf_reverse (text : Text) : depthOf text.reverse = depthOf text := by
  induction text with
  | nil => rfl
  | cons character others inductionHypothesis =>
      rw [List.reverse_cons, depthOf_append, inductionHypothesis, depthOf, depthOf, depthOf,
        Int.add_zero, Int.add_comm]

theorem depthOf_eq_zero
    {holds : Char → Bool}
    {text : Text}
    (all : ∀ character ∈ text, holds character = true)
    (noBrackets : ['{', '(', '}', ')'].all (!holds ·) = true) :
    depthOf text = 0 := by
  induction text with
  | nil => rfl
  | cons character others inductionHypothesis =>
      obtain ⟨first, rest⟩ := List.forall_mem_cons.mp all
      rw [depthOf, depthChange_eq_zero first noBrackets, inductionHypothesis rest, Int.zero_add]

theorem depthOf_of_blanks {gap : Text} (blank : gap.all Text.isBlank = true) :
    depthOf gap = 0 :=
  depthOf_eq_zero (List.all_eq_true.mp blank) (by decide)

/-- The characters of a word do not change the depth. -/
theorem depthOf_of_isAsciiWordCharacter
    {text : Text}
    (isWord : ∀ character ∈ text, Text.isAsciiWordCharacter character = true) :
    depthOf text = 0 :=
  depthOf_eq_zero isWord (by decide)

/-- The depth counts the brackets. -/
theorem depthOf_eq_count (text : Text) :
    depthOf text =
      ((text.count '{' + text.count '(' : Nat) : Int) -
        (text.count '}' + text.count ')' : Nat) := by
  induction text with
  | nil => rfl
  | cons character others inductionHypothesis =>
      rw [depthOf, inductionHypothesis, depthChange]
      simp only [List.count_cons, beq_iff_eq]
      split
      · grind
      · grind

/-- Depth in front of an offset of a text. -/
def depthAt (text : Text) (offset : Nat) : Int := depthOf (text.take offset)

theorem depthAt_length_append (front rest : Text) :
    depthAt (front ++ rest) front.length = depthOf front := by
  rw [depthAt, List.take_left]

theorem depthOf_eq_zero_iff (text : Text) : depthOf text = 0 ↔ Text.IsLevel text := by
  rw [depthOf_eq_count, Text.IsLevel]
  omega

end Token
end Joinery
