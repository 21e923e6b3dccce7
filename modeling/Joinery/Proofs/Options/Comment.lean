import Joinery.Options
import Joinery.Proofs.Text.Spacing

/-!
# Options without a comment

A number sign starts a comment only in front of white space. So no comment starts in a text
without one, nor where another character follows, and such texts are kept.
-/

namespace Joinery
namespace Options

/-- Only a number sign starts a comment. -/
theorem withoutCommentAfter_cons
    {character : Char}
    (different : character ≠ '#')
    (isFree : Bool)
    (rest : Text) :
    withoutCommentAfter isFree (character :: rest) =
      character :: withoutCommentAfter (Text.isBlank character) rest := by
  rw [withoutCommentAfter, startsComment, beq_false_of_ne different, Bool.false_and,
    Bool.and_false, if_neg Bool.false_ne_true]

theorem ne_numberSign {character : Char} (blank : Text.isBlank character = true) :
    character ≠ '#' := by
  rintro rfl
  cases blank

/-- No comment starts in a text, whatever stands around it. -/
def IsUncommented (text : Text) : Prop :=
  ∀ (isFree : Bool) (rest : Text), ∃ isFreeBehind,
    withoutCommentAfter isFree (text ++ rest) = text ++ withoutCommentAfter isFreeBehind rest

namespace IsUncommented

theorem of_not_mem {text : Text} (absent : '#' ∉ text) : IsUncommented text := by
  intro isFree rest
  induction text generalizing isFree with
  | nil => exact ⟨isFree, rfl⟩
  | cons character others inductionHypothesis =>
      rw [List.mem_cons, not_or] at absent
      obtain ⟨isFreeBehind, same⟩ := inductionHypothesis absent.2 (Text.isBlank character)
      refine ⟨isFreeBehind, ?_⟩
      rw [List.cons_append, withoutCommentAfter_cons (Ne.symm absent.1), same, List.cons_append]

theorem append
    {first second : Text}
    (firstUncommented : IsUncommented first)
    (secondUncommented : IsUncommented second) :
    IsUncommented (first ++ second) := by
  intro isFree rest
  obtain ⟨isFreeBetween, firstSame⟩ := firstUncommented isFree (second ++ rest)
  obtain ⟨isFreeBehind, secondSame⟩ := secondUncommented isFreeBetween rest
  refine ⟨isFreeBehind, ?_⟩
  rw [List.append_assoc, firstSame, secondSame, List.append_assoc]

/-- A number sign in front of a character that is no white space starts no comment. -/
theorem numberSign
    {text : Text}
    (nonempty : text ≠ [])
    (solid : Text.startsWith Text.isBlank text = false)
    (uncommented : IsUncommented text) :
    IsUncommented ('#' :: text) := by
  intro isFree rest
  obtain ⟨isFreeBehind, same⟩ := uncommented (Text.isBlank '#') rest
  have starts : startsComment '#' (text ++ rest) = false := by
    cases text with
    | nil => exact absurd rfl nonempty
    | cons first others =>
        rw [Text.startsWith_cons] at solid
        simp [startsComment, solid]
  refine ⟨isFreeBehind, ?_⟩
  rw [List.cons_append, withoutCommentAfter, starts, Bool.and_false, if_neg Bool.false_ne_true,
    same, List.cons_append]

end IsUncommented

/-- A phrase without a comment is kept. -/
theorem withoutComment_eq_self
    {text : Text}
    (uncommented : IsUncommented text)
    (stripped : Text.strip text = text) :
    withoutComment text = text := by
  obtain ⟨isFreeBehind, same⟩ := uncommented true []
  rw [List.append_nil, withoutCommentAfter, List.append_nil] at same
  rw [withoutComment, same, stripped]

/-! ## Comments at the end -/

/-- White space in front of options is no part of them. -/
theorem withoutCommentAfter_append_blank
    {gap : Text}
    (blank : gap.all Text.isBlank = true)
    (text : Text) :
    withoutCommentAfter true (gap ++ text) = gap ++ withoutCommentAfter true text := by
  induction gap with
  | nil => rfl
  | cons character rest inductionHypothesis =>
      rw [List.all_cons, Bool.and_eq_true] at blank
      rw [List.cons_append, withoutCommentAfter_cons (ne_numberSign blank.1), blank.1,
        inductionHypothesis blank.2, List.cons_append]

theorem withoutComment_stripStart (text : Text) :
    withoutComment (Text.stripStart text) = withoutComment text := by
  have whole : text.takeWhile Text.isBlank ++ Text.stripStart text = text :=
    List.takeWhile_append_dropWhile
  have behind := withoutCommentAfter_append_blank
    (@List.all_takeWhile _ Text.isBlank text) (Text.stripStart text)
  rw [whole] at behind
  rw [withoutComment, withoutComment, behind, Text.strip_append_left List.all_takeWhile]

/-- A comment behind white space is no part of a text, and neither is the white space. -/
theorem exists_withoutCommentAfter_append
    {text gap comment : Text}
    (noSign : text.getLast? ≠ some '#')
    (spaced : gap ≠ [])
    (blank : gap.all Text.isBlank = true)
    (isFree : Bool) :
    ∃ trail, trail.all Text.isBlank = true ∧
      withoutCommentAfter isFree (text ++ (gap ++ '#' :: ' ' :: comment)) =
        withoutCommentAfter isFree text ++ trail := by
  induction text generalizing isFree with
  | nil =>
      refine ⟨gap, blank, ?_⟩
      cases gap with
      | nil => exact absurd rfl spaced
      | cons first others =>
          rw [List.all_cons, Bool.and_eq_true] at blank
          have none : withoutCommentAfter true ('#' :: ' ' :: comment) = [] := rfl
          change withoutCommentAfter isFree (first :: (others ++ '#' :: ' ' :: comment)) =
            first :: others
          rw [withoutCommentAfter_cons (ne_numberSign blank.1), blank.1,
            withoutCommentAfter_append_blank blank.2, none, List.append_nil]
  | cons character rest inductionHypothesis =>
      have sameStart : startsComment character (rest ++ (gap ++ '#' :: ' ' :: comment)) =
          startsComment character rest := by
        cases rest with
        | nil =>
            have different : (character == '#') = false := by simpa using noSign
            rw [startsComment, startsComment, different, Bool.false_and, Bool.false_and]
        | cons next further => rfl
      rw [List.cons_append, withoutCommentAfter, withoutCommentAfter, sameStart]
      split
      · exact ⟨[], rfl, rfl⟩
      · have noSignLater : rest.getLast? ≠ some '#' := by
          cases rest with
          | nil => simp
          | cons next further => rwa [List.getLast?_cons_cons] at noSign
        obtain ⟨trail, trailBlank, same⟩ :=
          inductionHypothesis noSignLater (Text.isBlank character)
        exact ⟨trail, trailBlank, by rw [same]; rfl⟩

/-- A comment at the end of options changes nothing. -/
theorem withoutComment_append
    {text gap comment : Text}
    (noSign : text.getLast? ≠ some '#')
    (spaced : gap ≠ [])
    (blank : gap.all Text.isBlank = true) :
    withoutComment (text ++ (gap ++ '#' :: ' ' :: comment)) = withoutComment text := by
  obtain ⟨trail, trailBlank, same⟩ :=
    exists_withoutCommentAfter_append noSign spaced blank true
  rw [withoutComment, withoutComment, same, Text.strip_append_right trailBlank]

end Options
end Joinery
