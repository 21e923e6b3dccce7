import Joinery.Proofs.Text.Spacing

/-!
# Texts that differ in white space only

Two texts are respaced if they have the same characters in the same order, and white space
at the same places, of which there may be more or less or another kind. A reader respects
this if it finds alike pieces in respaced texts. So what is read of a text piece by piece is
read of every respaced text.
-/

namespace Joinery
namespace Text

/-- White space between two characters: at least one, and nothing else. -/
structure IsGap (gap : Text) : Prop where
  nonempty : gap ≠ []
  blank : gap.all isBlank = true

namespace IsGap

variable {gap : Text}

theorem reverse (isGap : IsGap gap) : IsGap gap.reverse :=
  ⟨fun empty => isGap.nonempty (List.reverse_eq_nil_iff.mp empty),
    List.all_reverse.trans isGap.blank⟩

theorem of_isBlank {character : Char} (blank : isBlank character = true) : IsGap [character] :=
  ⟨List.cons_ne_nil _ _, by simp [blank]⟩

theorem startsWith_isBlank (isGap : IsGap gap) (rest : Text) :
    startsWith isBlank (gap ++ rest) = true := by
  obtain ⟨nonempty, blank⟩ := isGap
  cases gap with
  | nil => exact absurd rfl nonempty
  | cons character others => exact (Bool.and_eq_true_iff.mp blank).1

/-- White space starts no run of characters of a kind without white space. -/
theorem startsWith_eq_false
    {holds : Char → Bool}
    (apart : ∀ character, isBlank character = true → holds character = false)
    (isGap : IsGap gap)
    (rest : Text) :
    startsWith holds (gap ++ rest) = false := by
  have starts := isGap.startsWith_isBlank rest
  cases whole : gap ++ rest with
  | nil => rfl
  | cons character others =>
      rw [whole] at starts
      exact apart character starts

end IsGap

/-- Two texts with the same characters in their order, and white space between the same
ones. -/
inductive Respaced : Text → Text → Prop
  | nil : Respaced [] []
  | solid
      {first second : Text}
      (character : Char)
      (isSolid : isBlank character = false)
      (rest : Respaced first second) :
      Respaced (character :: first) (character :: second)
  | gap
      {left right first second : Text}
      (leftGap : IsGap left)
      (rightGap : IsGap right)
      (rest : Respaced first second) :
      Respaced (left ++ first) (right ++ second)

namespace Respaced

variable {first second : Text}

theorem refl (text : Text) : Respaced text text := by
  induction text with
  | nil => exact .nil
  | cons character rest inductionHypothesis =>
      cases blank : isBlank character with
      | false => exact .solid character blank inductionHypothesis
      | true => exact .gap (.of_isBlank blank) (.of_isBlank blank) inductionHypothesis

theorem symm (respaced : Respaced first second) : Respaced second first := by
  induction respaced with
  | nil => exact .nil
  | solid character isSolid rest inductionHypothesis =>
      exact .solid character isSolid inductionHypothesis
  | gap leftGap rightGap rest inductionHypothesis =>
      exact .gap rightGap leftGap inductionHypothesis

theorem append
    {third fourth : Text}
    (front : Respaced first second)
    (rear : Respaced third fourth) :
    Respaced (first ++ third) (second ++ fourth) := by
  induction front with
  | nil => exact rear
  | solid character isSolid rest inductionHypothesis =>
      exact .solid character isSolid inductionHypothesis
  | gap leftGap rightGap rest inductionHypothesis =>
      rw [List.append_assoc, List.append_assoc]
      exact .gap leftGap rightGap inductionHypothesis

theorem of_gaps
    {left right : Text}
    (leftGap : IsGap left)
    (rightGap : IsGap right) :
    Respaced left right := by
  simpa using gap leftGap rightGap .nil

theorem reverse (respaced : Respaced first second) :
    Respaced first.reverse second.reverse := by
  induction respaced with
  | nil => exact .nil
  | solid character isSolid rest inductionHypothesis =>
      rw [List.reverse_cons, List.reverse_cons]
      exact inductionHypothesis.append (refl _)
  | gap leftGap rightGap rest inductionHypothesis =>
      rw [List.reverse_append, List.reverse_append]
      exact inductionHypothesis.append (of_gaps leftGap.reverse rightGap.reverse)

/-! ## Starts -/

theorem startsWith_isBlank_eq (respaced : Respaced first second) :
    startsWith isBlank first = startsWith isBlank second := by
  cases respaced with
  | nil => rfl
  | solid character isSolid rest => rfl
  | gap leftGap rightGap rest =>
      rw [leftGap.startsWith_isBlank, rightGap.startsWith_isBlank]

/-- A character that is no white space starts both of two respaced texts. -/
theorem exists_cons
    {character : Char}
    {rest : Text}
    (respaced : Respaced (character :: rest) second)
    (isSolid : isBlank character = false) :
    ∃ others, second = character :: others ∧ Respaced rest others := by
  generalize whole : character :: rest = text at respaced
  cases respaced with
  | nil => cases whole
  | solid other otherSolid further =>
      obtain ⟨rfl, rfl⟩ := List.cons.inj whole
      exact ⟨_, rfl, further⟩
  | gap leftGap rightGap further =>
      have starts := congrArg (startsWith isBlank) whole
      rw [leftGap.startsWith_isBlank, startsWith_cons, isSolid] at starts
      cases starts

/-- Both of two respaced texts start with a character that is no white space, or neither
does. -/
theorem exists_cons_or
    {character : Char}
    (isSolid : isBlank character = false)
    (respaced : Respaced first second) :
    (∃ rest others, first = character :: rest ∧ second = character :: others ∧
      Respaced rest others) ∨
      (first.head? ≠ some character ∧ second.head? ≠ some character) := by
  by_cases starts : first.head? = some character
  · obtain ⟨rest, rfl⟩ := List.head?_eq_some_iff.mp starts
    obtain ⟨others, rfl, further⟩ := respaced.exists_cons isSolid
    exact Or.inl ⟨rest, others, rfl, rfl, further⟩
  · refine Or.inr ⟨starts, fun otherStarts => starts ?_⟩
    obtain ⟨others, rfl⟩ := List.head?_eq_some_iff.mp otherStarts
    obtain ⟨rest, rfl, -⟩ := respaced.symm.exists_cons isSolid
    rfl

theorem startsWith_eq
    {holds : Char → Bool}
    (apart : ∀ character, isBlank character = true → holds character = false)
    (respaced : Respaced first second) :
    startsWith holds first = startsWith holds second := by
  cases respaced with
  | nil => rfl
  | solid character isSolid rest => rfl
  | gap leftGap rightGap rest =>
      rw [leftGap.startsWith_eq_false apart, rightGap.startsWith_eq_false apart]

theorem eq_nil (respaced : Respaced [] second) : second = [] := by
  generalize whole : [] = text at respaced
  cases respaced with
  | nil => rfl
  | solid character isSolid rest => cases whole
  | gap leftGap rightGap rest =>
      exact absurd (List.append_eq_nil_iff.mp whole.symm).1 leftGap.nonempty

/-- Respaced texts start with the same run of characters of a kind without white space. -/
theorem exists_takeWhile
    {holds : Char → Bool}
    (apart : ∀ character, isBlank character = true → holds character = false)
    (respaced : Respaced first second) :
    ∃ run rest others, first = run ++ rest ∧ second = run ++ others ∧ Respaced rest others ∧
      first.takeWhile holds = run ∧ second.takeWhile holds = run := by
  induction respaced with
  | nil => exact ⟨[], [], [], rfl, rfl, .nil, rfl, rfl⟩
  | solid character isSolid behind inductionHypothesis =>
      cases matching : holds character with
      | false =>
          exact ⟨[], _, _, rfl, rfl, .solid character isSolid behind,
            List.takeWhile_cons_of_neg (by simp [matching]),
            List.takeWhile_cons_of_neg (by simp [matching])⟩
      | true =>
          obtain ⟨run, rest, others, rfl, rfl, respaced, taken, otherTaken⟩ := inductionHypothesis
          exact ⟨character :: run, rest, others, rfl, rfl, respaced,
            by rw [List.takeWhile_cons_of_pos matching, taken],
            by rw [List.takeWhile_cons_of_pos matching, otherTaken]⟩
  | gap leftGap rightGap behind inductionHypothesis =>
      exact ⟨[], _, _, rfl, rfl, .gap leftGap rightGap behind,
        takeWhile_eq_nil (leftGap.startsWith_eq_false apart _),
        takeWhile_eq_nil (rightGap.startsWith_eq_false apart _)⟩

/-- A text that respaces two parts around a character has such parts itself. -/
theorem exists_append_cons
    {character : Char}
    {part rest : Text}
    (isSolid : isBlank character = false)
    (respaced : Respaced (part ++ character :: rest) second) :
    ∃ otherPart others, second = otherPart ++ character :: others ∧
      Respaced part otherPart ∧ Respaced rest others := by
  generalize whole : part ++ character :: rest = first at respaced
  induction respaced generalizing part with
  | nil => exact absurd (List.append_eq_nil_iff.mp whole).2 (List.cons_ne_nil _ _)
  | solid next nextSolid further inductionHypothesis =>
      cases part with
      | nil =>
          obtain ⟨rfl, rfl⟩ := List.cons.inj whole
          exact ⟨[], _, rfl, .nil, further⟩
      | cons start part =>
          obtain ⟨rfl, behind⟩ := List.cons.inj whole
          obtain ⟨otherPart, others, rfl, front, rear⟩ := inductionHypothesis behind
          exact ⟨start :: otherPart, others, rfl, .solid start nextSolid front, rear⟩
  | @gap left right first second leftGap rightGap further inductionHypothesis =>
      have inside : ∃ between, part = left ++ between ∧ between ++ character :: rest = first := by
        obtain ⟨between, parted, others⟩ | ⟨between, parted, others⟩ :=
          List.append_eq_append_iff.mp whole.symm
        · exact ⟨between, parted, others.symm⟩
        · cases between with
          | nil => exact ⟨[], by rw [parted, List.append_nil, List.append_nil], others⟩
          | cons start between =>
              obtain ⟨rfl, -⟩ := List.cons.inj others
              have blank := List.all_eq_true.mp leftGap.blank character (by simp [parted])
              rw [isSolid] at blank
              cases blank
      obtain ⟨between, rfl, behind⟩ := inside
      obtain ⟨otherPart, others, rfl, front, rear⟩ := inductionHypothesis behind
      exact ⟨right ++ otherPart, others, (List.append_assoc _ _ _).symm,
        .gap leftGap rightGap front, rear⟩

theorem mem_of_mem
    {character : Char}
    (isSolid : isBlank character = false)
    (respaced : Respaced first second)
    (member : character ∈ first) :
    character ∈ second := by
  obtain ⟨part, rest, rfl⟩ := List.append_of_mem member
  obtain ⟨otherPart, others, rfl, -⟩ := respaced.exists_append_cons isSolid
  exact List.mem_append_right _ List.mem_cons_self

/-- What holds of all white space holds of all characters of both texts or of neither. -/
theorem all_eq
    {holds : Char → Bool}
    (everywhere : ∀ character, isBlank character = true → holds character = true)
    (respaced : Respaced first second) :
    first.all holds = second.all holds := by
  induction respaced with
  | nil => rfl
  | solid character isSolid rest inductionHypothesis =>
      rw [List.all_cons, List.all_cons, inductionHypothesis]
  | gap leftGap rightGap rest inductionHypothesis =>
      have whole {gap : Text} (isGap : IsGap gap) : gap.all holds = true :=
        List.all_eq_true.mpr fun character member =>
          everywhere character (List.all_eq_true.mp isGap.blank character member)
      rw [List.all_append, List.all_append, whole leftGap, whole rightGap, inductionHypothesis]

/-- A text without white space has no other respaced text. -/
theorem eq_of_solid
    (respaced : Respaced first second)
    (solid : ∀ character ∈ first, isBlank character = false) :
    first = second := by
  induction respaced with
  | nil => rfl
  | solid character isSolid rest inductionHypothesis =>
      rw [inductionHypothesis fun other member => solid other (List.mem_cons_of_mem _ member)]
  | gap leftGap rightGap rest inductionHypothesis =>
      obtain ⟨character, member⟩ := List.exists_mem_of_ne_nil _ leftGap.nonempty
      have blank := List.all_eq_true.mp leftGap.blank character member
      rw [solid character (List.mem_append_left _ member)] at blank
      cases blank

/-! ## Stripping -/

theorem stripStart (respaced : Respaced first second) :
    Respaced (Text.stripStart first) (Text.stripStart second) := by
  unfold Text.stripStart
  induction respaced with
  | nil => exact .nil
  | solid character isSolid rest inductionHypothesis =>
      rw [List.dropWhile_cons_of_neg (by simp [isSolid]),
        List.dropWhile_cons_of_neg (by simp [isSolid])]
      exact .solid character isSolid rest
  | gap leftGap rightGap rest inductionHypothesis =>
      rw [List.dropWhile_append_of_pos (List.all_eq_true.mp leftGap.blank),
        List.dropWhile_append_of_pos (List.all_eq_true.mp rightGap.blank)]
      exact inductionHypothesis

/-- Respaced texts start with respaced white space. -/
theorem exists_takeWhile_isBlank (respaced : Respaced first second) :
    ∃ gap rest otherGap others, first = gap ++ rest ∧ second = otherGap ++ others ∧
      Respaced gap otherGap ∧ Respaced rest others ∧
      first.takeWhile isBlank = gap ∧ second.takeWhile isBlank = otherGap := by
  refine ⟨_, _, _, _, List.takeWhile_append_dropWhile.symm,
    List.takeWhile_append_dropWhile.symm, ?_, respaced.stripStart, rfl, rfl⟩
  induction respaced with
  | nil => exact .nil
  | solid character isSolid rest inductionHypothesis =>
      rw [List.takeWhile_cons_of_neg (by simp [isSolid]),
        List.takeWhile_cons_of_neg (by simp [isSolid])]
      exact .nil
  | gap leftGap rightGap rest inductionHypothesis =>
      rw [List.takeWhile_append_of_pos (List.all_eq_true.mp leftGap.blank),
        List.takeWhile_append_of_pos (List.all_eq_true.mp rightGap.blank)]
      exact .gap leftGap rightGap inductionHypothesis

theorem strip (respaced : Respaced first second) :
    Respaced (Text.strip first) (Text.strip second) :=
  respaced.stripStart.reverse.stripStart.reverse

end Respaced

/-! ## Readers -/

section Readers

variable {α : Type} {read : Reader α} {alike : α → α → Prop}

/-- A reader that finds no piece at white space, and alike pieces in respaced texts. -/
structure Respects (read : Reader α) (alike : α → α → Prop) : Prop where
  unread : ∀ character rest, isBlank character = true → read character rest = none
  found : ∀ character first second value count, Respaced first second →
    read character first = some (value, count) →
    ∃ other otherCount, read character second = some (other, otherCount) ∧ alike value other ∧
      Respaced (first.take count) (second.take otherCount) ∧
      Respaced (first.drop count) (second.drop otherCount)

namespace Respects

/-- A reader respects white space if it reads the same in texts with the same start. -/
theorem of_common
    (unread : ∀ character rest, isBlank character = true → read character rest = none)
    (found : ∀ character first second value count, Respaced first second →
      read character first = some (value, count) →
      ∃ part rest others, first = part ++ rest ∧ second = part ++ others ∧
        Respaced rest others ∧ part.length = count ∧
        read character second = some (value, count)) :
    Respects read Eq where
  unread := unread
  found character first second value count respaced known := by
    obtain ⟨part, rest, others, rfl, rfl, left, rfl, otherKnown⟩ :=
      found character first second value count respaced known
    refine ⟨value, part.length, otherKnown, rfl, ?_, ?_⟩
    · rw [List.take_left, List.take_left]
      exact .refl part
    · rwa [List.drop_left, List.drop_left]

theorem read_eq_none
    (respects : Respects read alike)
    {character : Char}
    {first second : Text}
    (respaced : Respaced first second)
    (absent : read character first = none) :
    read character second = none := by
  rw [Option.eq_none_iff_forall_not_mem]
  rintro ⟨value, count⟩ found
  obtain ⟨other, otherCount, known, -⟩ :=
    respects.found character second first value count respaced.symm found
  rw [absent] at known
  cases known

/-- White space has no pieces. -/
theorem pieces_append
    (respects : Respects read alike)
    {gap : Text}
    (blank : gap.all isBlank = true)
    (rest : Text) :
    pieces read (gap ++ rest) = gap.map .other ++ pieces read rest := by
  induction gap with
  | nil => rfl
  | cons character others inductionHypothesis =>
      rw [List.all_cons, Bool.and_eq_true] at blank
      rw [List.cons_append, pieces_of_read_eq_none (respects.unread _ _ blank.1),
        inductionHypothesis blank.2]
      rfl

/-- Two respaced texts are empty, or start with white space, with the same character that is
no piece, or with alike pieces. -/
@[elab_as_elim]
theorem induction
    (respects : Respects read alike)
    {motive : Text → Text → Prop}
    {first second : Text}
    (respaced : Respaced first second)
    (nil : motive [] [])
    (gap : ∀ left right first second, IsGap left → IsGap right → motive first second →
      motive (left ++ first) (right ++ second))
    (other : ∀ character first second, isBlank character = false →
      read character first = none → read character second = none → motive first second →
      motive (character :: first) (character :: second))
    (found : ∀ character first second value otherValue count otherCount,
      isBlank character = false → read character first = some (value, count) →
      read character second = some (otherValue, otherCount) → alike value otherValue →
      Respaced (first.take count) (second.take otherCount) →
      Respaced (first.drop count) (second.drop otherCount) →
      motive (first.drop count) (second.drop otherCount) →
      motive (character :: first) (character :: second)) :
    motive first second := by
  induction size : first.length using Nat.strongRecOn generalizing first second with
  | ind size inductionHypothesis =>
      cases respaced with
      | nil => exact nil
      | @solid first second character isSolid rest =>
          rw [List.length_cons] at size
          cases outcome : read character first with
          | none =>
              exact other _ _ _ isSolid outcome (respects.read_eq_none rest outcome)
                (inductionHypothesis _ (by omega) rest rfl)
          | some piece =>
              obtain ⟨value, count⟩ := piece
              obtain ⟨otherValue, otherCount, known, same, taken, left⟩ :=
                respects.found _ _ _ _ _ rest outcome
              refine found _ _ _ _ _ _ _ isSolid outcome known same taken left
                (inductionHypothesis _ ?_ left rfl)
              rw [List.length_drop]
              omega
      | @gap left right first second leftGap rightGap rest =>
          have positive := List.length_pos_iff.mpr leftGap.nonempty
          rw [List.length_append] at size
          exact gap _ _ _ _ leftGap rightGap (inductionHypothesis _ (by omega) rest rfl)

/-- What is found in respaced texts. -/
theorem forall₂_found
    (respects : Respects read alike)
    {first second : Text}
    (respaced : Respaced first second) :
    List.Forall₂ alike (Text.found read first) (Text.found read second) := by
  have others (gap rest : Text) (isGap : IsGap gap) :
      Text.found read (gap ++ rest) = Text.found read rest := by
    rw [Text.found, respects.pieces_append isGap.blank, List.filterMap_append,
      List.filterMap_map]
    simp [Text.found]
  refine respects.induction respaced ?nil ?gap ?other ?found
  case nil => exact List.Forall₂.nil
  case gap =>
    intro left right first second leftGap rightGap inductionHypothesis
    rwa [others _ _ leftGap, others _ _ rightGap]
  case other =>
    intro character first second isSolid absent otherAbsent inductionHypothesis
    rwa [found_of_read_eq_none absent, found_of_read_eq_none otherAbsent]
  case found =>
    intro character first second value otherValue count otherCount isSolid known otherKnown same
      taken left inductionHypothesis
    rw [Text.found, Text.found, pieces_of_read_eq_some known, pieces_of_read_eq_some otherKnown]
    exact .cons same inductionHypothesis

end Respects
end Readers
end Text
end Joinery
