import Joinery.Options
import Joinery.Proofs.Coordinate
import Joinery.Proofs.Expression.Respaced
import Joinery.Proofs.Keyword.Respaced
import Joinery.Proofs.Text.Blank

/-!
# White space in options

Options that are read are read in the same way with other white space at the same places.
Every section of them starts with a keyword and ends in front of the next one, and what
stands in it is split at commas, at words, or not at all.
-/

namespace Joinery

open Text

/-! ## Coordinates -/

/-- White space belongs to the part in which it stands. -/
theorem splitCoordinatesFrom_gap
    {gap : Text}
    (blank : gap.all isBlank = true)
    (depth : Int)
    (part rest : Text) :
    splitCoordinatesFrom depth part (gap ++ rest) =
      splitCoordinatesFrom depth (gap.reverse ++ part) rest := by
  have noComma : ',' ∉ gap := fun member =>
    absurd (List.all_eq_true.mp blank _ member) (by decide)
  rw [splitCoordinatesFrom_append fun before after whole => ?_, Token.depthOf_of_blanks blank,
    Int.add_zero]
  exact absurd (whole ▸ List.mem_append_right before List.mem_cons_self) noComma

/-- Coordinates in respaced texts. -/
theorem forall₂_splitCoordinatesFrom
    {first second part otherPart : Text}
    (respaced : Respaced first second)
    (parts : Respaced part otherPart)
    (depth : Int) :
    List.Forall₂ Respaced (splitCoordinatesFrom depth part first)
      (splitCoordinatesFrom depth otherPart second) := by
  induction respaced generalizing depth part otherPart with
  | nil => exact .cons parts.reverse .nil
  | solid character isSolid rest inductionHypothesis =>
      rw [splitCoordinatesFrom, splitCoordinatesFrom]
      split
      · exact .cons parts.reverse (inductionHypothesis .nil depth)
      · exact inductionHypothesis (.solid character isSolid parts) _
  | gap leftGap rightGap rest inductionHypothesis =>
      rw [splitCoordinatesFrom_gap leftGap.blank, splitCoordinatesFrom_gap rightGap.blank]
      exact inductionHypothesis (.gap leftGap.reverse rightGap.reverse parts) depth

theorem forall₂_splitCoordinates {first second : Text} (respaced : Respaced first second) :
    List.Forall₂ Respaced (splitCoordinates first) (splitCoordinates second) :=
  forall₂_splitCoordinatesFrom respaced .nil 0

namespace Options

variable {scope : Scope} {first second rest : Text}

/-! ## Comments -/

theorem startsComment_eq (character : Char) (rest : Text) :
    startsComment character rest = (character == '#' && startsWith isBlank rest) := by
  cases rest <;> rfl

/-- A comment may start behind white space, and white space starts none. -/
theorem withoutCommentAfter_append
    {gap : Text}
    (isGap : IsGap gap)
    (isFree : Bool)
    (rest : Text) :
    withoutCommentAfter isFree (gap ++ rest) = gap ++ withoutCommentAfter true rest := by
  obtain ⟨nonempty, blank⟩ := isGap
  induction gap generalizing isFree with
  | nil => exact absurd rfl nonempty
  | cons character others inductionHypothesis =>
      obtain ⟨first, further⟩ := Bool.and_eq_true_iff.mp (List.all_cons.symm.trans blank)
      have noSign : (character == '#') = false := by
        rw [beq_eq_false_iff_ne]
        rintro rfl
        cases first
      rw [List.cons_append, withoutCommentAfter, startsComment_eq, noSign, Bool.false_and,
        Bool.and_false, if_neg Bool.false_ne_true, first]
      cases others with
      | nil => rfl
      | cons next more => rw [inductionHypothesis true (List.cons_ne_nil _ _) further]; rfl

theorem respaced_withoutCommentAfter (respaced : Respaced first second) (isFree : Bool) :
    Respaced (withoutCommentAfter isFree first) (withoutCommentAfter isFree second) := by
  induction respaced generalizing isFree with
  | nil => exact .nil
  | solid character isSolid rest inductionHypothesis =>
      rw [withoutCommentAfter, withoutCommentAfter, startsComment_eq, startsComment_eq,
        rest.startsWith_isBlank_eq]
      split
      · exact .nil
      · exact .solid character isSolid (inductionHypothesis _)
  | gap leftGap rightGap rest inductionHypothesis =>
      rw [withoutCommentAfter_append leftGap, withoutCommentAfter_append rightGap]
      exact .gap leftGap rightGap (inductionHypothesis true)

theorem respaced_withoutComment (respaced : Respaced first second) :
    Respaced (withoutComment first) (withoutComment second) :=
  (respaced_withoutCommentAfter respaced true).strip

/-! ## Positions -/

theorem readPoint_of_respaced
    {position : Position}
    (respaced : Respaced first second)
    (found : readPoint scope first = .ok position) :
    readPoint scope second = .ok position := by
  have coordinates := forall₂_splitCoordinates respaced
  unfold readPoint at found ⊢
  generalize splitCoordinates first = parts at coordinates found
  generalize splitCoordinates second = otherParts at coordinates
  split at found
  next x y z =>
    obtain _ | ⟨sameX, _ | ⟨sameY, _ | ⟨sameZ, _ | _⟩⟩⟩ := coordinates
    obtain ⟨x, knownX, found⟩ := bind_eq_ok.mp found
    obtain ⟨y, knownY, found⟩ := bind_eq_ok.mp found
    obtain ⟨z, knownZ, found⟩ := bind_eq_ok.mp found
    exact bind_eq_ok.mpr ⟨x, evaluate_of_respaced sameX knownX,
      bind_eq_ok.mpr ⟨y, evaluate_of_respaced sameY knownY,
        bind_eq_ok.mpr ⟨z, evaluate_of_respaced sameZ knownZ, found⟩⟩⟩
  next => cases found

theorem exists_readSegment_of_respaced
    {position : Position}
    (respaced : Respaced first second)
    (found : readSegment scope first = .ok (position, rest)) :
    ∃ others, readSegment scope second = .ok (position, others) ∧ Respaced rest others := by
  unfold readSegment at found ⊢
  obtain ⟨none, otherNone⟩ | ⟨place, otherPlace, known, otherKnown, -, fronts, rests⟩ :=
    Keyword.exists_find?_of_respaced "to".toList (by decide) respaced
  · rw [none] at found
    cases found
  rw [known] at found
  rw [otherKnown]
  have length : "to".toList.length = 2 := rfl
  rw [length] at rests
  have starts := forall₂_splitCoordinates fronts.strip
  obtain ⟨parts, left⟩ := Keyword.respaced_takeSection rests.strip behindSegment
  have ends := forall₂_splitCoordinates parts
  dsimp only at found ⊢
  generalize Keyword.takeSection (strip (first.drop (place + 2))) behindSegment = section_ at *
  generalize Keyword.takeSection (strip (second.drop (otherPlace + 2))) behindSegment =
    otherSection at *
  generalize splitCoordinates (strip (first.take place)) = start at starts found
  generalize splitCoordinates (strip (second.take otherPlace)) = otherStart at starts
  generalize splitCoordinates section_.1 = ending at ends found
  generalize splitCoordinates otherSection.1 = otherEnding at ends
  split at found
  next x1 y1 =>
    obtain _ | ⟨sameX1, _ | ⟨sameY1, _ | _⟩⟩ := starts
    split at found
    next x2 y2 =>
      obtain _ | ⟨sameX2, _ | ⟨sameY2, _ | _⟩⟩ := ends
      obtain ⟨x1, knownX1, found⟩ := bind_eq_ok.mp found
      obtain ⟨y1, knownY1, found⟩ := bind_eq_ok.mp found
      obtain ⟨x2, knownX2, found⟩ := bind_eq_ok.mp found
      obtain ⟨y2, knownY2, found⟩ := bind_eq_ok.mp found
      cases found
      exact ⟨_, bind_eq_ok.mpr ⟨x1, evaluate_of_respaced sameX1 knownX1,
        bind_eq_ok.mpr ⟨y1, evaluate_of_respaced sameY1 knownY1,
          bind_eq_ok.mpr ⟨x2, evaluate_of_respaced sameX2 knownX2,
            bind_eq_ok.mpr ⟨y2, evaluate_of_respaced sameY2 knownY2, rfl⟩⟩⟩⟩, left⟩
    next => cases found
  next => cases found

theorem exists_readPosition_of_respaced
    {position : Position}
    (respaced : Respaced first second)
    (found : readPosition scope first = .ok (position, rest)) :
    ∃ others, readPosition scope second = .ok (position, others) ∧ Respaced rest others := by
  unfold readPosition at found ⊢
  have segments := Keyword.rel_behind? "from".toList (by decide) respaced
  have points := Keyword.rel_behind? "at".toList (by decide) respaced
  generalize Keyword.behind? first "from".toList = segment at segments found
  generalize Keyword.behind? second "from".toList = otherSegment at segments
  generalize Keyword.behind? first "at".toList = point at points found
  generalize Keyword.behind? second "at".toList = otherPoint at points
  cases segments with
  | some same => exact exists_readSegment_of_respaced same found
  | none =>
      cases points with
      | none =>
          cases found
          exact ⟨second, rfl, respaced⟩
      | some same =>
          obtain ⟨parts, left⟩ := Keyword.respaced_takeSection same.strip behindPosition
          obtain ⟨point, known, found⟩ := bind_eq_ok.mp found
          cases found
          refine ⟨_, bind_eq_ok.mpr ⟨_, readPoint_of_respaced parts known, rfl⟩, left⟩

theorem exists_readLevel_of_respaced
    {level : Option Binary64}
    (respaced : Respaced first second)
    (found : readLevel scope first = .ok (level, rest)) :
    ∃ others, readLevel scope second = .ok (level, others) ∧ Respaced rest others := by
  unfold readLevel at found ⊢
  obtain ⟨none, otherNone⟩ | ⟨place, otherPlace, known, otherKnown, same, -, rests⟩ :=
    Keyword.exists_find?_of_respaced "z".toList (by decide) respaced
  · rw [none] at found
    rw [otherNone]
    cases found
    exact ⟨second, rfl, respaced⟩
  rw [known] at found
  rw [otherKnown]
  simp only [Option.some.injEq] at found ⊢
  split at found
  next isFirst =>
    rw [if_pos (same.mp isFirst)]
    rw [isFirst, same.mp isFirst] at rests
    obtain ⟨parts, left⟩ := Keyword.respaced_takeSection rests.strip behindPosition
    obtain ⟨value, evaluated, found⟩ := bind_eq_ok.mp found
    cases found
    exact ⟨_, bind_eq_ok.mpr ⟨value, evaluate_of_respaced parts evaluated, rfl⟩, left⟩
  next isLater =>
    rw [if_neg fun other => isLater (same.mpr other)]
    cases found
    exact ⟨second, rfl, respaced⟩

/-! ## Cuts -/

theorem respects_readCut : Respects readCut Eq where
  unread character rest blank := by simp [readCut, isWordCharacter_of_isBlank blank]
  found character first second value count respaced found := by
    obtain ⟨run, rest, others, rfl, rfl, left, taken, otherTaken⟩ :=
      respaced.exists_takeWhile fun _ => isWordCharacter_of_isBlank
    obtain ⟨gap, rest, otherGap, others, rfl, rfl, gaps, behind, gapTaken, otherGapTaken⟩ :=
      left.exists_takeWhile_isBlank
    have apart (character : Char) (blank : isBlank character = true) :
        (!isBlank character) = false := by
      simp [blank]
    obtain ⟨length, tail, otherTail, rfl, rfl, tails, lengthTaken, otherLengthTaken⟩ :=
      behind.exists_takeWhile apart
    have empty : gap = [] ↔ otherGap = [] :=
      ⟨fun same => (same ▸ gaps).eq_nil, fun same => (same ▸ gaps.symm).eq_nil⟩
    simp only [readCut, taken, otherTaken, List.length_cons, Nat.add_sub_cancel, List.drop_left,
      ← List.drop_drop, gapTaken, otherGapTaken, lengthTaken, otherLengthTaken, ne_eq,
      empty] at found ⊢
    have whole (gap tail : Text) :
        run ++ (gap ++ (length ++ tail)) = (run ++ (gap ++ length)) ++ tail := by simp
    have counted (gap : Text) :
        run.length + gap.length + length.length = (run ++ (gap ++ length)).length := by
      simp [Nat.add_assoc]
    split at found
    · cases found
    next isWord =>
      rw [if_neg isWord]
      split at found
      next isSide =>
        cases found
        rw [if_pos isSide]
        refine ⟨_, _, rfl, rfl, ?_, ?_⟩
        · rw [whole, whole, counted, counted, List.take_left, List.take_left]
          exact (Respaced.refl run).append (gaps.append (.refl length))
        · rw [whole, whole, counted, counted, List.drop_left, List.drop_left]
          exact tails
      next noSide =>
        cases found
        rw [if_neg noSide]
        refine ⟨_, _, rfl, rfl, ?_, ?_⟩
        · rw [List.take_left, List.take_left]
          exact .refl run
        · rw [List.drop_left, List.drop_left]
          exact left

theorem readCuts_eq_of_respaced (respaced : Respaced first second) :
    readCuts scope first = readCuts scope second := by
  have words := respects_readCut.forall₂_found respaced
  rw [List.forall₂_eq_eq_eq] at words
  rw [readCuts, readCuts, words]

theorem exists_takeCuts_of_respaced
    {cuts : Option (Cuts Binary64)}
    (respaced : Respaced first second)
    (found : takeCuts scope first = .ok (cuts, rest)) :
    ∃ others, takeCuts scope second = .ok (cuts, others) ∧ Respaced rest others := by
  unfold takeCuts at found ⊢
  have texts := Keyword.rel_behind? "cut".toList (by decide) respaced
  generalize Keyword.behind? first "cut".toList = text at texts found
  generalize Keyword.behind? second "cut".toList = otherText at texts
  cases texts with
  | none =>
      cases found
      exact ⟨second, rfl, respaced⟩
  | some same =>
      obtain ⟨parts, left⟩ := Keyword.respaced_takeSection same.strip behindCuts
      obtain ⟨lengths, known, found⟩ := bind_eq_ok.mp found
      cases found
      exact ⟨_, bind_eq_ok.mpr ⟨lengths, (readCuts_eq_of_respaced parts).symm.trans known, rfl⟩,
        left⟩

/-! ## View and colour -/

theorem mem_faceLetters_of_viewAfter
    {before view text : Text}
    (accepted : viewAfter before text = .ok view) :
    ∀ letter ∈ text, letter ∈ faceLetters := by
  induction text generalizing before with
  | nil => exact fun letter member => absurd member List.not_mem_nil
  | cons first rest inductionHypothesis =>
      unfold viewAfter at accepted
      split at accepted
      · cases accepted
      next known => exact List.forall_mem_cons.mpr ⟨not_not.mp known, inductionHypothesis accepted⟩

/-- A view has no white space in it. -/
theorem isBlank_of_mem_view
    {text view : Text}
    (accepted : normalizeView text = .ok view) :
    ∀ character ∈ text, isBlank character = false := by
  intro character member
  rw [← Bool.not_eq_true]
  intro blank
  have letter := mem_faceLetters_of_viewAfter accepted _ (mem_lower_of_isBlank blank member)
  have solid : ∀ other ∈ faceLetters, isBlank other = false := forall_mem_of_all_not (by decide)
  rw [solid character letter] at blank
  cases blank

theorem exists_takeView_of_respaced
    {view : Option Text}
    (respaced : Respaced first second)
    (found : takeView first = .ok (view, rest)) :
    ∃ others, takeView second = .ok (view, others) ∧ Respaced rest others := by
  unfold takeView at found ⊢
  have texts := Keyword.rel_behind? "view".toList (by decide) respaced
  generalize Keyword.behind? first "view".toList = text at texts found
  generalize Keyword.behind? second "view".toList = otherText at texts
  cases texts with
  | none =>
      cases found
      exact ⟨second, rfl, respaced⟩
  | some same =>
      obtain ⟨parts, left⟩ := Keyword.respaced_takeSection same.strip behindView
      obtain ⟨letters, known, found⟩ := bind_eq_ok.mp found
      cases found
      have unspaced := parts.eq_of_solid (isBlank_of_mem_view known)
      exact ⟨_, bind_eq_ok.mpr ⟨letters, unspaced ▸ known, rfl⟩, left⟩

theorem readColor?_eq_of_respaced (respaced : Respaced first second) :
    Palette.readColor? first = Palette.readColor? second := by
  obtain ⟨rest, others, rfl, rfl, further⟩ | ⟨noSign, otherNoSign⟩ :=
    respaced.exists_cons_or (show isBlank '#' = false by decide)
  · have apart (character : Char) (blank : isBlank character = true) :
        Palette.isHexDigit character = false := by
      have none := of_isBlank (!Palette.isHexDigit ·) (by decide +kernel) blank
      simpa using none
    obtain ⟨digits, _, _, -, -, -, taken, otherTaken⟩ := further.exists_takeWhile apart
    rw [Palette.readColor?, Palette.readColor?, taken, otherTaken]
  · have uncolored {text : Text} (unsigned : text.head? ≠ some '#') :
        Palette.readColor? text = none := by
      unfold Palette.readColor?
      split
      · exact absurd rfl unsigned
      · rfl
    rw [uncolored noSign, uncolored otherNoSign]

theorem color?_eq_of_respaced (respaced : Respaced first second) :
    color? first = color? second := by
  unfold color?
  have texts := Keyword.rel_behind? "color".toList (by decide) respaced
  generalize Keyword.behind? first "color".toList = text at texts
  generalize Keyword.behind? second "color".toList = otherText at texts
  cases texts with
  | none => rfl
  | some same => exact readColor?_eq_of_respaced same.strip

end Options
end Joinery
