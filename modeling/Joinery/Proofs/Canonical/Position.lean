import Joinery.Proofs.Canonical.Section

/-!
# Canonical positions

A position is absent, a point or a segment. The keywords of a segment are found although
its coordinates are expressions, and its level is read with what it leaves.
-/

namespace Joinery
namespace Canonical

open Options

variable {scope : Scope} {keyword : Text}

theorem SpacePoint.readPoint_text (point : SpacePoint scope) :
    readPoint scope point.text = .ok (.point point.x.value point.y.value point.z.value) := by
  unfold readPoint
  rw [point.splitCoordinates_text]
  simp only [point.x.evaluates, point.y.evaluates, point.z.evaluates]
  rfl

namespace Segment

variable (segment : Segment scope)

/-- The phrases of the level. -/
def levelPhrases : List Text := phrasesOf (fun level => [level.text]) segment.level

theorem isOption_levelPhrases : ∀ phrase ∈ segment.levelPhrases, IsOption phrase :=
  forall_mem_phrasesOf (isOption_keyword (by decide)) fun level => by
    simpa using level.isContent.toIsOption

/-- The ends of a segment are read. -/
theorem readSegment_phrases
    {rest : List Text}
    (restOptions : ∀ phrase ∈ rest, IsOption phrase)
    (startsAt : Keyword.StartsAt behindSegment rest) :
    readSegment scope (' ' :: Text.joined ' ' (segment.start.content.text ::
        segment.stop.spelling.text :: segment.stop.content.text :: rest)) =
      .ok (.segment segment.start.content.x.value segment.start.content.y.value
        segment.stop.content.x.value segment.stop.content.y.value, Text.joined ' ' rest) := by
  have isKeyword : "to".toList ∈ keywords := by decide
  obtain ⟨position, found, before, behind⟩ := Keyword.find?_behind (isKeyword_of_mem isKeyword)
    segment.stop.spelling (segment.start.content.isContent.passes _ isKeyword)
    segment.start.content.isContent.isPhrase (segment.stop.content.text :: rest)
  have taken := takeSection_phrase segment.stop (show behindSegment ⊆ keywords by decide)
    segment.stop.content.isContent restOptions startsAt
  have length : "to".toList.length = 2 := rfl
  rw [length, ← behind, List.drop_drop] at taken
  unfold readSegment
  rw [found]
  simp only [before, segment.start.content.splitCoordinates_text, taken,
    segment.stop.content.splitCoordinates_text, segment.start.content.x.evaluates,
    segment.start.content.y.evaluates, segment.stop.content.x.evaluates,
    segment.stop.content.y.evaluates]
  rfl

end Segment

namespace Position

/-- The position in numbers. -/
def value : Position scope → Options.Position
  | .unset => .unset
  | .point part => .point part.content.x.value part.content.y.value part.content.z.value
  | .segment part =>
      .segment part.start.content.x.value part.start.content.y.value part.stop.content.x.value
        part.stop.content.y.value

/-- The phrases that are left when a position has been read. -/
def left : Position scope → List Text
  | .segment part => part.levelPhrases
  | _ => []

end Position

namespace BoardCommand

variable (command : BoardCommand scope)

/-- The position is read. -/
theorem readPosition_options :
    readPosition scope (Text.joined ' ' command.options) =
      .ok (command.position.value,
        Text.joined ' ' (command.position.left ++ command.cutPhrases)) := by
  have fromKeyword : "from".toList ∈ keywords := by decide
  have atKeyword : "at".toList ∈ keywords := by decide
  have restFrom := command.passes_cutPhrases fromKeyword (by decide) (by decide) (by decide)
  have restAt := command.passes_cutPhrases atKeyword (by decide) (by decide) (by decide)
  unfold readPosition options
  cases command.position with
  | unset =>
      rw [Position.phrases, List.nil_append, behind?_joined_eq_none restFrom,
        behind?_joined_eq_none restAt]
      rfl
  | point part =>
      have noSegment : ∀ phrase ∈ part.spelling.text :: part.content.text :: command.cutPhrases,
          Keyword.Passes "from".toList phrase := by
        simp only [List.forall_mem_cons]
        exact ⟨passes_keyword fromKeyword atKeyword (by decide) part,
          part.content.isContent.passes _ fromKeyword, restFrom⟩
      have taken := takeSection_phrase part (show behindPosition ⊆ keywords by decide)
        part.content.isContent command.isOption_cutPhrases
        (command.startsAt_cutPhrases (by decide) (by decide) (by decide))
      simp only [Position.phrases, List.cons_append, List.nil_append]
      rw [behind?_joined_eq_none noSegment, behind?_section atKeyword]
      simp only [taken, part.content.readPoint_text]
      rfl
  | segment part =>
      have restOptions : ∀ phrase ∈ part.levelPhrases ++ command.cutPhrases, IsOption phrase :=
        List.forall_mem_append.mpr ⟨part.isOption_levelPhrases, command.isOption_cutPhrases⟩
      have startsAt : Keyword.StartsAt behindSegment (part.levelPhrases ++ command.cutPhrases) :=
        startsAt_phrasesOf (by decide)
          (command.startsAt_cutPhrases (by decide) (by decide) (by decide))
      simp only [Position.phrases, List.cons_append]
      rw [behind?_section fromKeyword, Keyword.drop_joined _ (List.cons_ne_nil _ _)]
      exact part.readSegment_phrases restOptions startsAt

/-- The level of a segment is read. -/
theorem readLevel_left (segment : Segment scope) :
    readLevel scope (Text.joined ' ' (segment.levelPhrases ++ command.cutPhrases)) =
      .ok (segment.level?, Text.joined ' ' command.cutPhrases) := by
  have isKeyword : "z".toList ∈ keywords := by decide
  have absent := command.passes_cutPhrases isKeyword (by decide) (by decide) (by decide)
  unfold readLevel Segment.levelPhrases Segment.level?
  cases segment.level with
  | none =>
      have missing := (Keyword.Passes.joined (show ' ' ∈ Keyword.Passes.separators by decide)
        absent).find?_eq_none
      rw [phrasesOf, List.nil_append, missing]
      rfl
  | some part =>
      have taken := takeSection_phrase part (show behindPosition ⊆ keywords by decide)
        part.content.isContent command.isOption_cutPhrases
        (command.startsAt_cutPhrases (by decide) (by decide) (by decide))
      have length : "z".toList.length = 1 := rfl
      rw [length] at taken
      rw [phrasesOf, List.cons_append, List.singleton_append,
        Keyword.find?_joined (isKeyword_of_mem isKeyword), if_pos rfl]
      simp only [taken, part.content.evaluates]
      rfl

end BoardCommand
end Canonical
end Joinery
