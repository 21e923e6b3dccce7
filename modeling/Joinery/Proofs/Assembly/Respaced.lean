import Joinery.Assembly
import Joinery.Proofs.Options.Respaced

/-!
# White space and boards

A board that is assembled from a heading is assembled from each heading whose options
differ from its own in white space only. The notice about its width is the same one.
-/

namespace Joinery
namespace Draft

open Text

variable {scope : Scope} {draft : Draft} {options : Text}

theorem exists_ofHeading_of_respaced
    {heading : Heading}
    (respaced : Respaced (Options.withoutComment heading.options) (Options.withoutComment options))
    (found : ofHeading scope heading = .ok draft) :
    ∃ left, ofHeading scope { heading with options := options } = .ok { draft with options := left } ∧
      Respaced draft.options left := by
  unfold ofHeading at found ⊢
  dsimp only at found ⊢
  split at found
  next width height depth _ =>
    obtain ⟨width, knownWidth, found⟩ := bind_eq_ok.mp found
    obtain ⟨height, knownHeight, found⟩ := bind_eq_ok.mp found
    obtain ⟨depth, knownDepth, found⟩ := bind_eq_ok.mp found
    obtain ⟨⟨position, rest⟩, knownPosition, found⟩ := bind_eq_ok.mp found
    cases found
    obtain ⟨left, otherKnown, rests⟩ :=
      Options.exists_readPosition_of_respaced respaced knownPosition
    exact ⟨left, bind_eq_ok.mpr ⟨width, knownWidth, bind_eq_ok.mpr ⟨height, knownHeight,
      bind_eq_ok.mpr ⟨depth, knownDepth, bind_eq_ok.mpr ⟨_, otherKnown, rfl⟩⟩⟩⟩, rests⟩
  next => cases found

theorem notice?_eq (draft : Draft) (options : Text) :
    ({ draft with options := options } : Draft).notice? = draft.notice? := rfl

theorem exists_place_of_respaced
    {placement : Placement}
    {rest : Text}
    (respaced : Respaced draft.options options)
    (found : draft.place scope = .ok (placement, rest)) :
    ∃ left, ({ draft with options := options } : Draft).place scope = .ok (placement, left) ∧
      Respaced rest left := by
  unfold place at found ⊢
  dsimp only at found ⊢
  split at found
  next =>
    cases found
    exact ⟨options, rfl, respaced⟩
  next =>
    cases found
    exact ⟨options, rfl, respaced⟩
  next =>
    obtain ⟨⟨level, rest⟩, known, found⟩ := bind_eq_ok.mp found
    obtain ⟨left, otherKnown, rests⟩ := Options.exists_readLevel_of_respaced respaced known
    dsimp only at found
    split at found
    next =>
      cases found
      exact ⟨left, bind_eq_ok.mpr ⟨_, otherKnown, rfl⟩, rests⟩
    next => cases found

theorem board_of_respaced
    {id name : Text}
    {index : Nat}
    {board : Board Binary64}
    (respaced : Respaced draft.options options)
    (found : draft.board scope id name index = .ok board) :
    ({ draft with options := options } : Draft).board scope id name index = .ok board := by
  unfold Draft.board at found ⊢
  obtain ⟨⟨placement, rest⟩, known, found⟩ := bind_eq_ok.mp found
  obtain ⟨left, otherKnown, respaced⟩ := exists_place_of_respaced respaced known
  obtain ⟨⟨cuts, rest⟩, knownCuts, found⟩ := bind_eq_ok.mp found
  obtain ⟨left, otherCuts, respaced⟩ := Options.exists_takeCuts_of_respaced respaced knownCuts
  obtain ⟨⟨view, rest⟩, knownView, found⟩ := bind_eq_ok.mp found
  obtain ⟨left, otherView, respaced⟩ := Options.exists_takeView_of_respaced respaced knownView
  refine bind_eq_ok.mpr ⟨_, otherKnown, bind_eq_ok.mpr ⟨_, otherCuts,
    bind_eq_ok.mpr ⟨_, otherView, ?_⟩⟩⟩
  have same := Options.color?_eq_of_respaced respaced
  dsimp only at found ⊢
  rwa [← same]

end Draft
end Joinery
