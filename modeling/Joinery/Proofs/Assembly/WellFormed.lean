import Mathlib.Data.List.Nodup
import Mathlib.Data.List.TakeDrop
import Joinery.Face
import Joinery.Proofs.Assembly.Refusal
import Joinery.Proofs.Palette

/-!
# Well-formed boards

A board that was assembled has a name without double quotes, all of its coordinates or
none of them, cuts with at least one side, a view of different faces, and a colour.
-/

namespace Joinery

open Binary64

/-! ## Names -/

namespace Heading

/-- What a reader finds behind a text it finds behind one of its suffixes. -/
theorem exists_of_firstSuffix?
    {α : Type}
    {read : Text → Option α}
    {text : Text}
    {least count : Nat}
    {value : α}
    (found : firstSuffix? read text least count = some value) :
    ∃ skipped ≤ count, least ≤ skipped ∧ read (text.drop skipped) = some value := by
  induction count with
  | zero =>
      simp only [firstSuffix?, Option.ite_none_right_eq_some] at found
      exact ⟨0, Nat.le_refl 0, found.1.le, found.2⟩
  | succ count inductionHypothesis =>
      simp only [firstSuffix?, Option.ite_none_left_eq_some, Option.orElse_eq_or,
        Option.or_eq_some_iff] at found
      rcases found.2 with first | ⟨-, later⟩
      · exact ⟨count + 1, Nat.le_refl _, Nat.le_of_not_lt found.1, first⟩
      · obtain ⟨skipped, most, known⟩ := inductionHypothesis later
        exact ⟨skipped, Nat.le_succ_of_le most, known⟩

theorem name_of_nameAndOptions?
    {text name options : Text}
    (found : nameAndOptions? text = some (name, options)) :
    name ≠ [] ∧ '"' ∉ name := by
  unfold nameAndOptions? at found
  split at found
  next rest _ _ =>
    split at found
    · cases found
    · cases found
    next first quote after notEmpty split =>
      obtain ⟨line, -, same⟩ := Option.map_eq_some_iff.mp found
      cases same
      rw [List.span_eq_takeWhile_dropWhile, Prod.mk.injEq] at split
      obtain ⟨rfl, -⟩ := split
      refine ⟨fun empty => notEmpty empty, fun quoted => ?_⟩
      simpa using List.all_eq_true.mp List.all_takeWhile _ quoted
  next => cases found

theorem name_of_body?
    {id : Option Text}
    {before text : Text}
    {heading : Heading}
    (found : body? id before text = some heading) :
    heading.name ≠ [] ∧ '"' ∉ heading.name := by
  induction text generalizing before with
  | nil => cases found
  | cons character rest inductionHypothesis =>
      simp only [body?, Option.ite_none_left_eq_some] at found
      obtain ⟨-, found⟩ := found
      split at found
      next name options named =>
        cases found
        exact name_of_nameAndOptions? named
      next => exact inductionHypothesis found

/-- The name in a heading is not empty and has no double quote. -/
theorem name_of_ofLine?
    {line : Text}
    {heading : Heading}
    (found : ofLine? line = some heading) :
    heading.name ≠ [] ∧ '"' ∉ heading.name := by
  unfold ofLine? at found
  split at found
  · split at found
    · cases found
    · obtain ⟨skipped, -, -, found⟩ := exists_of_firstSuffix? found
      exact name_of_body? found
  · cases found

end Heading

/-! ## Cuts -/

namespace Cuts

theorem get_set {α : Type} (cuts : Cuts α) (length : α) (side other : Side) :
    (cuts.set length side).get other = if other = side then some length else cuts.get other := by
  cases side <;> cases other <;> rfl

end Cuts

namespace Options

/-- Combined cuts have the sides that were there before and the sides of the lengths. -/
theorem isSome_get_combineCuts
    {cuts combined : Cuts Binary64}
    {lengths : List (Option Side × Binary64)}
    (found : combineCuts cuts lengths = .ok combined)
    (side : Side) :
    (combined.get side).isSome = true ↔
      (cuts.get side).isSome = true ∨ ∃ value, (some side, value) ∈ lengths := by
  induction lengths generalizing cuts with
  | nil =>
      cases found
      simp
  | cons entry rest inductionHypothesis =>
      obtain ⟨other, length⟩ := entry
      cases other with
      | none => cases found
      | some other =>
          rw [inductionHypothesis found, Cuts.get_set]
          by_cases same : side = other
          · simp [same]
          · simp [same]

/-- Cuts have a side. -/
theorem exists_side_of_readCuts
    {scope : Scope}
    {text : Text}
    {cuts : Cuts Binary64}
    (found : readCuts scope text = .ok cuts) :
    ∃ side, (cuts.get side).isSome = true := by
  obtain ⟨lengths, -, found⟩ := bind_eq_ok.mp found
  split at found
  next => cases found
  next notEmpty =>
    cases lengths with
    | nil => exact (notEmpty rfl).elim
    | cons entry rest =>
        obtain ⟨side, value⟩ := entry
        cases side with
        | none => cases found
        | some side =>
            have known := (isSome_get_combineCuts found side).mpr
            exact ⟨side, known (Or.inr ⟨value, List.mem_cons_self⟩)⟩

theorem exists_side_of_takeCuts
    {scope : Scope}
    {options rest : Text}
    {cuts : Cuts Binary64}
    (found : takeCuts scope options = .ok (some cuts, rest)) :
    ∃ side, (cuts.get side).isSome = true := by
  unfold takeCuts at found
  split at found
  · cases found
  · obtain ⟨_, read, same⟩ := bind_eq_ok.mp found
    cases same
    exact exists_side_of_readCuts read

/-! ## Views -/

/-- Different letters of faces, at least one. -/
structure IsView (view : Text) : Prop where
  ne_nil : view ≠ []
  nodup : view.Nodup
  letters : ∀ letter ∈ view, letter ∈ faceLetters

theorem isView_of_viewAfter
    {before letters view : Text}
    (nodup : before.Nodup)
    (known : ∀ letter ∈ before, letter ∈ faceLetters)
    (found : viewAfter before letters = .ok view) :
    IsView view := by
  induction letters generalizing before with
  | nil =>
      simp only [viewAfter] at found
      split at found
      · cases found
      next notEmpty =>
        cases found
        exact ⟨notEmpty, nodup, known⟩
  | cons letter rest inductionHypothesis =>
      simp only [viewAfter] at found
      split at found
      · cases found
      next isFace =>
        rw [Decidable.not_not] at isFace
        refine inductionHypothesis ?_ ?_ found
        · split
          · exact nodup
          next absent => exact nodup.append (List.nodup_singleton letter) (by simpa using absent)
        · split
          · exact known
          · intro other membership
            rcases List.mem_append.mp membership with membership | membership
            · exact known other membership
            · rw [List.mem_singleton.mp membership]
              exact isFace

/-- A view that is taken from options is one. -/
theorem isView_of_takeView
    {options view rest : Text}
    (found : takeView options = .ok (some view, rest)) :
    IsView view := by
  unfold takeView at found
  split at found
  · cases found
  · obtain ⟨_, read, same⟩ := bind_eq_ok.mp found
    cases same
    exact isView_of_viewAfter List.nodup_nil (by simp) read

end Options

/-! ## Boards -/

/-- What holds of every board that a session has. -/
structure Board.WellFormed (board : Board Binary64) : Prop where
  name_ne_nil : board.name ≠ []
  name_unquoted : '"' ∉ board.name
  hasPosition_iff : board.hasPosition = true ↔
    board.x.isSome = true ∧ board.y.isSome = true ∧ board.z.isSome = true
  unset : board.hasPosition = false → board.x = none ∧ board.y = none ∧ board.z = none
  segment : ∀ segment, board.segment = some segment →
    board.hasPosition = true ∧ board.x = some segment.x1 ∧ board.y = some segment.y1
  upright : board.segment = none → board.angle = 0
  bounded : Within degreeBound board.angle
  cuts : ∀ cuts, board.cuts = some cuts → ∃ side, (cuts.get side).isSome = true
  view : ∀ view, board.view = some view → Options.IsView view
  color : Palette.IsColor board.color
  visible : board.visible = true

namespace Draft

variable {scope : Scope} {draft : Draft} {id name : Text} {index : Nat} {board : Board Binary64}

/-- The parts of a board in the order in which they are read. -/
theorem board_eq_ok
    (built : draft.board scope id name index = .ok board) :
    ∃ placement options cuts behindCuts view behindView,
      draft.place scope = .ok (placement, options) ∧
      Options.takeCuts scope options = .ok (cuts, behindCuts) ∧
      Options.takeView behindCuts = .ok (view, behindView) ∧
      board = {
        id, name
        width := placement.width, height := draft.height, depth := draft.depth
        x := placement.x, y := placement.y, z := placement.z
        hasPosition := placement.hasPosition, angle := placement.angle
        segment := placement.segment
        cuts, view
        color := (Options.color? behindView).getD (Palette.autoColor index)
        visible := true } := by
  obtain ⟨⟨placement, options⟩, placed, built⟩ := bind_eq_ok.mp built
  obtain ⟨⟨cuts, behindCuts⟩, cut, built⟩ := bind_eq_ok.mp built
  obtain ⟨⟨view, behindView⟩, viewed, built⟩ := bind_eq_ok.mp built
  cases built
  exact ⟨placement, options, cuts, behindCuts, view, behindView, placed, cut, viewed, rfl⟩

theorem within_zero : Within degreeBound 0 :=
  (within_ofNat 0 (lt_two_pow_wholePlaces (by decide))).mono (by decide)

/-- The angle from one end of a segment to the other is bounded. -/
theorem within_segmentAngle
    {options rest : Text}
    {x1 y1 x2 y2 : Binary64}
    (found : Options.readPosition scope options = .ok (.segment x1 y1 x2 y2, rest)) :
    Within degreeBound (atan2 (y2 - y1) (x2 - x1)).toDegrees := by
  obtain ⟨⟨x1Within, y1Within⟩, x2Within, y2Within⟩ := Options.within_readPosition found
  have room : 2 * (5 * scale + 5 * scale) + 1 < 2 ^ wholePlaces := by
    have large := two_pow_sixty_four_le_scale
    rw [two_pow_wholePlaces]
    omega
  exact within_toDegrees (within_atan2 (y2Within.sub y1Within room).isFinite
    (x2Within.sub x1Within room).isFinite)

/-- What the coordinates, the angle and the segment of a placement have to do with each
other. -/
structure Placement.IsCoherent (placement : Placement) : Prop where
  hasPosition_iff : placement.hasPosition = true ↔
    placement.x.isSome = true ∧ placement.y.isSome = true ∧ placement.z.isSome = true
  unset : placement.hasPosition = false →
    placement.x = none ∧ placement.y = none ∧ placement.z = none
  segment : ∀ segment, placement.segment = some segment →
    placement.hasPosition = true ∧ placement.x = some segment.x1 ∧
      placement.y = some segment.y1
  upright : placement.segment = none → placement.angle = 0
  bounded : Within degreeBound placement.angle

/-- A draft behind a heading is placed in one of three ways, which are all coherent. -/
theorem isCoherent_place
    {heading : Heading}
    {placement : Placement}
    {options : Text}
    (drafted : ofHeading scope heading = .ok draft)
    (placed : draft.place scope = .ok (placement, options)) :
    placement.IsCoherent := by
  have found := readPosition_of_ofHeading drafted
  unfold place at placed
  cases position : draft.position with
  | unset =>
      rw [position] at placed
      cases placed
      exact ⟨by simp, by simp, by simp, by simp, within_zero⟩
  | point x y z =>
      rw [position] at placed
      cases placed
      exact ⟨by simp, by simp, by simp, by simp, within_zero⟩
  | segment x1 y1 x2 y2 =>
      rw [position] at placed found
      obtain ⟨⟨level, rest⟩, -, placed⟩ := bind_eq_ok.mp placed
      dsimp only at placed
      split at placed
      · cases placed
        exact ⟨by simp, by simp, by simp, by simp, within_segmentAngle found⟩
      · cases placed

/-- The color of an assembled board is one. -/
theorem isColor_getD (options : Text) (index : Int) :
    Palette.IsColor ((Options.color? options).getD (Palette.autoColor index)) := by
  cases color : Options.color? options with
  | none => exact Palette.isColor_autoColor index
  | some color =>
      obtain ⟨_, -, found⟩ := Option.bind_eq_some_iff.mp color
      exact Palette.isColor_of_readColor? found

/-- A board that is assembled behind its heading is well formed. -/
theorem wellFormed_board
    {line : Text}
    {heading : Heading}
    (headed : Heading.ofLine? line = some heading)
    (drafted : ofHeading scope heading = .ok draft)
    (built : draft.board scope id heading.name index = .ok board) :
    board.WellFormed := by
  obtain ⟨placement, options, cuts, behindCuts, view, behindView, placed, cut, viewed, rfl⟩ :=
    board_eq_ok built
  obtain ⟨named, unquoted⟩ := Heading.name_of_ofLine? headed
  have coherent := isCoherent_place drafted placed
  exact {
    name_ne_nil := named
    name_unquoted := unquoted
    hasPosition_iff := coherent.hasPosition_iff
    unset := coherent.unset
    segment := coherent.segment
    upright := coherent.upright
    bounded := coherent.bounded
    cuts := by
      rintro cuts rfl
      exact Options.exists_side_of_takeCuts cut
    view := by
      rintro view rfl
      exact Options.isView_of_takeView viewed
    color := isColor_getD _ _
    visible := rfl }

end Draft

/-! ## What can be shown of a well-formed board -/

namespace Face

theorem exists_letter_eq
    {letter : Char}
    (known : letter ∈ Options.faceLetters) :
    ∃ face : Face, face.letter = letter := by
  simp only [Options.faceLetters, List.mem_cons, List.not_mem_nil, or_false] at known
  rcases known with rfl | rfl | rfl
  · exact ⟨.front, rfl⟩
  · exact ⟨.side, rfl⟩
  · exact ⟨.top, rfl⟩

/-- Letters of faces are the letters of the faces that they are read as. -/
theorem exists_mapM_ofLetter?
    {letters : Text}
    (known : ∀ letter ∈ letters, letter ∈ Options.faceLetters) :
    ∃ faces : List Face, letters.mapM ofLetter? = some faces ∧ faces.map letter = letters := by
  induction letters with
  | nil => exact ⟨[], rfl, rfl⟩
  | cons letter rest inductionHypothesis =>
      obtain ⟨headKnown, restKnown⟩ := List.forall_mem_cons.mp known
      obtain ⟨face, rfl⟩ := exists_letter_eq headKnown
      obtain ⟨faces, read, letters⟩ := inductionHypothesis restKnown
      refine ⟨face :: faces, ?_, by rw [List.map_cons, letters]⟩
      rw [List.mapM_cons, ofLetter?_letter, read]
      rfl

end Face

namespace Board.WellFormed

variable {board : Board Binary64} (wellFormed : board.WellFormed)
include wellFormed

/-- A board is cut exactly if it has cuts. -/
theorem hasCuts_eq : board.hasCuts = board.cuts.isSome := by
  unfold Board.hasCuts
  cases cuts : board.cuts with
  | none => rfl
  | some lengths =>
      obtain ⟨side, isCut⟩ := wellFormed.cuts lengths cuts
      have listed : side ∈ Side.all := by cases side <;> decide
      exact List.any_eq_true.mpr ⟨side, listed, isCut⟩

/-- Every letter that is shown is the letter of a face. -/
theorem exists_shownFaces :
    ∃ faces, board.shownFaces? = some faces ∧ faces.map Face.letter = board.shownLetters := by
  refine Face.exists_mapM_ofLetter? ?_
  unfold Board.shownLetters
  split
  next letter rest viewed => exact (wellFormed.view _ viewed).letters
  next =>
    intro letter membership
    obtain ⟨face, -, rfl⟩ := List.mem_map.mp membership
    cases face <;> decide

end Board.WellFormed
end Joinery
