import Mathlib.Data.List.Infix
import Joinery.Assembly
import Joinery.Proofs.Recovery
import Joinery.Proofs.Text.Piece

/-!
# Parts of options

Options and dimensions are cut at keywords, commas and separators, and white space around
the pieces is dropped. So every expression that is read there, and every rest that is left,
is a row of neighbouring characters of the text.
-/

namespace Joinery

theorem Text.strip_isInfix (text : Text) : strip text <:+: text := by
  obtain ⟨blanks, whole, -⟩ := exists_stripEnd_append (stripStart text)
  have front : strip text <+: stripStart text := ⟨blanks, whole⟩
  exact front.isInfix.trans (List.dropWhile_suffix isBlank).isInfix

/-! ## Sections -/

namespace Keyword

theorem behind?_isInfix
    {text keyword rest : Text}
    (found : behind? text keyword = some rest) :
    rest <:+: text := by
  obtain ⟨position, -, rfl⟩ := Option.map_eq_some_iff.mp found
  exact (List.drop_suffix _ text).isInfix

theorem takeSection_isInfix (text : Text) (stops : List Text) :
    (takeSection text stops).1 <:+: text ∧ (takeSection text stops).2 <:+: text := by
  unfold takeSection
  split
  · exact ⟨Text.strip_isInfix text, List.nil_infix⟩
  · exact ⟨(Text.strip_isInfix _).trans (List.take_prefix _ text).isInfix,
      (Text.strip_isInfix _).trans (List.drop_suffix _ text).isInfix⟩

/-- The section behind a keyword, and what is left behind that. -/
theorem takeSection_strip_isInfix (text : Text) (stops : List Text) :
    (takeSection (Text.strip text) stops).1 <:+: text ∧
      (takeSection (Text.strip text) stops).2 <:+: text :=
  (takeSection_isInfix (Text.strip text) stops).imp (·.trans (Text.strip_isInfix text))
    (·.trans (Text.strip_isInfix text))

end Keyword

/-! ## Coordinates and dimensions -/

theorem infix_of_mem_splitCoordinatesFrom
    {depth : Int}
    {begun text part : Text}
    (member : part ∈ splitCoordinatesFrom depth begun text) :
    part <:+: begun.reverse ++ text := by
  induction text generalizing depth begun with
  | nil =>
      rw [List.mem_singleton.mp member, List.append_nil]
  | cons character rest inductionHypothesis =>
      unfold splitCoordinatesFrom at member
      split at member
      · rcases List.mem_cons.mp member with rfl | later
        · exact (List.prefix_append _ _).isInfix
        · have inside := inductionHypothesis later
          rw [List.reverse_nil, List.nil_append] at inside
          exact inside.trans ((List.suffix_cons character rest).trans
            (List.suffix_append _ _)).isInfix
      · simpa using inductionHypothesis member

theorem infix_of_mem_splitCoordinates
    {text part : Text}
    (member : part ∈ splitCoordinates text) :
    part <:+: text :=
  infix_of_mem_splitCoordinatesFrom member

namespace Dimension

theorem infix_of_mem_splitFrom
    {before begun part : Text}
    {pieces : List (Text.Piece Separator)}
    (member : part ∈ splitFrom before begun pieces) :
    part <:+: begun.reverse ++ pieces.flatMap Text.Piece.text := by
  induction pieces generalizing before begun with
  | nil =>
      rw [List.mem_singleton.mp member, List.flatMap_nil, List.append_nil]
  | cons piece rest inductionHypothesis =>
      cases piece with
      | other character => simpa [Text.Piece.text] using inductionHypothesis member
      | found separator text =>
          unfold splitFrom at member
          split at member
          · rcases List.mem_cons.mp member with rfl | later
            · exact (List.prefix_append _ _).isInfix
            · have inside := inductionHypothesis later
              rw [List.reverse_nil, List.nil_append] at inside
              rw [List.flatMap_cons]
              exact inside.trans ((List.suffix_append _ _).trans
                (List.suffix_append _ _)).isInfix
          · simpa [Text.Piece.text] using inductionHypothesis member

end Dimension

theorem infix_of_mem_splitDimensions
    {text part : Text}
    (member : part ∈ splitDimensions text) :
    part <:+: text := by
  have inside := Dimension.infix_of_mem_splitFrom member
  rwa [Text.flatMap_text_pieces, List.reverse_nil, List.nil_append] at inside

namespace Options

/-! ## Cuts and comments -/

theorem infix_of_readCut
    {character : Char}
    {rest length : Text}
    {side : Option Side}
    {count : Nat}
    (found : readCut character rest = some (.cut side length, count)) :
    length <:+: rest := by
  simp only [readCut] at found
  split at found
  · cases found
  · split at found
    · cases found
      exact (List.takeWhile_prefix _).isInfix.trans (List.drop_suffix _ rest).isInfix
    · cases found

/-- The length of a cut is a part of its section. -/
theorem infix_of_mem_found
    {text length : Text}
    {side : Option Side}
    (member : .cut side length ∈ Text.found readCut text) :
    length <:+: text := by
  induction text using Text.pieces_induction readCut with
  | nil => cases member
  | other character rest unread inductionHypothesis =>
      rw [Text.found_of_read_eq_none unread] at member
      exact (inductionHypothesis member).trans (List.suffix_cons character rest).isInfix
  | found character rest word count found inductionHypothesis =>
      have whole := (List.suffix_cons character rest).isInfix
      rw [Text.found, Text.pieces_of_read_eq_some found] at member
      rcases List.mem_cons.mp member with rfl | later
      · exact (infix_of_readCut found).trans whole
      · exact ((inductionHypothesis later).trans (List.drop_suffix count rest).isInfix).trans whole

theorem withoutCommentAfter_isPrefix (isFree : Bool) (text : Text) :
    withoutCommentAfter isFree text <+: text := by
  induction text generalizing isFree with
  | nil => exact List.prefix_refl []
  | cons character rest inductionHypothesis =>
      unfold withoutCommentAfter
      split
      · exact List.nil_prefix
      · exact List.cons_prefix_cons.mpr ⟨rfl, inductionHypothesis _⟩

theorem withoutComment_isInfix (text : Text) : withoutComment text <:+: text :=
  (Text.strip_isInfix _).trans (withoutCommentAfter_isPrefix true text).isInfix

/-! ## What is left -/

section Rest

variable {scope : Scope} {text options rest : Text} {position : Position}

theorem readSegment_isInfix (found : readSegment scope text = .ok (position, rest)) :
    rest <:+: text := by
  unfold readSegment at found
  split at found
  · cases found
  next offset _ =>
    split at found
    · split at found
      next last behind taken =>
        have inside := (Keyword.takeSection_strip_isInfix (text.drop (offset + 2)) behindSegment).2
        rw [taken] at inside
        split at found
        · obtain ⟨_, -, found⟩ := bind_eq_ok.mp found
          obtain ⟨_, -, found⟩ := bind_eq_ok.mp found
          obtain ⟨_, -, found⟩ := bind_eq_ok.mp found
          obtain ⟨_, -, found⟩ := bind_eq_ok.mp found
          cases found
          exact inside.trans (List.drop_suffix _ text).isInfix
        · cases found
    · cases found

/-- What a position leaves of the options. -/
theorem readPosition_isInfix (found : readPosition scope options = .ok (position, rest)) :
    rest <:+: options := by
  unfold readPosition at found
  split at found
  next _ ends behind =>
    exact (readSegment_isInfix found).trans (Keyword.behind?_isInfix behind)
  next _ point _ behind =>
    obtain ⟨_, -, same⟩ := bind_eq_ok.mp found
    cases same
    exact (Keyword.takeSection_strip_isInfix point behindPosition).2.trans
      (Keyword.behind?_isInfix behind)
  next =>
    cases found
    exact List.infix_refl options

theorem readLevel_isInfix
    {level : Option Binary64}
    (found : readLevel scope options = .ok (level, rest)) :
    rest <:+: options := by
  unfold readLevel at found
  split at found
  · obtain ⟨_, -, same⟩ := bind_eq_ok.mp found
    cases same
    exact (Keyword.takeSection_strip_isInfix _ behindPosition).2.trans
      (List.drop_suffix 1 options).isInfix
  · cases found
    exact List.infix_refl options

end Rest
end Options

/-- What the place of a draft leaves of its options. -/
theorem Draft.place_isInfix
    {scope : Scope}
    {draft : Draft}
    {placement : Placement}
    {rest : Text}
    (placed : draft.place scope = .ok (placement, rest)) :
    rest <:+: draft.options := by
  unfold place at placed
  split at placed
  · cases placed
    exact List.infix_refl _
  · cases placed
    exact List.infix_refl _
  · obtain ⟨⟨level, behind⟩, found, placed⟩ := bind_eq_ok.mp placed
    dsimp only at placed
    split at placed
    · cases placed
      exact Options.readLevel_isInfix found
    · cases placed

end Joinery
