import Joinery.Proofs.Coordinate
import Joinery.Proofs.Token.Reader

/-!
# Parts by their offsets

Coordinates and dimensions are parts of a text from one offset to another one. Coordinates
are cut at the tokens that are commas at depth zero, and dimensions at the separators in
front of which the characters of the text have depth zero.
-/

namespace Joinery

theorem Text.extract_length_append
    {front : Text}
    {start : Nat}
    (inside : start ≤ front.length)
    (rest : Text) :
    (front ++ rest).extract start front.length = front.drop start := by
  rw [List.extract_eq_take_drop, List.drop_append_of_le_length inside, List.take_left']
  rw [List.length_drop]

/-- A part that has begun at an offset grows with the text in front of it. -/
theorem Text.reverse_append_eq_drop
    {front part : Text}
    {start : Nat}
    (inside : start ≤ front.length)
    (begun : part.reverse = front.drop start)
    (piece : Text) :
    (piece.reverse ++ part).reverse = (front ++ piece).drop start := by
  rw [List.reverse_append, List.reverse_reverse, begun, List.drop_append_of_le_length inside]

/-! ## Coordinates -/

/-- Parts of a text between the commas among its tokens at depth zero, when a part has
begun at an offset. -/
def splitAtCommas (text : Text) (start : Nat) : List Token → List Text
  | [] => [text.drop start]
  | token :: rest =>
      if token.kind = .comma ∧ token.depth = 0 then
        text.extract start token.position :: splitAtCommas text (token.position + 1) rest
      else splitAtCommas text start rest

namespace Token

theorem Kind.ofCharacter_eq_comma_iff (character : Char) :
    Kind.ofCharacter character = .comma ↔ character = ',' := by
  unfold Kind.ofCharacter
  split <;> simp_all

variable {character : Char} {rest : Text} {kind : Kind} {count : Nat}

/-- A comma is a token of its own. -/
theorem eq_of_read_eq_comma (found : read character rest = some (.comma, count)) :
    character = ',' ∧ count = 0 := by
  rcases read_cases found with ⟨-, other, -⟩ | ⟨-, other, -⟩ | ⟨-, same, none, -⟩
  · cases other
  · cases other
  · exact ⟨(Kind.ofCharacter_eq_comma_iff character).mp same.symm, none⟩

/-- No comma stands inside of another token. -/
theorem eq_comma_of_mem_read
    (found : read character rest = some (kind, count))
    (member : ',' ∈ character :: rest.take count) :
    kind = .comma := by
  rcases List.mem_cons.mp member with rfl | later
  · rcases read_cases found with ⟨isWord, -⟩ | ⟨isDollar, -⟩ | ⟨-, same, -⟩
    · exact absurd isWord (by decide)
    · exact absurd isDollar (by decide)
    · exact same
  · exact absurd (isAsciiWordCharacter_of_mem_take found ',' later) (by decide)

/-- In a token that is no comma at depth zero, no comma stands at depth zero. -/
theorem depth_ne_zero_of_read
    {depth : Int}
    (found : read character rest = some (kind, count))
    (different : ¬(kind = .comma ∧ depth = 0))
    (before after : Text)
    (whole : character :: rest.take count = before ++ ',' :: after) :
    depth + depthOf before ≠ 0 := by
  obtain rfl : kind = .comma :=
    eq_comma_of_mem_read found (whole ▸ List.mem_append_right before List.mem_cons_self)
  obtain ⟨rfl, rfl⟩ := eq_of_read_eq_comma found
  cases before with
  | nil =>
      rw [depthOf, Int.add_zero]
      exact fun level => different ⟨rfl, level⟩
  | cons first others => simp at whole

end Token

/-- What has been taken of the text stands before the tokens that are left, and the part
that has begun is the last part of it. -/
theorem splitCoordinatesFrom_eq_splitAtCommas
    {front part text : Text}
    {start : Nat}
    (inside : start ≤ front.length)
    (begun : part.reverse = front.drop start)
    (depth : Int) :
    splitCoordinatesFrom depth part text =
      splitAtCommas (front ++ text) start
        (Token.ofPieces front.length depth (Text.pieces Token.read text)) := by
  induction text using Text.pieces_induction Token.read
    generalizing front part start depth with
  | nil =>
      rw [splitCoordinatesFrom, begun, List.append_nil]
      rfl
  | other character rest unread inductionHypothesis =>
      have blank := Token.read_eq_none_iff.mp unread
      have different : ¬(character = ',' ∧ depth = 0) := by
        rintro ⟨rfl, -⟩
        exact absurd blank (by decide)
      have behind := inductionHypothesis (List.length_append ▸ Nat.le_add_right_of_le inside)
        (Text.reverse_append_eq_drop inside begun [character]) depth
      rw [List.length_append, List.append_assoc] at behind
      rw [splitCoordinatesFrom, if_neg different, Token.depthChange_of_isBlank blank,
        Int.add_zero, Token.ofPieces_of_read_eq_none unread]
      exact behind
  | found character rest kind count found inductionHypothesis =>
      rw [Token.ofPieces_of_read_eq_some found, splitAtCommas]
      by_cases separates : kind = .comma ∧ depth = 0
      · obtain ⟨rfl, rfl⟩ := separates
        obtain ⟨rfl, rfl⟩ := Token.eq_of_read_eq_comma found
        have behind := @inductionHypothesis (front ++ [',']) [] (front.length + 1)
          (by rw [List.length_append]; rfl) (by simp) 0
        rw [List.length_append, List.append_assoc] at behind
        rw [splitCoordinatesFrom, if_pos ⟨rfl, rfl⟩, if_pos ⟨rfl, rfl⟩, begun,
          Text.extract_length_append inside]
        exact congrArg _ behind
      · have deep := Token.depth_ne_zero_of_read found separates
        have whole : character :: rest = (character :: rest.take count) ++ rest.drop count := by
          rw [List.cons_append, List.take_append_drop]
        rw [whole, if_neg separates, splitCoordinatesFrom_append deep]
        generalize character :: rest.take count = piece at *
        have behind := inductionHypothesis (List.length_append ▸ Nat.le_add_right_of_le inside)
          (Text.reverse_append_eq_drop inside begun piece) (depth + Token.depthOf piece)
        rw [List.length_append, List.append_assoc] at behind
        exact behind

/-- Coordinates are cut at the tokens that are commas outside all brackets. -/
theorem splitCoordinates_eq_splitAtCommas (text : Text) :
    splitCoordinates text = splitAtCommas text 0 (tokens text) :=
  @splitCoordinatesFrom_eq_splitAtCommas [] [] text 0 (Nat.le_refl 0) rfl 0

/-! ## Dimensions -/

namespace Dimension

/-- Whether a separator at an offset of a text separates dimensions. -/
def separatesAt (text : Text) (offset : Nat) (separator : Separator) : Bool :=
  Token.depthAt text offset == 0 &&
    (separator.isSpaced || !separator.beforeDigit || !endsWithVariable (text.take offset).reverse)

/-- Parts of a text between separators, when the pieces start at an offset and a part has
begun at another one. -/
def splitAtOffsets (text : Text) (start offset : Nat) : List (Text.Piece Separator) → List Text
  | [] => [text.drop start]
  | .other _ :: rest => splitAtOffsets text start (offset + 1) rest
  | .found separator piece :: rest =>
      if separatesAt text offset separator then
        text.extract start offset ::
          splitAtOffsets text (offset + piece.length) (offset + piece.length) rest
      else splitAtOffsets text start (offset + piece.length) rest

theorem separates_reverse (front rest : Text) (separator : Separator) :
    separates front.reverse separator = separatesAt (front ++ rest) front.length separator := by
  rw [separates, separatesAt, Token.depthAt_length_append, Token.depthOf_reverse, List.take_left]

theorem splitFrom_eq_splitAtOffsets
    {front part : Text}
    {start : Nat}
    (inside : start ≤ front.length)
    (begun : part.reverse = front.drop start)
    (pieces : List (Text.Piece Separator)) :
    splitFrom front.reverse part pieces =
      splitAtOffsets (front ++ pieces.flatMap Text.Piece.text) start front.length pieces := by
  induction pieces generalizing front part start with
  | nil =>
      rw [splitFrom, begun, List.flatMap_nil, List.append_nil]
      rfl
  | cons piece rest inductionHypothesis =>
      have behind := inductionHypothesis (List.length_append ▸ Nat.le_add_right_of_le inside)
        (Text.reverse_append_eq_drop inside begun piece.text)
      rw [List.length_append, List.append_assoc, List.reverse_append] at behind
      cases piece with
      | other character => exact behind
      | found separator text =>
          rw [splitFrom, splitAtOffsets, List.flatMap_cons, ← separates_reverse]
          split
          next =>
            have next := @inductionHypothesis (front ++ text) [] (front.length + text.length)
              (by rw [List.length_append]) (by simp)
            rw [List.length_append, List.append_assoc, List.reverse_append] at next
            rw [begun, Text.extract_length_append inside]
            exact congrArg _ next
          next => exact behind

/-- Dimensions are cut at offsets: at the separators that stand at depth zero and do not
belong to a variable. -/
theorem splitDimensions_eq_splitAtOffsets (text : Text) :
    splitDimensions text = splitAtOffsets text 0 0 (Text.pieces readSeparator text) := by
  have taken := @splitFrom_eq_splitAtOffsets [] [] 0 (Nat.le_refl 0) rfl
    (Text.pieces readSeparator text)
  rwa [Text.flatMap_text_pieces] at taken

end Dimension
end Joinery
