import Joinery.Proofs.Token.Tail

/-!
# Texts cut in front of a token

Tokens stand behind each other. A text that is cut in front of one of them has the tokens
before it in its first part and the other ones in its second part: what is cut off decides
neither where a token ends nor how many brackets are open there.
-/

namespace Joinery
namespace Token

/-- A token does not reach beyond the text. -/
theorem position_lt_of_mem
    {text : Text}
    {position : Nat}
    {depth : Int}
    {token : Token}
    (member : token ∈ ofPieces position depth (Text.pieces read text)) :
    position ≤ token.position ∧ token.position < position + text.length := by
  induction text using Text.pieces_induction read generalizing position depth with
  | nil => cases member
  | other character rest unread inductionHypothesis =>
      rw [ofPieces_of_read_eq_none unread] at member
      have inside := inductionHypothesis member
      rw [List.length_cons]
      omega
  | found character rest kind count found inductionHypothesis =>
      rw [ofPieces_of_read_eq_some found] at member
      have within := count_le_of_read found
      rw [List.length_cons]
      rcases List.mem_cons.mp member with rfl | later
      · dsimp only
        omega
      · have inside := inductionHypothesis later
        rw [List.length_cons, List.length_take, List.length_drop] at inside
        omega

/-- Offset behind a token. -/
def stop (token : Token) : Nat := token.position + token.text.length

theorem position_lt_stop_of_mem
    {text : Text}
    {position : Nat}
    {depth : Int}
    {token : Token}
    (member : token ∈ ofPieces position depth (Text.pieces read text)) :
    token.position < token.stop := by
  obtain ⟨character, rest, count, -, same⟩ := exists_read_of_mem member
  rw [stop, same, List.length_cons]
  omega

/-- A token starts behind the end of every earlier one. -/
theorem pairwise_stop (position : Nat) (depth : Int) (text : Text) :
    (ofPieces position depth (Text.pieces read text)).Pairwise (·.stop ≤ ·.position) := by
  induction text using Text.pieces_induction read generalizing position depth with
  | nil => exact List.Pairwise.nil
  | other character rest unread inductionHypothesis =>
      rw [ofPieces_of_read_eq_none unread]
      exact inductionHypothesis _ _
  | found character rest kind count found inductionHypothesis =>
      rw [ofPieces_of_read_eq_some found]
      exact List.pairwise_cons.mpr
        ⟨fun token later => (position_lt_of_mem later).1, inductionHypothesis _ _⟩

/-- Tokens stand behind each other. -/
theorem pairwise_position (position : Nat) (depth : Int) (text : Text) :
    (ofPieces position depth (Text.pieces read text)).Pairwise (·.position < ·.position) :=
  (pairwise_stop position depth text).imp_of_mem fun member _ behind =>
    (position_lt_stop_of_mem member).trans_le behind

/-- The first token stands where the text starts, if no white space is there. -/
theorem position_of_startsWith
    {text : Text}
    {position : Nat}
    {depth : Int}
    {first : Token}
    {others : List Token}
    (solid : Text.startsWith Text.isBlank text = false)
    (whole : ofPieces position depth (Text.pieces read text) = first :: others) :
    first.position = position := by
  cases text with
  | nil => cases whole
  | cons character rest =>
      cases found : read character rest with
      | none =>
          rw [Text.startsWith_cons, read_eq_none_iff.mp found] at solid
          cases solid
      | some piece =>
          rw [ofPieces_of_read_eq_some found] at whole
          rw [← (List.cons.inj whole).1]

/-- A text with a token among others is cut in front of that token. -/
theorem exists_cut
    {text : Text}
    {position : Nat}
    {depth : Int}
    {before behind : List Token}
    {token : Token}
    (whole : ofPieces position depth (Text.pieces read text) = before ++ token :: behind) :
    ∃ offset, token.position = position + offset ∧
      ofPieces position depth (Text.pieces read (text.take offset)) = before ∧
      ofPieces token.position token.depth (Text.pieces read (text.drop offset)) =
        token :: behind ∧
      Text.startsWith Text.isBlank (text.drop offset) = false := by
  induction text using Text.pieces_induction read generalizing position depth before with
  | nil => simp [Text.pieces, Text.piecesAfter, ofPieces] at whole
  | other character rest unread inductionHypothesis =>
      rw [ofPieces_of_read_eq_none unread] at whole
      obtain ⟨offset, same, front, rear, solid⟩ := inductionHypothesis whole
      have unreadFront : read character (rest.take offset) = none :=
        read_eq_none_iff.mpr (read_eq_none_iff.mp unread)
      refine ⟨offset + 1, by omega, ?_, rear, solid⟩
      rw [List.take_succ_cons, ofPieces_of_read_eq_none unreadFront, front]
  | found character rest kind count found inductionHypothesis =>
      have within := count_le_of_read found
      have pieces := ofPieces_of_read_eq_some found position depth
      rw [pieces] at whole
      cases before with
      | nil =>
          obtain ⟨rfl, others⟩ := List.cons.inj whole
          refine ⟨0, rfl, rfl, ?_, ?_⟩
          · rw [List.drop_zero, pieces, others]
          · rw [List.drop_zero, Text.startsWith_cons, ← Bool.not_eq_true]
            intro blank
            rw [read_of_isBlank blank rest] at found
            cases found
      | cons first others =>
          obtain ⟨rfl, later⟩ := List.cons.inj whole
          obtain ⟨offset, same, front, rear, solid⟩ := inductionHypothesis later
          have length : (character :: rest.take count).length = count + 1 := by
            rw [List.length_cons, List.length_take, Nat.min_eq_left within]
          have foundFront : read character (rest.take (count + offset)) = some (kind, count) :=
            read_take found (Nat.le_add_right _ _)
          have drop : (character :: rest).drop (count + 1 + offset) =
              (rest.drop count).drop offset := by
            rw [List.drop_drop, Nat.add_right_comm, List.drop_succ_cons]
          refine ⟨count + 1 + offset, by omega, ?_, ?_, ?_⟩
          · rw [Nat.add_right_comm, List.take_succ_cons, ofPieces_of_read_eq_some foundFront,
              List.take_take, Nat.min_eq_left (Nat.le_add_right _ _), List.drop_take,
              Nat.add_sub_cancel_left, front]
          · rw [drop, rear]
          · rw [drop, solid]

end Token
end Joinery
