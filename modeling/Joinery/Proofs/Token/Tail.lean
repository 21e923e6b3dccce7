import Joinery.Proofs.Token.Reader

/-!
# Tails of a text

The tail of a text has the last tokens of the text, at the same bracket depths. A text
has as tails what is left when white space is stripped, and what starts or follows at a
word outside brackets.
-/

namespace Joinery
namespace Token

/-- A token without its position. -/
def content (token : Token) : Kind × Text × Int := (token.kind, token.text, token.depth)

/-- Where tokens stand does not matter for their contents. -/
theorem map_content_ofPieces
    (first second : Nat)
    (depth : Int)
    (pieces : List (Text.Piece Kind)) :
    (ofPieces first depth pieces).map content = (ofPieces second depth pieces).map content := by
  induction pieces generalizing first second depth with
  | nil => rfl
  | cons piece rest inductionHypothesis =>
      cases piece with
      | other character => exact inductionHypothesis _ _ _
      | found kind text =>
          rw [ofPieces, ofPieces, List.map_cons, List.map_cons, inductionHypothesis]
          rfl

/-! ## Stripping -/

theorem ofPieces_stripStart (position : Nat) (depth : Int) (text : Text) :
    (ofPieces position depth (Text.pieces read (Text.stripStart text))).map content =
      (ofPieces position depth (Text.pieces read text)).map content := by
  induction text with
  | nil => rfl
  | cons character rest inductionHypothesis =>
      unfold Text.stripStart at inductionHypothesis ⊢
      rw [List.dropWhile_cons]
      split
      next blank =>
        rw [inductionHypothesis, ofPieces_of_read_eq_none (read_of_isBlank blank rest)]
        exact map_content_ofPieces _ _ _ _
      next => rfl

theorem read_append_blanks
    {blanks : Text}
    (blank : ∀ character ∈ blanks, Text.isBlank character = true)
    (character : Char)
    (rest : Text) :
    read character (rest ++ blanks) = read character rest := by
  have same : (rest ++ blanks).takeWhile Text.isAsciiWordCharacter =
      rest.takeWhile Text.isAsciiWordCharacter := by
    have none : blanks.takeWhile Text.isAsciiWordCharacter = [] := by
      cases blanks with
      | nil => rfl
      | cons first others =>
          rw [List.takeWhile_cons_of_neg]
          simp [isAsciiWordCharacter_of_isBlank (blank first List.mem_cons_self)]
    rw [List.takeWhile_append, none, List.append_nil]
    split <;> rename_i all
    · exact ((List.takeWhile_prefix _).eq_of_length all).symm
    · rfl
  simp only [read, same]

theorem ofPieces_of_blanks
    {blanks : Text}
    (blank : ∀ character ∈ blanks, Text.isBlank character = true)
    (position : Nat)
    (depth : Int) :
    ofPieces position depth (Text.pieces read blanks) = [] := by
  induction blanks generalizing position depth with
  | nil => rfl
  | cons character rest inductionHypothesis =>
      obtain ⟨first, others⟩ := List.forall_mem_cons.mp blank
      rw [ofPieces_of_read_eq_none (read_of_isBlank first rest), inductionHypothesis others]

/-- White space at the end of a text has no tokens. -/
theorem ofPieces_append_blanks
    {blanks : Text}
    (blank : ∀ character ∈ blanks, Text.isBlank character = true)
    (position : Nat)
    (depth : Int)
    (text : Text) :
    ofPieces position depth (Text.pieces read (text ++ blanks)) =
      ofPieces position depth (Text.pieces read text) := by
  induction text using Text.pieces_induction read generalizing position depth with
  | nil => exact ofPieces_of_blanks blank position depth
  | other character rest unread inductionHypothesis =>
      have unread' := (read_append_blanks blank character rest).trans unread
      rw [List.cons_append, ofPieces_of_read_eq_none unread', ofPieces_of_read_eq_none unread,
        inductionHypothesis]
  | found character rest kind count found inductionHypothesis =>
      have found' := (read_append_blanks blank character rest).trans found
      have inside := count_le_of_read found
      rw [List.cons_append, ofPieces_of_read_eq_some found', ofPieces_of_read_eq_some found,
        List.take_append_of_le_length inside, List.drop_append_of_le_length inside,
        inductionHypothesis]

/-- White space around a text has no tokens. -/
theorem map_content_strip (text : Text) :
    (tokens (Text.strip text)).map content = (tokens text).map content := by
  obtain ⟨blanks, whole, blank⟩ := Text.exists_stripEnd_append (Text.stripStart text)
  have trimmed := ofPieces_append_blanks blank 0 0 (Text.strip text)
  have started := ofPieces_stripStart 0 0 text
  rw [Text.strip, whole] at trimmed
  rwa [trimmed] at started

end Token

/-! ## Tails -/

/-- A tail of a text: its tokens are the last tokens of the text, at the same depths. -/
def IsTail (tail text : Text) : Prop :=
  (tokens tail).map Token.content <:+ (tokens text).map Token.content

namespace IsTail

theorem refl (text : Text) : IsTail text text := List.suffix_refl _

theorem nil (text : Text) : IsTail [] text := List.nil_suffix

theorem trans
    {first second third : Text}
    (inner : IsTail first second)
    (outer : IsTail second third) :
    IsTail first third :=
  List.IsSuffix.trans inner outer

/-- A stripped text has all the tokens. -/
theorem strip (text : Text) : IsTail (Text.strip text) text :=
  ⟨[], Token.map_content_strip text⟩

end IsTail

namespace Token

/-- A token among the pieces of a text: it starts at an offset in the text, and the text
from there on and the text behind it have the last tokens. -/
theorem exists_offset_of_mem
    {text : Text}
    {position : Nat}
    {depth : Int}
    {token : Token}
    (member : token ∈ ofPieces position depth (Text.pieces read text)) :
    ∃ offset, token.position = position + offset ∧
      ofPieces token.position token.depth (Text.pieces read (text.drop offset)) <:+
        ofPieces position depth (Text.pieces read text) ∧
      ofPieces (token.position + token.text.length) (token.depth + depthOf token.text)
          (Text.pieces read (text.drop (offset + token.text.length))) <:+
        ofPieces position depth (Text.pieces read text) := by
  induction text using Text.pieces_induction read generalizing position depth with
  | nil => cases member
  | other character rest unread inductionHypothesis =>
      rw [ofPieces_of_read_eq_none unread] at member ⊢
      obtain ⟨offset, same, from_, behind⟩ := inductionHypothesis member
      refine ⟨offset + 1, by omega, from_, ?_⟩
      rw [Nat.add_right_comm]
      exact behind
  | found character rest kind count found inductionHypothesis =>
      have whole := ofPieces_of_read_eq_some found position depth
      rw [whole] at member ⊢
      have length : (character :: rest.take count).length = count + 1 := by
        rw [List.length_cons, List.length_take, Nat.min_eq_left (count_le_of_read found)]
      rcases List.mem_cons.mp member with rfl | later
      · refine ⟨0, rfl, ⟨[], whole⟩, ?_⟩
        · rw [length, Nat.zero_add, List.drop_succ_cons, ← length]
          exact List.suffix_cons _ _
      · obtain ⟨offset, same, from_, behind⟩ := inductionHypothesis later
        refine ⟨count + 1 + offset, by omega, ?_, ?_⟩
        · rw [Nat.add_right_comm, List.drop_succ_cons, ← List.drop_drop]
          exact from_.trans (List.suffix_cons _ _)
        · rw [Nat.add_assoc, Nat.add_right_comm, List.drop_succ_cons, ← List.drop_drop]
          exact behind.trans (List.suffix_cons _ _)

/-- The characters of a word belong to words. -/
theorem isAsciiWordCharacter_of_mem
    {text : Text}
    {position : Nat}
    {depth : Int}
    {token : Token}
    (member : token ∈ ofPieces position depth (Text.pieces read text))
    (isWord : token.kind = .word) :
    ∀ character ∈ token.text, Text.isAsciiWordCharacter character = true := by
  obtain ⟨first, rest, count, found, same⟩ := exists_read_of_mem member
  rw [isWord] at found
  rw [same]
  exact List.forall_mem_cons.mpr
    ⟨(take_of_read_eq_word found).1, isAsciiWordCharacter_of_mem_take found⟩

end Token

namespace IsTail

variable {text : Text} {token : Token}

/-- The text from a token outside brackets on. -/
theorem drop_position
    (member : token ∈ tokens text)
    (outside : token.depth = 0) :
    IsTail (text.drop token.position) text := by
  obtain ⟨offset, position, from_, -⟩ := Token.exists_offset_of_mem member
  rw [Nat.zero_add] at position
  have shifted := from_.map Token.content
  rw [outside, ← position, Token.map_content_ofPieces _ 0] at shifted
  exact shifted

/-- The text behind a word outside brackets. -/
theorem drop_word
    (member : token ∈ tokens text)
    (isWord : token.kind = .word)
    (outside : token.depth = 0) :
    IsTail (text.drop (token.position + token.text.length)) text := by
  obtain ⟨offset, position, -, behind⟩ := Token.exists_offset_of_mem member
  rw [Nat.zero_add] at position
  -- A word opens and closes no brackets, so the text behind it starts at depth zero, too.
  have level := Token.depthOf_of_isAsciiWordCharacter
    (Token.isAsciiWordCharacter_of_mem member isWord)
  have shifted := behind.map Token.content
  rw [outside, level, ← position, Token.map_content_ofPieces _ 0] at shifted
  exact shifted

end IsTail

end Joinery
