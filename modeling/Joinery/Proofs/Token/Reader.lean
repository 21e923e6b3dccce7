import Joinery.Proofs.Text.Spacing
import Joinery.Proofs.Token.Depth

/-!
# Reading a token

A token is read wherever no white space stands: a word or a variable as long as possible, or
a single character. So white space is part of no token, and every bracket is a token of its
own. The depth behind a token, which its kind decides, is the one behind its characters.
-/

namespace Joinery
namespace Token

/-! ## Characters of tokens -/

/-- The code points of the characters of a word. -/
theorem toNat_of_isAsciiWordCharacter
    {character : Char}
    (isWord : Text.isAsciiWordCharacter character = true) :
    (48 ≤ character.toNat ∧ character.toNat ≤ 57) ∨
      (65 ≤ character.toNat ∧ character.toNat ≤ 90) ∨ character.toNat = 95 ∨
      (97 ≤ character.toNat ∧ character.toNat ≤ 122) := by
  rcases Bool.or_eq_true_iff.mp isWord with isAlphanum | isLine
  · rcases Bool.or_eq_true_iff.mp isAlphanum with isAlpha | isDigit
    · rcases Bool.or_eq_true_iff.mp isAlpha with isUpper | isLower
      · have range : character.val ≥ 'A'.val ∧ character.val ≤ 'Z'.val :=
          of_decide_eq_true isUpper
        exact Or.inr (Or.inl ⟨UInt32.le_iff_toNat_le.mp range.1,
          UInt32.le_iff_toNat_le.mp range.2⟩)
      · have range := Bool.and_eq_true_iff.mp isLower
        exact Or.inr (Or.inr (Or.inr ⟨UInt32.le_iff_toNat_le.mp (of_decide_eq_true range.1),
          UInt32.le_iff_toNat_le.mp (of_decide_eq_true range.2)⟩))
    · exact Or.inl (Char.isDigit_iff_toNat.mp isDigit)
  · rw [eq_of_beq isLine]
    exact Or.inr (Or.inr (Or.inl rfl))

theorem isAsciiWordCharacter_of_isAsciiWordStart
    {character : Char}
    (starts : Text.isAsciiWordStart character = true) :
    Text.isAsciiWordCharacter character = true := by
  unfold Text.isAsciiWordStart at starts
  rw [Text.isAsciiWordCharacter, Char.isAlphanum, Bool.or_right_comm, starts, Bool.true_or]

theorem isAsciiWordCharacter_of_isBlank
    {character : Char}
    (blank : Text.isBlank character = true) :
    Text.isAsciiWordCharacter character = false := by
  rw [← Bool.not_eq_true]
  intro isWord
  have range := toNat_of_isAsciiWordCharacter isWord
  simp only [Text.isBlank, Text.inRanges, Text.blankRanges, List.any_cons, List.any_nil,
    Bool.or_false, Bool.or_eq_true, Bool.and_eq_true, decide_eq_true_eq] at blank
  omega

theorem isAsciiWordStart_of_isBlank
    {character : Char}
    (blank : Text.isBlank character = true) :
    Text.isAsciiWordStart character = false := by
  rw [← Bool.not_eq_true]
  intro starts
  have isWord := isAsciiWordCharacter_of_isAsciiWordStart starts
  rw [isAsciiWordCharacter_of_isBlank blank] at isWord
  cases isWord

end Token

theorem Text.isBlank_of_isAsciiWordCharacter
    {character : Char}
    (isWord : isAsciiWordCharacter character = true) :
    isBlank character = false := by
  rw [← Bool.not_eq_true]
  intro blank
  rw [Token.isAsciiWordCharacter_of_isBlank blank] at isWord
  cases isWord

namespace Token

/-! ## What is read -/

theorem read_of_isBlank
    {character : Char}
    (blank : Text.isBlank character = true)
    (rest : Text) :
    read character rest = none := by
  simp [read, blank]

/-- Only at white space no token starts. -/
theorem read_eq_none_iff {character : Char} {rest : Text} :
    read character rest = none ↔ Text.isBlank character = true := by
  refine ⟨fun unread => ?_, fun blank => read_of_isBlank blank rest⟩
  unfold read at unread
  grind

theorem Kind.ofCharacter_ne_word (character : Char) : Kind.ofCharacter character ≠ .word := by
  unfold Kind.ofCharacter
  split <;> exact Kind.noConfusion

/-- A token is a word or a variable as long as possible, or a single character. -/
theorem read_cases
    {character : Char}
    {rest : Text}
    {kind : Kind}
    {count : Nat}
    (found : read character rest = some (kind, count)) :
    (Text.isAsciiWordCharacter character = true ∧ kind = .word ∧
        count = (rest.takeWhile Text.isAsciiWordCharacter).length) ∨
      (character = '$' ∧ kind = .variable ∧
        count = (rest.takeWhile Text.isAsciiWordCharacter).length ∧ 0 < count) ∨
      (Text.isAsciiWordCharacter character = false ∧ kind = .ofCharacter character ∧ count = 0 ∧
        (character = '$' → Text.startsWith Text.isAsciiWordCharacter rest = false)) := by
  unfold read at found
  dsimp only at found
  split at found
  · cases found
  · split at found
    next isWord =>
      cases found
      exact Or.inl ⟨isWord, rfl, rfl⟩
    next notWord =>
      split at found
      next isVariable =>
        cases found
        exact Or.inr (Or.inl ⟨isVariable.1, rfl, rfl, isVariable.2⟩)
      next notVariable =>
        cases found
        refine Or.inr (Or.inr ⟨by simpa using notWord, rfl, rfl, fun isDollar => ?_⟩)
        have none : rest.takeWhile Text.isAsciiWordCharacter = [] := by
          simpa [isDollar] using notVariable
        have left := Text.startsWith_drop_takeWhile Text.isAsciiWordCharacter rest
        rwa [none] at left

theorem count_le_of_read
    {character : Char}
    {rest : Text}
    {kind : Kind}
    {count : Nat}
    (found : read character rest = some (kind, count)) :
    count ≤ rest.length := by
  have bound := (List.takeWhile_prefix Text.isAsciiWordCharacter (l := rest)).length_le
  rcases read_cases found with ⟨-, -, rfl⟩ | ⟨-, -, rfl, -⟩ | ⟨-, -, rfl, -⟩
  · exact bound
  · exact bound
  · exact Nat.zero_le _

/-- A word is read as long as possible. -/
theorem take_of_read_eq_word
    {character : Char}
    {rest : Text}
    {count : Nat}
    (found : read character rest = some (.word, count)) :
    Text.isAsciiWordCharacter character = true ∧
      rest.take count = rest.takeWhile Text.isAsciiWordCharacter := by
  rcases read_cases found with ⟨isWord, -, rfl⟩ | ⟨-, other, -⟩ | ⟨-, other, -⟩
  · exact ⟨isWord, (List.prefix_iff_eq_take.mp (List.takeWhile_prefix _)).symm⟩
  · cases other
  · exact absurd other.symm (Kind.ofCharacter_ne_word character)

/-- All but the first character of a token belong to words. -/
theorem isAsciiWordCharacter_of_mem_take
    {character : Char}
    {rest : Text}
    {kind : Kind}
    {count : Nat}
    (found : read character rest = some (kind, count)) :
    ∀ other ∈ rest.take count, Text.isAsciiWordCharacter other = true := by
  have inside : ∀ other ∈ rest.take (rest.takeWhile Text.isAsciiWordCharacter).length,
      Text.isAsciiWordCharacter other = true := by
    rw [← List.prefix_iff_eq_take.mp (List.takeWhile_prefix _)]
    exact List.all_eq_true.mp List.all_takeWhile
  rcases read_cases found with ⟨-, -, rfl⟩ | ⟨-, -, rfl, -⟩ | ⟨-, -, rfl, -⟩
  · exact inside
  · exact inside
  · exact fun other member => absurd member List.not_mem_nil

/-- No token has white space in it. -/
theorem isBlank_of_mem_read
    {character : Char}
    {rest : Text}
    {kind : Kind}
    {count : Nat}
    (found : read character rest = some (kind, count)) :
    ∀ other ∈ character :: rest.take count, Text.isBlank other = false := by
  refine List.forall_mem_cons.mpr ⟨?_, fun other member => ?_⟩
  · rw [← Bool.not_eq_true, ← @read_eq_none_iff character rest, found]
    exact Option.some_ne_none _
  · exact Text.isBlank_of_isAsciiWordCharacter
      (isAsciiWordCharacter_of_mem_take found other member)

/-- A word is read as a whole. -/
theorem read_word
    {first : Char}
    {others rest : Text}
    (isWord : (first :: others).all Text.isAsciiWordCharacter = true)
    (stops : Text.startsWith Text.isAsciiWordCharacter rest = false) :
    read first (others ++ rest) = some (.word, others.length) := by
  rw [List.all_cons, Bool.and_eq_true] at isWord
  have solid := Text.isBlank_of_isAsciiWordCharacter isWord.1
  simp [read, solid, isWord.1, Text.takeWhile_append_eq isWord.2 stops]

/-- What stands further behind a token does not matter for it. -/
theorem read_take
    {character : Char}
    {rest : Text}
    {kind : Kind}
    {count length : Nat}
    (found : read character rest = some (kind, count))
    (within : count ≤ length) :
    read character (rest.take length) = some (kind, count) := by
  have shorter : ((rest.take length).takeWhile Text.isAsciiWordCharacter).length =
      min length (rest.takeWhile Text.isAsciiWordCharacter).length := by
    rw [← List.take_takeWhile, List.length_take]
  unfold read at found ⊢
  dsimp only at found ⊢
  rw [shorter]
  grind

/-! ## Depths -/

/-- A token that is a single character changes the depth as the character does. -/
theorem Kind.depthChange_ofCharacter (character : Char) :
    (Kind.ofCharacter character).depthChange = Token.depthChange character := by
  unfold Kind.ofCharacter Token.depthChange
  split
  next => rfl
  next => rfl
  next => rfl
  next => rfl
  next => rfl
  next notBrace notClosingBrace notParenthesis notClosingParenthesis _ =>
    rw [if_neg (by simp_all), if_neg (by simp_all)]
    rfl

/-- A token changes the depth as its characters do: no bracket stands inside of a word or a
variable. -/
theorem depthChange_of_read
    {character : Char}
    {rest : Text}
    {kind : Kind}
    {count : Nat}
    (found : read character rest = some (kind, count)) :
    kind.depthChange = depthOf (character :: rest.take count) := by
  rw [depthOf, depthOf_of_isAsciiWordCharacter (isAsciiWordCharacter_of_mem_take found),
    Int.add_zero]
  rcases read_cases found with ⟨isWord, rfl, -⟩ | ⟨rfl, rfl, -⟩ | ⟨-, rfl, -⟩
  · exact (depthChange_eq_zero isWord (by decide)).symm
  · rfl
  · exact Kind.depthChange_ofCharacter character

/-! ## Tokens among pieces -/

theorem ofPieces_of_read_eq_none
    {character : Char}
    {rest : Text}
    (unread : read character rest = none)
    (position : Nat)
    (depth : Int) :
    ofPieces position depth (Text.pieces read (character :: rest)) =
      ofPieces (position + 1) depth (Text.pieces read rest) := by
  rw [Text.pieces_of_read_eq_none unread, ofPieces]

/-- Behind a token the depth is that of the characters up to there. -/
theorem ofPieces_of_read_eq_some
    {character : Char}
    {rest : Text}
    {kind : Kind}
    {count : Nat}
    (found : read character rest = some (kind, count))
    (position : Nat)
    (depth : Int) :
    ofPieces position depth (Text.pieces read (character :: rest)) =
      ⟨kind, character :: rest.take count, position, depth⟩ ::
        ofPieces (position + (character :: rest.take count).length)
          (depth + depthOf (character :: rest.take count))
          (Text.pieces read (rest.drop count)) := by
  rw [Text.pieces_of_read_eq_some found, ofPieces, depthChange_of_read found]

theorem found_mem_of_mem
    {pieces : List (Text.Piece Kind)}
    {position : Nat}
    {depth : Int}
    {token : Token}
    (member : token ∈ ofPieces position depth pieces) :
    .found token.kind token.text ∈ pieces := by
  induction pieces generalizing position depth with
  | nil => cases member
  | cons piece rest inductionHypothesis =>
      cases piece with
      | other character => exact List.mem_cons_of_mem _ (inductionHypothesis member)
      | found kind text =>
          rcases List.mem_cons.mp member with rfl | later
          · exact List.mem_cons_self
          · exact List.mem_cons_of_mem _ (inductionHypothesis later)

/-- Every token was read. -/
theorem exists_read_of_mem
    {text : Text}
    {position : Nat}
    {depth : Int}
    {token : Token}
    (member : token ∈ ofPieces position depth (Text.pieces read text)) :
    ∃ character rest count, read character rest = some (token.kind, count) ∧
      token.text = character :: rest.take count := by
  obtain ⟨character, rest, count, -, found, same⟩ :=
    Text.exists_read_of_mem_pieces (found_mem_of_mem member)
  exact ⟨character, rest, count, found, same⟩

end Token
end Joinery
