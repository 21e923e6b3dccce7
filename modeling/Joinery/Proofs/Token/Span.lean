import Joinery.Proofs.Offset
import Joinery.Proofs.Token.Place

/-!
# Spans of tokens

The tokens of a text stand behind each other, and they have all of its characters but the
white space. Tokens count the brackets among themselves, and dimensions are separated by a
count of the characters: in front of a token both counts are the same.
-/

namespace Joinery
namespace Token

/-- A token has the character at an offset. -/
def Covers (token : Token) (offset : Nat) : Prop :=
  token.position ≤ offset ∧ offset < token.stop

section Spans

variable {text : Text} {token : Token} (member : token ∈ tokens text)
include member

/-- The characters of a token stand in the text where the token does. -/
theorem exists_append_of_mem_tokens :
    ∃ before after, text = before ++ (token.text ++ after) ∧ before.length = token.position ∧
      token.depth = depthOf before := by
  obtain ⟨before, after, whole, place, level, -⟩ := exists_append_of_mem member
  exact ⟨before, after, whole, by omega, by omega⟩

theorem stop_le_length : token.stop ≤ text.length := by
  obtain ⟨before, after, rfl, place, -⟩ := exists_append_of_mem_tokens member
  rw [stop, List.length_append, List.length_append]
  omega

theorem extract_eq_text : text.extract token.position token.stop = token.text := by
  obtain ⟨before, after, rfl, place, -⟩ := exists_append_of_mem_tokens member
  rw [List.extract_eq_take_drop, stop, Nat.add_sub_cancel_left, ← place, List.drop_left,
    List.take_left]

theorem depth_eq_depthAt : token.depth = depthAt text token.position := by
  obtain ⟨before, after, rfl, place, level⟩ := exists_append_of_mem_tokens member
  rw [level, ← place, depthAt_length_append]

/-- The character at an offset that a token covers is one of its own. -/
theorem getElem?_of_covers
    {offset : Nat}
    (covers : token.Covers offset) :
    text[offset]? = token.text[offset - token.position]? := by
  obtain ⟨before, after, rfl, place, -⟩ := exists_append_of_mem_tokens member
  obtain ⟨starts, stops⟩ := covers
  rw [stop] at stops
  rw [List.getElem?_append_right (by omega), place, List.getElem?_append_left (by omega)]

end Spans

/-- Every character but white space is in a token. -/
theorem exists_covers
    {text : Text}
    {offset : Nat}
    {character : Char}
    (here : text[offset]? = some character)
    (solid : Text.isBlank character = false)
    (position : Nat)
    (depth : Int) :
    ∃ token ∈ ofPieces position depth (Text.pieces read text),
      token.Covers (position + offset) := by
  induction text using Text.pieces_induction read generalizing position depth offset with
  | nil => cases here
  | other first rest unread inductionHypothesis =>
      rw [ofPieces_of_read_eq_none unread]
      cases offset with
      | zero =>
          obtain rfl : first = character := Option.some.inj here
          rw [read_eq_none_iff.mp unread] at solid
          cases solid
      | succ offset =>
          rw [Nat.add_comm offset, ← Nat.add_assoc]
          exact inductionHypothesis here (position + 1) depth
  | found first rest kind count found inductionHypothesis =>
      have length : (first :: rest.take count).length = count + 1 := by
        rw [List.length_cons, List.length_take, Nat.min_eq_left (count_le_of_read found)]
      rw [ofPieces_of_read_eq_some found]
      by_cases inside : offset ≤ count
      · refine ⟨_, List.mem_cons_self, Nat.le_add_right _ _, ?_⟩
        rw [stop, length]
        dsimp only
        omega
      · have behind : (rest.drop count)[offset - (count + 1)]? = some character := by
          rw [List.getElem?_drop, ← here, ← List.getElem?_cons_succ (a := first)]
          congr 1
          omega
        obtain ⟨token, later, covers⟩ := inductionHypothesis behind _ _
        refine ⟨token, List.mem_cons_of_mem _ later, ?_⟩
        rw [length] at covers
        convert covers using 1
        omega

/-- White space is what no token has. -/
theorem forall_not_covers_iff
    {text : Text}
    {offset : Nat}
    {character : Char}
    (here : text[offset]? = some character) :
    (∀ token ∈ tokens text, ¬token.Covers offset) ↔ Text.isBlank character = true := by
  constructor
  · intro uncovered
    by_contra notBlank
    obtain ⟨token, member, covers⟩ := exists_covers here (Bool.not_eq_true _ ▸ notBlank) 0 0
    rw [Nat.zero_add] at covers
    exact uncovered token member covers
  · intro blank token member covers
    obtain ⟨first, rest, count, found, same⟩ := exists_read_of_mem member
    rw [getElem?_of_covers member covers, same] at here
    have solid := isBlank_of_mem_read found character (List.mem_of_getElem? here)
    rw [blank] at solid
    cases solid

end Token

/-- Tokens lose nothing but white space. Each starts behind the end of the one before it and
has the characters of the text from its offset on, and no token has a character exactly if
it is white space. The depth of a token is the number of opening less the number of closing
brackets in front of it, which is the depth by which dimensions are separated. -/
theorem tokens_cover_text (text : Text) :
    (tokens text).Pairwise (·.stop ≤ ·.position) ∧
      (∀ token ∈ tokens text, token.position < token.stop ∧ token.stop ≤ text.length ∧
        text.extract token.position token.stop = token.text) ∧
      (∀ offset character, text[offset]? = some character →
        ((∀ token ∈ tokens text, ¬token.Covers offset) ↔ Text.isBlank character = true)) ∧
      (∀ token ∈ tokens text, token.depth = Token.depthAt text token.position ∧
        Token.depthAt text token.position =
          (((text.take token.position).count '{' +
              (text.take token.position).count '(' : Nat) : Int) -
            ((text.take token.position).count '}' +
              (text.take token.position).count ')' : Nat)) ∧
      splitDimensions text =
        Dimension.splitAtOffsets text 0 0 (Text.pieces Dimension.readSeparator text) := by
  refine ⟨Token.pairwise_stop 0 0 text, fun token member => ?_, fun offset character here => ?_,
    fun token member => ?_, Dimension.splitDimensions_eq_splitAtOffsets text⟩
  · exact ⟨Token.position_lt_stop_of_mem member, Token.stop_le_length member,
      Token.extract_eq_text member⟩
  · exact Token.forall_not_covers_iff here
  · exact ⟨Token.depth_eq_depthAt member, Token.depthOf_eq_count _⟩

/-- A parenthesis that is closed before any is opened counts in both ways, like those that
are never closed, and a space that does not break lines is white space. -/
theorem tokens_cover_unbalanced_text :
    ⟨.word, "x2".toList, 10, 1⟩ ∈ tokens ")é\u00a0{a.b}((x2".toList ∧
      Token.depthAt ")é\u00a0{a.b}((x2".toList 10 = 1 ∧
      ")é\u00a0{a.b}((x2".toList.extract 10 12 = "x2".toList ∧
      ")é\u00a0{a.b}((x2".toList[2]? = some '\u00a0' ∧
      ∀ token ∈ tokens ")é\u00a0{a.b}((x2".toList, ¬token.Covers 2 := by
  have member : ⟨.word, "x2".toList, 10, 1⟩ ∈ tokens ")é\u00a0{a.b}((x2".toList :=
    List.mem_iff_getElem?.mpr ⟨9, rfl⟩
  have space : ")é\u00a0{a.b}((x2".toList[2]? = some '\u00a0' := rfl
  obtain ⟨-, spans, blanks, depths, -⟩ := tokens_cover_text ")é\u00a0{a.b}((x2".toList
  exact ⟨member, (depths _ member).1.symm, (spans _ member).2.2, space,
    (blanks 2 '\u00a0' space).mpr (by decide)⟩

end Joinery
