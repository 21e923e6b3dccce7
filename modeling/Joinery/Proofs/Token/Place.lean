import Joinery.Proofs.Text.Spelling
import Joinery.Proofs.Token.Cut
import Joinery.Proofs.Token.Depth

/-!
# Places of tokens

Every token stands between two texts, and its offset and depth are those of the text before
it. The words among the tokens are the runs of letters, digits and low lines of ASCII that
are as long as possible and do not come right behind a dollar sign.
-/

namespace Joinery

/-- A word stands between two texts: it goes on in neither of them, and no dollar sign in
front makes it the name of a variable. -/
structure IsWordBetween (before word after : Text) : Prop where
  nonempty : word ≠ []
  isWord : word.all Text.isAsciiWordCharacter = true
  starts : ∀ character ∈ before.getLast?,
    Text.isAsciiWordCharacter character = false ∧ character ≠ '$'
  stops : Text.startsWith Text.isAsciiWordCharacter after = false

/-- A word stands at an offset of a text, behind as many opening as closing brackets. -/
def IsWordAt (text : Text) (offset : Nat) (word : Text) : Prop :=
  ∃ before after, text = before ++ (word ++ after) ∧ before.length = offset ∧
    IsWordBetween before word after ∧ Text.IsLevel before

/-- At an offset there is one word at most. -/
theorem IsWordAt.unique
    {text first second : Text}
    {offset : Nat}
    (isFirst : IsWordAt text offset first)
    (isSecond : IsWordAt text offset second) :
    first = second := by
  obtain ⟨before, after, rfl, length, between, -⟩ := isFirst
  obtain ⟨front, rest, same, rfl, other, -⟩ := isSecond
  obtain ⟨rfl, behind⟩ := List.append_inj same length
  exact (Text.append_inj_of_stops behind between.isWord between.stops other.isWord other.stops).1

namespace IsWordBetween

variable {before word after : Text}

/-- What stands further in front of a word does not matter. -/
theorem of_append
    {front : Text}
    (between : IsWordBetween (front ++ before) word after) :
    IsWordBetween before word after := by
  refine ⟨between.nonempty, between.isWord, fun character isLast => ?_, between.stops⟩
  apply between.starts
  rw [Option.mem_def] at isLast ⊢
  rw [List.getLast?_append, isLast, Option.some_or]

/-- A word stays one behind a further text that it does not continue. -/
theorem append
    {front : Text}
    (between : IsWordBetween before word after)
    (starts : before = [] → ∀ character ∈ front.getLast?,
      Text.isAsciiWordCharacter character = false ∧ character ≠ '$') :
    IsWordBetween (front ++ before) word after := by
  refine ⟨between.nonempty, between.isWord, fun character isLast => ?_, between.stops⟩
  by_cases empty : before = []
  · rw [empty, List.append_nil] at isLast
    exact starts empty character isLast
  · rw [List.getLast?_append_of_ne_nil _ empty] at isLast
    exact between.starts character isLast

theorem startsWith_append (between : IsWordBetween before word after) :
    Text.startsWith Text.isAsciiWordCharacter (word ++ after) = true := by
  cases word with
  | nil => exact absurd rfl between.nonempty
  | cons first others => exact (Bool.and_eq_true_iff.mp between.isWord).1

end IsWordBetween

namespace Token

/-! ## From tokens to words -/

/-- A token that a word follows at once is a character that does not belong to it. -/
theorem ends_of_read
    {character : Char}
    {rest : Text}
    {kind : Kind}
    {count : Nat}
    (found : read character rest = some (kind, count))
    (follows : Text.startsWith Text.isAsciiWordCharacter (rest.drop count) = true) :
    ∀ last ∈ (character :: rest.take count).getLast?,
      Text.isAsciiWordCharacter last = false ∧ last ≠ '$' := by
  have longest := Text.startsWith_drop_takeWhile Text.isAsciiWordCharacter rest
  rcases read_cases found with ⟨-, -, rfl⟩ | ⟨-, -, rfl, -⟩ | ⟨notWord, -, rfl, isSingle⟩
  · rw [longest] at follows
    cases follows
  · rw [longest] at follows
    cases follows
  · intro last isLast
    obtain rfl : character = last := Option.some.inj isLast
    refine ⟨notWord, fun isDollar => ?_⟩
    rw [List.drop_zero, isSingle isDollar] at follows
    cases follows

/-- A token stands between two texts, and a word among the tokens goes on in neither of
them. -/
theorem exists_append_of_mem
    {text : Text}
    {position : Nat}
    {depth : Int}
    {token : Token}
    (member : token ∈ ofPieces position depth (Text.pieces read text)) :
    ∃ before after, text = before ++ (token.text ++ after) ∧
      token.position = position + before.length ∧ token.depth = depth + depthOf before ∧
      (token.kind = .word → IsWordBetween before token.text after) := by
  induction text using Text.pieces_induction read generalizing position depth with
  | nil => cases member
  | other character rest unread inductionHypothesis =>
      rw [ofPieces_of_read_eq_none unread] at member
      have blank := read_eq_none_iff.mp unread
      obtain ⟨before, after, rfl, place, level, isWord⟩ := inductionHypothesis member
      refine ⟨character :: before, after, rfl, ?_, ?_, fun kind => ?_⟩
      · rw [place, List.length_cons]
        omega
      · rw [level, depthOf, depthChange_of_isBlank blank, Int.zero_add]
      · refine @IsWordBetween.append _ _ _ [character] (isWord kind) fun _ last isLast => ?_
        obtain rfl : character = last := Option.some.inj isLast
        refine ⟨isAsciiWordCharacter_of_isBlank blank, ?_⟩
        rintro rfl
        exact absurd blank (by decide)
  | found character rest kind count found inductionHypothesis =>
      rw [ofPieces_of_read_eq_some found] at member
      have whole : character :: rest = (character :: rest.take count) ++ rest.drop count := by
        rw [List.cons_append, List.take_append_drop]
      rcases List.mem_cons.mp member with rfl | later
      · refine ⟨[], rest.drop count, whole, rfl, (Int.add_zero _).symm, ?_⟩
        rintro rfl
        obtain ⟨isWord, taken⟩ := take_of_read_eq_word found
        refine ⟨List.cons_ne_nil _ _, ?_, fun _ isLast => absurd isLast (by simp), ?_⟩
        · rw [List.all_cons, isWord, taken, List.all_takeWhile, Bool.and_self]
        · rcases read_cases found with ⟨-, -, rfl⟩ | ⟨-, other, -⟩ | ⟨-, other, -⟩
          · exact Text.startsWith_drop_takeWhile _ rest
          · cases other
          · exact absurd other.symm (Kind.ofCharacter_ne_word character)
      · obtain ⟨before, after, behind, place, level, isWord⟩ := inductionHypothesis later
        refine ⟨(character :: rest.take count) ++ before, after, ?_, ?_, ?_, fun kind => ?_⟩
        · rw [whole, behind, List.append_assoc]
        · rw [place, List.length_append, Nat.add_assoc]
        · rw [level, depthOf_append, Int.add_assoc]
        · refine (isWord kind).append fun empty => ends_of_read found ?_
          rw [behind, empty]
          exact (isWord kind).startsWith_append

/-! ## From words to tokens -/

/-- A token in front of a word ends in front of it. -/
theorem count_le_of_isWordBetween
    {character : Char}
    {before word after : Text}
    {kind : Kind}
    {count : Nat}
    (between : IsWordBetween (character :: before) word after)
    (found : read character (before ++ (word ++ after)) = some (kind, count)) :
    count ≤ before.length := by
  by_contra beyond
  have inside : ∀ other ∈ character :: before,
      Text.isAsciiWordCharacter other = true ∨ other = '$' := by
    have run (same : count =
        ((before ++ (word ++ after)).takeWhile Text.isAsciiWordCharacter).length) :
        ∀ other ∈ before, Text.isAsciiWordCharacter other = true := by
      rw [List.takeWhile_append] at same
      split at same
      next all =>
        have whole := (List.takeWhile_prefix Text.isAsciiWordCharacter).eq_of_length all
        exact List.all_eq_true.mp (whole ▸ List.all_takeWhile)
      next =>
        have short := (List.takeWhile_prefix Text.isAsciiWordCharacter (l := before)).length_le
        omega
    rcases read_cases found with ⟨isWord, -, same⟩ | ⟨isDollar, -, same, -⟩ | ⟨-, -, same, -⟩
    · exact List.forall_mem_cons.mpr
        ⟨Or.inl isWord, fun other member => Or.inl (run same other member)⟩
    · exact List.forall_mem_cons.mpr
        ⟨Or.inr isDollar, fun other member => Or.inl (run same other member)⟩
    · omega
  -- So the last character in front of the word would continue it.
  obtain ⟨last, isLast⟩ :=
    Option.isSome_iff_exists.mp (List.getLast?_isSome.mpr (List.cons_ne_nil character before))
  obtain ⟨notWord, notDollar⟩ := between.starts last isLast
  rcases inside last (List.mem_of_getLast? isLast) with isWord | isDollar
  · rw [isWord] at notWord
    cases notWord
  · exact notDollar isDollar

/-- A word is one of the tokens. -/
theorem mem_of_isWordBetween
    {before word after : Text}
    (between : IsWordBetween before word after)
    (position : Nat)
    (depth : Int) :
    ⟨.word, word, position + before.length, depth + depthOf before⟩ ∈
      ofPieces position depth (Text.pieces read (before ++ (word ++ after))) := by
  generalize whole : before ++ (word ++ after) = text
  induction text using Text.pieces_induction read generalizing before position depth with
  | nil => simp [between.nonempty] at whole
  | other character rest unread inductionHypothesis =>
      cases before with
      | nil =>
          have follows := between.startsWith_append
          rw [List.nil_append] at whole
          rw [whole, Text.startsWith_cons,
            isAsciiWordCharacter_of_isBlank (read_eq_none_iff.mp unread)] at follows
          cases follows
      | cons first others =>
          rw [List.cons_append] at whole
          obtain ⟨rfl, rfl⟩ := List.cons.inj whole
          have shorter : IsWordBetween others word after :=
            @IsWordBetween.of_append others word after [first] between
          have later := inductionHypothesis shorter (position + 1) depth rfl
          rw [ofPieces_of_read_eq_none unread, depthOf,
            depthChange_of_isBlank (read_eq_none_iff.mp unread), Int.zero_add, List.length_cons,
            Nat.add_comm others.length, ← Nat.add_assoc]
          exact later
  | found character rest kind count found inductionHypothesis =>
      rw [ofPieces_of_read_eq_some found]
      cases before with
      | nil =>
          rw [List.nil_append] at whole
          cases word with
          | nil => exact absurd rfl between.nonempty
          | cons first others =>
              rw [List.cons_append] at whole
              obtain ⟨rfl, rfl⟩ := List.cons.inj whole
              cases found.symm.trans (read_word between.isWord between.stops)
              rw [List.take_left, depthOf, Int.add_zero]
              exact List.mem_cons_self
      | cons first others =>
          rw [List.cons_append] at whole
          obtain ⟨rfl, rfl⟩ := List.cons.inj whole
          have within := count_le_of_isWordBetween between found
          have cut : first :: others = (first :: others.take count) ++ others.drop count := by
            rw [List.cons_append, List.take_append_drop]
          rw [List.take_append_of_le_length within]
          rw [cut] at between ⊢
          rw [List.length_append, depthOf_append, ← Nat.add_assoc, ← Int.add_assoc]
          exact List.mem_cons_of_mem _ (inductionHypothesis between.of_append _ _
            (List.drop_append_of_le_length within).symm)

end Token

/-- The words outside of all brackets are tokens, with their offsets. -/
theorem isWordAt_iff (text : Text) (offset : Nat) (word : Text) :
    IsWordAt text offset word ↔ ⟨.word, word, offset, 0⟩ ∈ tokens text := by
  constructor
  · rintro ⟨before, after, rfl, rfl, between, level⟩
    have member := Token.mem_of_isWordBetween between 0 0
    rwa [Nat.zero_add, Int.zero_add, (Token.depthOf_eq_zero_iff before).mpr level] at member
  · intro member
    obtain ⟨before, after, whole, place, level, isWord⟩ := Token.exists_append_of_mem member
    refine ⟨before, after, whole, ?_, isWord rfl, (Token.depthOf_eq_zero_iff before).mp ?_⟩
    · simpa using place.symm
    · simpa using level.symm

end Joinery
