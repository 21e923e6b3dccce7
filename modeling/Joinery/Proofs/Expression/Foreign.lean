import Joinery.Proofs.Arithmetic.Grammar
import Joinery.Proofs.Expression.Agreement
import Joinery.Proofs.Recovery
import Joinery.Proofs.Text.Spelling

/-!
# Foreign characters

A character that is in no reference and in no arithmetic stays in an expression while
references are replaced, and arithmetic refuses it. So an expression with such a character
has no value.
-/

namespace Joinery

/-- A character of a text stays if no piece that is replaced has it. -/
theorem Text.mem_of_replace
    {α ε : Type}
    {write : α → Except ε Text}
    {pieces : List (Piece α)}
    {result : Text}
    {character : Char}
    (replaced : replace write pieces = .ok result)
    (outside : ∀ value piece written, .found value piece ∈ pieces →
      write value = .ok written → character ∉ piece)
    (member : character ∈ pieces.flatMap Piece.text) :
    character ∈ result := by
  induction pieces generalizing result with
  | nil => cases member
  | cons piece rest inductionHypothesis =>
      have later := fun value piece written isPiece =>
        outside value piece written (List.mem_cons_of_mem _ isPiece)
      rw [List.flatMap_cons, List.mem_append] at member
      cases piece with
      | other first =>
          obtain ⟨others, known, same⟩ := bind_eq_ok.mp replaced
          cases same
          refine member.elim (fun here => ?_) fun behind => ?_
          · rw [List.mem_singleton.mp here]
            exact List.mem_cons_self
          · exact List.mem_cons_of_mem _ (inductionHypothesis known later behind)
      | found value text =>
          obtain ⟨written, here, replaced⟩ := bind_eq_ok.mp replaced
          obtain ⟨others, known, same⟩ := bind_eq_ok.mp replaced
          cases same
          have absent := outside value text written List.mem_cons_self here
          exact List.mem_append_right _
            (inductionHypothesis known later (member.resolve_left absent))

namespace Expression

/-! ## Characters of references -/

/-- The characters of a property. -/
theorem exists_of_readProperty
    {brace : Char}
    {rest : Text}
    {reference : PropertyReference}
    {count : Nat}
    (found : readProperty brace rest = some (reference, count)) :
    brace :: rest.take count =
        '{' :: (reference.id ++ '.' :: (reference.property ++ ['}'])) ∧
      reference.id = identifier rest ∧ reference.id ≠ [] ∧ reference.property ≠ [] ∧
      reference.property.all Char.isAlphanum = true := by
  unfold readProperty at found
  dsimp only at found
  split at found
  next opens =>
    split at found
    next after behind =>
      split at found
      next closes =>
        cases found
        obtain ⟨others, closing⟩ := List.head?_eq_some_iff.mp closes.2
        have id := List.prefix_iff_eq_append.mp (identifier_isPrefix rest)
        have property := List.prefix_iff_eq_append.mp
          (@List.takeWhile_prefix _ after Char.isAlphanum)
        rw [behind] at id
        rw [closing] at property
        have parts : rest = (identifier rest ++ '.' ::
            (after.takeWhile Char.isAlphanum ++ ['}'])) ++ others := by
          rw [List.append_assoc, List.cons_append, List.append_assoc, List.singleton_append,
            property, id]
        have length : (identifier rest ++ '.' ::
            (after.takeWhile Char.isAlphanum ++ ['}'])).length =
              (identifier rest).length + (after.takeWhile Char.isAlphanum).length + 2 := by
          simp
          omega
        have taken := List.prefix_iff_eq_take.mp ⟨others, parts.symm⟩
        rw [length] at taken
        exact ⟨by rw [← taken, opens.1], rfl, opens.2, closes.1, List.all_takeWhile⟩
      next => cases found
    next => cases found
  next => cases found

theorem eq_append_of_partBefore?
    {mark : Char}
    {text part rest : Text}
    (found : partBefore? mark text = some (part, rest)) :
    text = part ++ mark :: rest := by
  unfold partBefore? at found
  split at found
  · cases found
  · cases found
  next first stop behind _ split =>
    cases found
    rw [List.span_eq_takeWhile_dropWhile, Prod.mk.injEq] at split
    obtain ⟨taken, left⟩ := split
    have isMark := Text.startsWith_dropWhile (· != mark) text
    rw [left, Text.startsWith_cons] at isMark
    have same : stop = mark := by simpa using isMark
    rw [← same, ← left, ← taken, List.takeWhile_append_dropWhile]

/-- The characters of a distance. -/
theorem exists_of_readDistance
    {letter : Char}
    {rest : Text}
    {reference : DistanceReference}
    {count : Nat}
    (found : readDistance letter rest = some (reference, count)) :
    ∃ second third, [letter, second, third].map Char.toLower = "len".toList ∧
      letter :: rest.take count = letter :: second :: third :: '(' ::
        (reference.x1 ++ ',' :: (reference.y1 ++ ',' :: (reference.x2 ++ ',' ::
          (reference.y2 ++ [')'])))) := by
  unfold readDistance at found
  split at found
  next second third arguments isFirst =>
    obtain ⟨_, letters, found⟩ := Option.bind_eq_some_iff.mp found
    obtain ⟨⟨x1, behindX1⟩, first, found⟩ := Option.bind_eq_some_iff.mp found
    obtain ⟨⟨y1, behindY1⟩, next, found⟩ := Option.bind_eq_some_iff.mp found
    obtain ⟨⟨x2, behindX2⟩, following, found⟩ := Option.bind_eq_some_iff.mp found
    obtain ⟨⟨y2, behind⟩, last, found⟩ := Option.bind_eq_some_iff.mp found
    cases found
    have whole := eq_append_of_partBefore? first
    rw [eq_append_of_partBefore? next, eq_append_of_partBefore? following,
      eq_append_of_partBefore? last] at whole
    have lowered : second.toLower = 'e' ∧ third.toLower = 'n' := by
      by_contra other
      rw [guard, if_neg other] at letters
      cases letters
    refine ⟨second, third, ?_, ?_⟩
    · rw [List.map_cons, List.map_cons, List.map_cons, isFirst, lowered.1, lowered.2]
      rfl
    · have parts : second :: third :: '(' :: arguments =
          (second :: third :: '(' :: (x1 ++ ',' :: (y1 ++ ',' :: (x2 ++ ',' ::
            (y2 ++ [')']))))) ++ behind := by
        rw [whole]
        simp
      have length := congrArg List.length parts
      rw [List.length_append, List.length_cons, List.length_cons, List.length_cons] at length
      rw [parts, List.take_left' (by omega)]
  next => cases found
end Expression

/-- A character that is in no arithmetic and in no reference. -/
structure IsForeign (character : Char) : Prop where
  arithmetic : Arithmetic.isAllowed character = false
  word : Text.isAsciiWordCharacter character = false
  mark : character ∉ ['$', '{', '}', ',']

namespace IsForeign

variable {character : Char} (foreign : IsForeign character)
include foreign

theorem ne_of_isAllowed {other : Char} (allowed : Arithmetic.isAllowed other = true) :
    character ≠ other := by
  rintro rfl
  rw [foreign.arithmetic] at allowed
  cases allowed

theorem ne_of_isWord {other : Char} (isWord : Text.isAsciiWordCharacter other = true) :
    character ≠ other := by
  rintro rfl
  rw [foreign.word] at isWord
  cases isWord

/-- Arithmetic with a value has no foreign character. -/
theorem not_mem_of_evaluateArithmetic
    {text : Text}
    {value : Binary64}
    (evaluated : evaluateArithmetic text = .ok value) :
    character ∉ text := by
  intro member
  have allowed := (Arithmetic.isAllowed_of_evaluateArithmetic evaluated).2 character member
  exact foreign.ne_of_isAllowed allowed rfl

/-- Identifiers have no foreign character. -/
theorem not_mem_identifier (text : Text) : character ∉ Expression.identifier text := by
  have outside : character ∉ text.takeWhile Text.isAsciiWordCharacter := by
    intro member
    have word := List.all_eq_true.mp List.all_takeWhile _ member
    rw [foreign.word] at word
    cases word
  unfold Expression.identifier
  split
  · split
    · exact outside
    · exact List.not_mem_nil
  · exact List.not_mem_nil

theorem not_mem_variable
    {text name piece : Text}
    (member : .found name piece ∈ Text.pieces Expression.readVariable text) :
    character ∉ piece := by
  obtain ⟨first, rest, count, -, found, rfl⟩ := Text.exists_read_of_mem_pieces member
  obtain ⟨⟨rfl, -⟩, same⟩ := Option.ite_none_right_eq_some.mp found
  cases same
  rw [List.mem_cons, not_or, ← List.prefix_iff_eq_take.mp (Expression.identifier_isPrefix rest)]
  refine ⟨fun same => foreign.mark ?_, foreign.not_mem_identifier rest⟩
  simp [same]

theorem not_mem_property
    {text piece : Text}
    {reference : Expression.PropertyReference}
    (member : .found reference piece ∈ Text.pieces Expression.readProperty text) :
    character ∉ piece := by
  obtain ⟨first, rest, count, -, found, rfl⟩ := Text.exists_read_of_mem_pieces member
  obtain ⟨same, id, -, -, alphanumeric⟩ := Expression.exists_of_readProperty found
  have outsideId := foreign.not_mem_identifier rest
  have outsideProperty : character ∉ reference.property := by
    intro inside
    refine foreign.ne_of_isWord ?_ rfl
    rw [Text.isAsciiWordCharacter, List.all_eq_true.mp alphanumeric _ inside, Bool.true_or]
  have notPoint := @ne_of_isAllowed _ foreign '.' (by decide)
  have noMark := foreign.mark
  simp only [List.mem_cons, List.not_mem_nil, or_false, not_or] at noMark
  rw [same, id]
  simp [outsideId, outsideProperty, notPoint, noMark]

theorem not_mem_distance
    {text piece written : Text}
    {reference : Expression.DistanceReference}
    (member : .found reference piece ∈ Text.pieces Expression.readDistance text)
    (known : Expression.writeDistance reference = .ok written) :
    character ∉ piece := by
  obtain ⟨x1, first, known⟩ := bind_eq_ok.mp known
  obtain ⟨y1, second, known⟩ := bind_eq_ok.mp known
  obtain ⟨x2, third, known⟩ := bind_eq_ok.mp known
  obtain ⟨y2, last, -⟩ := bind_eq_ok.mp known
  obtain ⟨letter, rest, count, -, found, rfl⟩ := Text.exists_read_of_mem_pieces member
  obtain ⟨secondLetter, thirdLetter, letters, same⟩ := Expression.exists_of_readDistance found
  have notLetter (other : Char) (isLetter : other ∈ [letter, secondLetter, thirdLetter]) :
      character ≠ other := by
    have isWord : "len".toList.all Text.isAsciiWordCharacter = true := by decide
    rw [← letters, List.all_map] at isWord
    exact foreign.ne_of_isWord
      (Text.isAsciiWordCharacter_of_toLower (List.all_eq_true.mp isWord other isLetter))
  have opening := @ne_of_isAllowed _ foreign '(' (by decide)
  have closing := @ne_of_isAllowed _ foreign ')' (by decide)
  have noMark := foreign.mark
  simp only [List.mem_cons, List.not_mem_nil, or_false, not_or] at noMark
  simp only [List.forall_mem_cons, List.not_mem_nil, false_implies, implies_true, and_true]
    at notLetter
  rw [same]
  simp [notLetter, opening, closing, noMark, foreign.not_mem_of_evaluateArithmetic first,
    foreign.not_mem_of_evaluateArithmetic second, foreign.not_mem_of_evaluateArithmetic third,
    foreign.not_mem_of_evaluateArithmetic last]

/-- An expression with a foreign character has no value. -/
theorem not_mem_of_evaluate
    {scope : Scope}
    {text : Text}
    {value : Binary64}
    (evaluated : evaluate scope text = .ok value) :
    character ∉ text := by
  obtain ⟨numbered, first, evaluated⟩ := bind_eq_ok.mp evaluated
  obtain ⟨measured, second, evaluated⟩ := bind_eq_ok.mp evaluated
  obtain ⟨plain, third, evaluated⟩ := bind_eq_ok.mp evaluated
  intro member
  refine foreign.not_mem_of_evaluateArithmetic evaluated ?_
  refine Text.mem_of_replace third
    (fun _ _ _ isPiece known => foreign.not_mem_distance isPiece known) ?_
  rw [Text.flatMap_text_pieces]
  refine Text.mem_of_replace second (fun _ _ _ isPiece _ => foreign.not_mem_property isPiece) ?_
  rw [Text.flatMap_text_pieces]
  refine Text.mem_of_replace first (fun _ _ _ isPiece _ => foreign.not_mem_variable isPiece) ?_
  rwa [Text.flatMap_text_pieces]

end IsForeign
end Joinery
