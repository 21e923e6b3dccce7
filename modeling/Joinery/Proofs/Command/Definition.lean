import Joinery.Proofs.Command.Heading
import Joinery.Proofs.Expression.Agreement

/-!
# Definitions of longer commands

The expression of a definition goes on to the first place where the definition may end: the
end of the line, or a comment. So a definition without a comment is the same definition when
a comment is put behind it.
-/

namespace Joinery

namespace Expression

/-- White space ends an identifier. -/
theorem identifier_append_blank
    {tail : Text}
    (spaced : Text.startsWith Text.isBlank tail = true)
    (text : Text) :
    identifier (text ++ tail) = identifier text := by
  obtain ⟨blank, others, rfl, isBlank⟩ := Command.exists_blank spaced
  have notWord := Token.isAsciiWordCharacter_of_isBlank isBlank
  have stops : Text.startsWith Text.isAsciiWordCharacter (blank :: others) = false := notWord
  cases text with
  | nil =>
      change identifier (blank :: others) = []
      rw [identifier, Token.isAsciiWordStart_of_isBlank isBlank]
      rfl
  | cons first rest =>
      obtain ⟨name, further, same, all, stopsHere⟩ :=
        Text.exists_append_of_all Text.isAsciiWordCharacter (first :: rest)
      have stopsLater := Text.startsWith_append_eq_false stopsHere stops
      have taken : (first :: rest ++ blank :: others).takeWhile Text.isAsciiWordCharacter =
          (first :: rest).takeWhile Text.isAsciiWordCharacter := by
        rw [same, List.append_assoc, Text.takeWhile_append_eq all stopsHere,
          Text.takeWhile_append_eq all stopsLater]
      rw [List.cons_append] at taken ⊢
      rw [identifier, identifier, taken]

end Expression

/-- A line with a character on it is not empty. -/
theorem singleLine?_cons_ne
    {character : Char}
    (different : character ≠ '\n')
    (rest : Text) :
    singleLine? (character :: rest) ≠ some [] := by
  intro found
  unfold singleLine? at found
  split at found
  next split =>
    cases found
    rw [List.span_eq_takeWhile_dropWhile, Prod.mk.injEq] at split
    simp [different] at split
  next split =>
    cases found
    rw [List.span_eq_takeWhile_dropWhile, Prod.mk.injEq] at split
    simp [different] at split
  next => cases found

namespace Definition

/-- No definition ends inside a text that has no comment. -/
theorem endsBefore_append_eq_false
    {text : Text}
    (nonempty : text ≠ [])
    (ending : Text.startsWith Text.isBlank text.reverse = false)
    (plain : '#' ∉ text)
    (single : '\n' ∉ text)
    (tail : Text) :
    endsBefore (text ++ tail) = false := by
  have more : (singleLine? (text ++ tail) == some []) = false := by
    cases text with
    | nil => exact absurd rfl nonempty
    | cons first others =>
        rw [List.mem_cons, not_or] at single
        exact beq_false_of_ne (singleLine?_cons_ne (Ne.symm single.1) _)
  obtain ⟨first, member, others, stripped⟩ := Heading.exists_stripStart nonempty ending tail
  rw [endsBefore, more, Bool.false_or, stripped]
  split
  next same =>
    cases same
    exact absurd member plain
  next => rfl

/-- An expression goes on to the end of its text, if a definition may end there. -/
theorem body?_append
    {text tail name : Text}
    (nonempty : text ≠ [])
    (ending : Text.startsWith Text.isBlank text.reverse = false)
    (plain : '#' ∉ text)
    (single : '\n' ∉ text)
    (ends : endsBefore tail = true)
    (before : Text) :
    body? name before (text ++ tail) = some ⟨name, before.reverse ++ text⟩ := by
  induction text generalizing before with
  | nil => exact absurd rfl nonempty
  | cons character others inductionHypothesis =>
      rw [List.mem_cons, not_or] at plain single
      rw [List.cons_append, body?, if_neg (Ne.symm single.1)]
      cases others with
      | nil => simp [ends]
      | cons next further =>
          rw [List.reverse_cons, Text.IsSpaced.startsWith_append (by simp)] at ending
          rw [endsBefore_append_eq_false (List.cons_ne_nil _ _) ending plain.2 single.2,
            if_neg Bool.false_ne_true,
            inductionHypothesis (List.cons_ne_nil _ _) ending plain.2 single.2,
            List.reverse_cons, List.append_assoc]
          rfl

/-- What a definition without a comment is made of: a name, and an expression that goes on to
the end of the line. -/
theorem exists_parts_of_ofLine?
    {line : Text}
    {definition : Definition}
    (found : ofLine? line = some definition)
    (ending : Text.startsWith Text.isBlank line.reverse = false) :
    ∃ rest gap text, line = '$' :: rest ∧ Expression.identifier rest ≠ [] ∧
      Text.stripStart (rest.drop (Expression.identifier rest).length) = '=' :: (gap ++ text) ∧
      gap.all Text.isBlank = true ∧ Text.startsWith Text.isBlank text = false ∧
      text ≠ [] ∧ text <:+ line ∧
      firstSuffix? (body? (Expression.identifier rest) []) (gap ++ text) 0 gap.length =
        some definition := by
  unfold ofLine? at found
  split at found
  next rest =>
    dsimp only at found
    split at found
    · cases found
    next named =>
      split at found
      next value assigned =>
        obtain ⟨gap, text, rfl, blank, stops⟩ := Text.exists_append_of_all Text.isBlank value
        rw [Text.takeWhile_append_eq blank stops] at found
        have behind : '=' :: (gap ++ text) <:+ '$' :: rest := by
          rw [← assigned]
          exact ((List.dropWhile_suffix _).trans (List.drop_suffix _ rest)).trans
            (List.suffix_cons '$' rest)
        refine ⟨rest, gap, text, rfl, named, assigned, blank, stops, ?_,
          ((List.suffix_append gap text).trans (List.suffix_cons '=' _)).trans behind, found⟩
        -- The line would end with the white space or with the equals sign.
        rintro rfl
        rw [List.append_nil] at found behind
        cases gap with
        | nil => cases found
        | cons first others =>
            obtain ⟨front, whole⟩ := behind
            have allBlank : (first :: others).reverse.all Text.isBlank = true := by
              rwa [List.all_reverse]
            rw [← whole, List.reverse_append, List.reverse_cons, List.append_assoc] at ending
            have none := Text.startsWith_of_all allBlank ending
            simp at none
      next => cases found
  next => cases found

/-- A definition without a comment is the definition on a longer line, if white space stands
behind it and it may end there. -/
theorem ofLine?_append
    {line tail : Text}
    {definition : Definition}
    (found : ofLine? line = some definition)
    (ending : Text.startsWith Text.isBlank line.reverse = false)
    (plain : '#' ∉ line)
    (single : '\n' ∉ line)
    (spaced : Text.startsWith Text.isBlank tail = true)
    (ends : endsBefore tail = true) :
    ofLine? (line ++ tail) = some definition := by
  obtain ⟨rest, gap, text, rfl, named, assigned, blank, stops, nonempty, ⟨front, whole⟩, found⟩ :=
    exists_parts_of_ofLine? found ending
  rw [← whole, List.reverse_append,
    Text.IsSpaced.startsWith_append (by simpa using nonempty)] at ending
  rw [← whole, List.mem_append, not_or] at plain single
  have complete {behind : Text} (ends : endsBefore behind = true) :=
    @Heading.firstSuffix?_eq_some _ (body? (Expression.identifier rest) [])
      (gap ++ (text ++ behind)) 0 gap.length _ (Nat.zero_le _)
      (by rw [List.drop_left, body?_append nonempty ending plain.2 single.2 ends []])
  have short := @complete [] rfl
  rw [List.append_nil, found] at short
  have length := (Expression.identifier_isPrefix rest).length_le
  have longer : Text.stripStart ((rest ++ tail).drop (Expression.identifier rest).length) =
      '=' :: (gap ++ (text ++ tail)) := by
    rw [List.drop_append_of_le_length length, Text.stripStart, List.dropWhile_append,
      ← Text.stripStart, assigned]
    simp
  rw [List.cons_append, ofLine?]
  simp only [Expression.identifier_append_blank spaced rest, if_neg named, longer]
  rw [Text.takeWhile_append_eq blank (by rwa [Text.IsSpaced.startsWith_append nonempty]),
    complete ends, short]

end Definition
end Joinery
