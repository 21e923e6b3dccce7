import Joinery.Proofs.Assembly.WellFormed
import Joinery.Proofs.Command.Seam
import Joinery.Proofs.Options.Part

/-!
# Parts of commands

The dimensions and the options of a board command and the expression of a definition are
rows of neighbouring characters of the command. A command is put together from lines with
a space between them, so a word in it is in one of the lines.
-/

namespace Joinery

theorem singleLine?_isPrefix
    {text line : Text}
    (found : singleLine? text = some line) :
    line <+: text := by
  unfold singleLine? at found
  split at found
  next first split =>
    cases found
    rw [List.span_eq_takeWhile_dropWhile, Prod.mk.injEq] at split
    rw [← split.1]
    exact List.takeWhile_prefix _
  next first break_ split =>
    cases found
    rw [List.span_eq_takeWhile_dropWhile, Prod.mk.injEq] at split
    rw [← split.1]
    exact List.takeWhile_prefix _
  next => cases found

/-! ## Parts of a heading -/

namespace Heading

theorem nameAndOptions?_isInfix
    {text name options : Text}
    (found : nameAndOptions? text = some (name, options)) :
    options <:+: text := by
  unfold nameAndOptions? at found
  split at found
  next rest _ quoted =>
    split at found
    · cases found
    · cases found
    next first quote after _ split =>
      obtain ⟨line, single, same⟩ := Option.map_eq_some_iff.mp found
      cases same
      rw [List.span_eq_takeWhile_dropWhile, Prod.mk.injEq] at split
      have behindName : quote :: after <:+ rest := by
        rw [← split.2]
        exact List.dropWhile_suffix _
      have behindQuote : '"' :: rest <:+ text := by
        rw [← quoted]
        exact List.dropWhile_suffix _
      have behind : after <:+ text :=
        (((List.suffix_cons quote after).trans behindName).trans
          (List.suffix_cons '"' rest)).trans behindQuote
      exact (singleLine?_isPrefix single).isInfix.trans
        ((List.dropWhile_suffix Text.isBlank).trans behind).isInfix
  next => cases found

theorem body?_isInfix
    {id : Option Text}
    {before text : Text}
    {heading : Heading}
    (found : body? id before text = some heading) :
    heading.dimensions <:+: before.reverse ++ text ∧ heading.options <:+: text := by
  induction text generalizing before with
  | nil => cases found
  | cons character rest inductionHypothesis =>
      have later := (List.suffix_cons character rest).isInfix
      simp only [body?, Option.ite_none_left_eq_some] at found
      obtain ⟨-, found⟩ := found
      split at found
      next name options named =>
        cases found
        refine ⟨⟨[], rest, ?_⟩, (nameAndOptions?_isInfix named).trans later⟩
        simp
      next =>
        obtain ⟨dimensions, options⟩ := inductionHypothesis found
        exact ⟨by simpa using dimensions, options.trans later⟩

theorem bracketedId?_isSuffix
    {text rest : Text}
    {id : Option Text}
    (found : bracketedId? text = some (id, rest)) :
    rest <:+ text := by
  unfold bracketedId? at found
  split at found
  next inside =>
    obtain ⟨-, same⟩ := Option.ite_none_right_eq_some.mp found
    cases same
    exact (List.drop_suffix _ inside).trans (List.suffix_cons '[' inside)
  next =>
    cases found
    exact List.suffix_refl _

/-- The dimensions and the options are parts of the command. -/
theorem ofLine?_isInfix
    {line : Text}
    {heading : Heading}
    (found : ofLine? line = some heading) :
    heading.dimensions <:+: line ∧ heading.options <:+: line := by
  unfold ofLine? at found
  split at found
  · split at found
    · cases found
    next id rest bracketed =>
      obtain ⟨skipped, -, -, found⟩ := exists_of_firstSuffix? found
      have inside : rest.drop skipped <:+: line :=
        ((List.drop_suffix skipped rest).trans
          ((bracketedId?_isSuffix bracketed).trans (List.drop_suffix _ line))).isInfix
      have parts := body?_isInfix found
      rw [List.reverse_nil, List.nil_append] at parts
      exact parts.imp (·.trans inside) (·.trans inside)
  · cases found

end Heading

/-! ## Parts of a definition -/

namespace Definition

theorem body?_isInfix
    {name before text : Text}
    {definition : Definition}
    (found : body? name before text = some definition) :
    definition.name = name ∧ definition.expression <:+: before.reverse ++ text := by
  induction text generalizing before with
  | nil => cases found
  | cons character rest inductionHypothesis =>
      simp only [body?, Option.ite_none_left_eq_some] at found
      obtain ⟨-, found⟩ := found
      split at found
      · cases found
        exact ⟨rfl, [], rest, by simp⟩
      · obtain ⟨same, expression⟩ := inductionHypothesis found
        exact ⟨same, by simpa using expression⟩

/-- The name of a definition stands behind its first character, and its expression is a
part of the command. -/
theorem ofLine?_isInfix
    {line : Text}
    {definition : Definition}
    (found : ofLine? line = some definition) :
    definition.name = Expression.identifier line.tail ∧ definition.expression <:+: line := by
  unfold ofLine? at found
  split at found
  next rest =>
    dsimp only at found
    split at found
    · cases found
    · split at found
      next value assigned =>
        obtain ⟨skipped, -, -, found⟩ := Heading.exists_of_firstSuffix? found
        obtain ⟨named, expression⟩ := body?_isInfix found
        rw [List.reverse_nil, List.nil_append] at expression
        have behind : '=' :: value <:+ rest := by
          rw [← assigned]
          exact (List.dropWhile_suffix _).trans (List.drop_suffix _ rest)
        have inside : value.drop skipped <:+ '$' :: rest :=
          (((List.drop_suffix skipped value).trans (List.suffix_cons '=' value)).trans
            behind).trans (List.suffix_cons '$' rest)
        exact ⟨named, expression.trans inside.isInfix⟩
      next => cases found
  next => cases found

end Definition

/-! ## Words in a command -/

/-- A text without a character is on one side of it. -/
theorem infix_append_cons
    {word before after : Text}
    {character : Char}
    (absent : character ∉ word)
    (inside : word <:+: before ++ character :: after) :
    word <:+: before ∨ word <:+: after := by
  -- A prefix of the text that goes beyond the character has the character.
  have front {start : Text} (isFront : word <+: start ++ character :: after) :
      word <+: start := by
    have short : start ++ [character] <+: start ++ character :: after :=
      ⟨after, by simp⟩
    rcases List.prefix_or_prefix_of_prefix isFront short with shorter | longer
    · rcases List.prefix_concat_iff.mp shorter with same | shorter
      · exact absurd (by simp [same]) absent
      · exact shorter
    · exact absurd (longer.subset (by simp)) absent
  induction before with
  | nil =>
      rcases List.infix_cons_iff.mp inside with atStart | later
      · exact Or.inl (front atStart).isInfix
      · exact Or.inr later
  | cons first rest inductionHypothesis =>
      rcases List.infix_cons_iff.mp inside with atStart | later
      · exact Or.inl (front atStart).isInfix
      · exact (inductionHypothesis later).imp_left
          (·.trans (List.suffix_cons first rest).isInfix)

/-- A word in a row of texts with spaces between them is in one of the texts. -/
theorem exists_infix_of_infix_intercalate
    {word : Text}
    {parts : List Text}
    (notEmpty : word ≠ [])
    (noSpace : ' ' ∉ word)
    (inside : word <:+: [' '].intercalate parts) :
    ∃ part ∈ parts, word <:+: part := by
  induction parts with
  | nil => exact absurd (List.eq_nil_of_infix_nil inside) notEmpty
  | cons first rest inductionHypothesis =>
      cases rest with
      | nil =>
          rw [List.intercalate_singleton] at inside
          exact ⟨first, List.mem_singleton_self first, inside⟩
      | cons second others =>
          have split : [' '].intercalate (first :: second :: others) =
              first ++ ' ' :: [' '].intercalate (second :: others) := by
            simp [List.intercalate]
          rw [split] at inside
          rcases infix_append_cons noSpace inside with here | later
          · exact ⟨first, List.mem_cons_self, here⟩
          · obtain ⟨part, member, there⟩ := inductionHypothesis later
            exact ⟨part, List.mem_cons_of_mem first member, there⟩

namespace Command

/-- The first line starts a text, and the others are parts of it. -/
theorem lines_isInfix
    {text line : Text}
    {others : List Text}
    (known : lines text = line :: others) :
    line <+: text ∧ ∀ other ∈ others, other <:+: text := by
  induction text generalizing line others with
  | nil =>
      cases known
      exact ⟨List.prefix_refl [], by simp⟩
  | cons character rest inductionHypothesis =>
      obtain ⟨first, more, split⟩ := List.exists_cons_of_ne_nil (lines_ne_nil rest)
      obtain ⟨front, parts⟩ := inductionHypothesis split
      have whole := (List.suffix_cons character rest).isInfix
      by_cases isBreak : character = '\n'
      · rw [lines, if_pos isBreak, split] at known
        cases known
        refine ⟨List.nil_prefix, List.forall_mem_cons.mpr ⟨front.isInfix.trans whole, ?_⟩⟩
        exact fun other member => (parts other member).trans whole
      · rw [lines_cons_of_ne isBreak split] at known
        cases known
        exact ⟨List.cons_prefix_cons.mpr ⟨rfl, front⟩,
          fun other member => (parts other member).trans whole⟩

theorem infix_of_mem_lines {text line : Text} (member : line ∈ lines text) : line <:+: text := by
  obtain ⟨first, others, known⟩ := List.exists_cons_of_ne_nil (lines_ne_nil text)
  obtain ⟨front, parts⟩ := lines_isInfix known
  rw [known] at member
  rcases List.mem_cons.mp member with rfl | later
  · exact front.isInfix
  · exact parts line later

/-- Continuations are stripped lines, and commands are put together from such. -/
theorem exists_infix_of_gather
    {word : Text}
    (notEmpty : word ≠ [])
    (noSpace : ' ' ∉ word)
    (number : Nat)
    (isOpen : Bool)
    (rows : List Text) :
    (∀ part ∈ (gather number isOpen rows).1, word <:+: part → ∃ row ∈ rows, word <:+: row) ∧
      ∀ command ∈ (gather number isOpen rows).2, word <:+: command.text →
        ∃ row ∈ rows, word <:+: row := by
  induction rows generalizing number isOpen with
  | nil => exact ⟨by simp [gather], by simp [gather]⟩
  | cons row rest inductionHypothesis =>
      have below : (∃ other ∈ rest, word <:+: other) →
          ∃ other ∈ row :: rest, word <:+: other := by
        rintro ⟨other, member, inside⟩
        exact ⟨other, List.mem_cons_of_mem row member, inside⟩
      have here (inside : word <:+: Text.strip row) : ∃ other ∈ row :: rest, word <:+: other :=
        ⟨row, List.mem_cons_self, inside.trans (Text.strip_isInfix row)⟩
      have later (isOpen : Bool) := inductionHypothesis (number + 1) isOpen
      unfold gather
      dsimp only
      split
      · refine ⟨by simp, fun command member inside => ?_⟩
        exact below ((later false).2 command member inside)
      · split
        · refine ⟨List.forall_mem_cons.mpr ⟨here, fun part member inside => ?_⟩,
            fun command member inside => ?_⟩
          · exact below ((later true).1 part member inside)
          · exact below ((later true).2 command member inside)
        · refine ⟨by simp, List.forall_mem_cons.mpr ⟨fun inside => ?_,
            fun command member inside => ?_⟩⟩
          · -- The word is in the head of the command or in one of its continuations.
            obtain ⟨part, member, inside⟩ :=
              exists_infix_of_infix_intercalate notEmpty noSpace inside
            rcases List.mem_cons.mp member with rfl | continued
            · exact here inside
            · exact below ((later _).1 part continued inside)
          · exact below ((later _).2 command member inside)

/-- A word in a command of a text is in the text. -/
theorem infix_of_mem_commands
    {word text : Text}
    {command : Command}
    (notEmpty : word ≠ [])
    (noSpace : ' ' ∉ word)
    (member : command ∈ commands text)
    (inside : word <:+: command.text) :
    word <:+: text := by
  obtain ⟨row, isRow, inside⟩ :=
    (exists_infix_of_gather notEmpty noSpace 1 false (lines text)).2 command member inside
  exact inside.trans (infix_of_mem_lines isRow)

end Command
end Joinery
