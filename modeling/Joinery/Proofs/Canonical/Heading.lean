import Mathlib.Data.List.TakeDrop
import Joinery.Proofs.Canonical.Position

/-!
# Headings of canonical commands

A canonical command is taken apart into its id, its dimensions, its name and its options.
The dimensions end at the last character that is no white space in front of the name,
because they have no quote and no white space at their ends.
-/

namespace Joinery

namespace Command

theorem startsWith_append
    {word : Text}
    (spelling : Text.Spelling word)
    (rest : Text) :
    startsWith word (spelling.text ++ rest) = true := by
  obtain ⟨text, rfl⟩ := spelling
  induction text with
  | nil => cases rest <;> rfl
  | cons first others inductionHypothesis =>
      rw [List.cons_append, List.map_cons, startsWith, inductionHypothesis]
      simp

variable {line : Text}

/-- A line that starts with the word of a board command starts with one of its letters. -/
theorem head?_of_startsWith
    (starts : startsWith boardWord line = true)
    {first : Char}
    (other : first.toLower ≠ 'b') :
    line.head? ≠ some first := by
  intro found
  obtain ⟨rest, rfl⟩ := List.head?_eq_some_iff.mp found
  rw [boardWord, show "board".toList = 'b' :: "oard".toList from rfl, startsWith,
    Bool.and_eq_true, beq_iff_eq] at starts
  exact other starts.1

theorem isSilent_of_startsWith (starts : startsWith boardWord line = true) :
    isSilent line = false := by
  have notSign := head?_of_startsWith starts (show '#'.toLower ≠ 'b' by decide)
  have notSlash := head?_of_startsWith starts (show '/'.toLower ≠ 'b' by decide)
  unfold isSilent
  split
  · cases starts
  · exact absurd rfl notSign
  · exact absurd rfl notSlash
  · rfl

theorem kindOf_of_startsWith (starts : startsWith boardWord line = true) :
    kindOf line = .board := by
  rw [kindOf, if_neg (head?_of_startsWith starts (by decide)), if_pos starts]

end Command

theorem singleLine?_eq_some
    {text : Text}
    (single : '\n' ∉ text) :
    singleLine? text = some text := by
  have all : text.all (· != '\n') = true := by
    refine List.all_eq_true.mpr fun character member => ?_
    rw [bne_iff_ne]
    rintro rfl
    exact single member
  have taken := Text.takeWhile_append_eq all (Text.startsWith_nil _)
  have left := Text.dropWhile_append_eq all (Text.startsWith_nil _)
  rw [List.append_nil] at taken left
  rw [singleLine?, List.span_eq_takeWhile_dropWhile, taken, left]

namespace Heading

/-! ## Ids -/

/-- An id in brackets is read. -/
theorem bracketedId?_append (id : Expression.Identifier) (rest : Text) :
    bracketedId? ('[' :: (id.text ++ ']' :: rest)) = some (some id.text, rest) := by
  have starts := id.starts
  have continues := id.continues
  have nonempty := id.text_ne_nil
  have idRead : idAt (id.text ++ ']' :: rest) = id.text := by
    cases known : id.text with
    | nil => exact absurd known nonempty
    | cons first others =>
        rw [known] at starts continues
        rw [List.all_cons, Bool.and_eq_true] at continues
        have areInside : others.all (fun character =>
            Text.isAsciiWordCharacter character || isLookAlike character) = true :=
          List.all_eq_true.mpr fun character member => by
            rw [List.all_eq_true.mp continues.2 character member, Bool.true_or]
        have closing : Text.startsWith (fun character =>
            Text.isAsciiWordCharacter character || isLookAlike character) (']' :: rest) = false :=
          rfl
        have taken := Text.takeWhile_append_eq areInside closing
        rw [Text.startsWith_cons] at starts
        rw [List.cons_append, idAt, if_pos (by rw [starts, Bool.true_or]), taken]
  have closing : (id.text ++ ']' :: rest).drop (id.text.length + 1) = rest := by
    rw [← List.drop_drop, List.drop_left]
    rfl
  simp [bracketedId?, idRead, nonempty, closing]

/-! ## Names -/

/-- A name in quotes behind a blank is read, and the options behind it. -/
theorem nameAndOptions?_quoted
    (name : Canonical.Name)
    {rest options : Text}
    (stripped : Text.stripStart rest = options)
    (single : '\n' ∉ options) :
    nameAndOptions? (' ' :: (name.quoted ++ rest)) = some (name.text, options) := by
  have all : name.text.all (· != '"') = true := by
    refine List.all_eq_true.mpr fun character member => ?_
    rw [bne_iff_ne]
    rintro rfl
    exact name.unquoted member
  have quote : Text.startsWith (· != '"') ('"' :: rest) = false := rfl
  have taken := Text.takeWhile_append_eq all quote
  have left := Text.dropWhile_append_eq all quote
  have text : Text.stripStart (' ' :: (name.quoted ++ rest)) =
      '"' :: (name.text ++ '"' :: rest) := by
    have same : name.quoted ++ rest = '"' :: (name.text ++ '"' :: rest) := by
      simp [Canonical.Name.quoted]
    rw [same]
    rfl
  have blank : Text.isBlank ' ' = true := rfl
  unfold nameAndOptions?
  simp only [List.head?_cons, Option.map_some, blank, text, List.span_eq_takeWhile_dropWhile,
    taken, left]
  cases known : name.text with
  | nil => exact absurd known name.nonempty
  | cons first others =>
      simp only [stripped, singleLine?_eq_some single]
      rfl

/-- The first character that is no white space. -/
theorem exists_stripStart
    {text : Text}
    (nonempty : text ≠ [])
    (ending : Text.startsWith Text.isBlank text.reverse = false)
    (rest : Text) :
    ∃ first ∈ text, ∃ others, Text.stripStart (text ++ rest) = first :: others := by
  induction text with
  | nil => exact absurd rfl nonempty
  | cons character others inductionHypothesis =>
      by_cases blank : Text.isBlank character = true
      · have othersNonempty : others ≠ [] := by
          rintro rfl
          rw [List.reverse_singleton, Text.startsWith_cons, blank] at ending
          cases ending
        rw [List.reverse_cons, Text.IsSpaced.startsWith_append (by simpa using othersNonempty)]
          at ending
        obtain ⟨first, member, more, same⟩ := inductionHypothesis othersNonempty ending
        refine ⟨first, List.mem_cons_of_mem _ member, more, ?_⟩
        rw [List.cons_append, Text.stripStart, List.dropWhile_cons_of_pos blank]
        exact same
      · refine ⟨character, List.mem_cons_self, others ++ rest, ?_⟩
        rw [List.cons_append, Text.stripStart, List.dropWhile_cons_of_neg blank]

/-- No name stands in front of the end of a text without quotes. -/
theorem nameAndOptions?_eq_none
    {text : Text}
    (nonempty : text ≠ [])
    (ending : Text.startsWith Text.isBlank text.reverse = false)
    (unquoted : '"' ∉ text)
    (rest : Text) :
    nameAndOptions? (text ++ rest) = none := by
  obtain ⟨first, member, others, same⟩ := exists_stripStart nonempty ending rest
  unfold nameAndOptions?
  split
  next known =>
    rw [same] at known
    cases known
    exact absurd member unquoted
  next => rfl

/-! ## Dimensions -/

/-- Dimensions go on to their last character. -/
theorem body?_append
    {text tail name options : Text}
    (nonempty : text ≠ [])
    (ending : Text.startsWith Text.isBlank text.reverse = false)
    (unquoted : '"' ∉ text)
    (single : '\n' ∉ text)
    (known : nameAndOptions? tail = some (name, options))
    (id : Option Text)
    (before : Text) :
    body? id before (text ++ tail) = some ⟨id, before.reverse ++ text, name, options⟩ := by
  induction text generalizing before with
  | nil => exact absurd rfl nonempty
  | cons character others inductionHypothesis =>
      rw [List.mem_cons, not_or] at unquoted single
      rw [List.cons_append, body?, if_neg (Ne.symm single.1)]
      cases others with
      | nil => simp [known]
      | cons next further =>
          rw [List.reverse_cons, Text.IsSpaced.startsWith_append (by simp)] at ending
          rw [nameAndOptions?_eq_none (List.cons_ne_nil next further) ending unquoted.2]
          dsimp only
          rw [inductionHypothesis (List.cons_ne_nil _ _) ending unquoted.2 single.2,
            List.reverse_cons, List.append_assoc]
          rfl

theorem firstSuffix?_blank
    {read : Text → Option Heading}
    {text : Text}
    {heading : Heading}
    (solid : Text.startsWith Text.isBlank text = false)
    (known : read text = some heading) :
    firstSuffix? read (' ' :: text) 1 ((' ' :: text).takeWhile Text.isBlank).length =
      some heading := by
  have blanks : (' ' :: text).takeWhile Text.isBlank = [' '] :=
    @Text.takeWhile_append_eq Text.isBlank [' '] text rfl solid
  rw [blanks]
  simp [firstSuffix?, known]

end Heading

namespace Canonical

open Options

variable {scope : Scope}

namespace Position

theorem isOption_phrases (position : Position scope) :
    ∀ phrase ∈ position.phrases, IsOption phrase := by
  cases position with
  | unset => simp [phrases]
  | point part =>
      simp only [phrases, List.forall_mem_cons]
      exact ⟨isOption_keyword (by decide) part, part.content.isContent.toIsOption, by simp⟩
  | segment part =>
      simp only [phrases, List.forall_mem_cons]
      exact ⟨isOption_keyword (by decide) part.start, part.start.content.isContent.toIsOption,
        isOption_keyword (by decide) part.stop, part.stop.content.isContent.toIsOption,
        part.isOption_levelPhrases⟩

end Position

namespace BoardCommand

variable (command : BoardCommand scope)

theorem isOption_options : ∀ phrase ∈ command.options, IsOption phrase :=
  List.forall_mem_append.mpr ⟨command.position.isOption_phrases, command.isOption_cutPhrases⟩

theorem oneLine_options : '\n' ∉ Text.joined ' ' command.options := by
  by_cases empty : command.options = []
  · rw [empty]
    exact List.not_mem_nil
  · exact (IsOption.joined (by decide) empty command.isOption_options).oneLine

theorem withoutComment_options :
    withoutComment (Text.joined ' ' command.options) = Text.joined ' ' command.options := by
  by_cases empty : command.options = []
  · rw [empty]
    rfl
  · have isOption := IsOption.joined (show ' ' ∈ Keyword.Passes.separators by decide) empty
      command.isOption_options
    exact withoutComment_eq_self isOption.uncommented isOption.isPhrase.strip_eq

theorem isOption_dimension : ∀ phrase ∈ command.dimensions, IsOption phrase := by
  have letter : IsOption ['x'] := .word (List.cons_ne_nil _ _) (by decide)
  simp only [dimensions, List.forall_mem_cons]
  exact ⟨command.width.isContent.toIsOption, letter, command.height.isContent.toIsOption, letter,
    command.depth.isContent.toIsOption, by simp⟩

theorem isOption_dimensions : IsOption (Text.joined ' ' command.dimensions) :=
  .joined (by decide) (List.cons_ne_nil _ _) command.isOption_dimension

theorem unquoted_dimensions : '"' ∉ Text.joined ' ' command.dimensions := by
  have expression (quantity : Quantity scope) : '"' ∉ quantity.text :=
    Expression.not_mem_of_isExpression quantity.isExpression (by decide)
  have nonempty : command.dimensions ≠ [] := List.cons_ne_nil _ _
  refine Text.joined_induction (motive := fun text => '"' ∉ text) nonempty ?_ ?_
  · simp only [dimensions, List.forall_mem_cons]
    exact ⟨expression _, by decide, expression _, by decide, expression _, by simp⟩
  · intro first second firstUnquoted secondUnquoted
    simp [firstUnquoted, secondUnquoted]

/-- The name and the options behind the dimensions are read. -/
theorem nameAndOptions?_tail :
    Heading.nameAndOptions?
        (' ' :: Text.joined ' ' (command.name.quoted :: command.options)) =
      some (command.name.text, Text.joined ' ' command.options) := by
  obtain ⟨rest, joined, stripped⟩ : ∃ rest,
      Text.joined ' ' (command.name.quoted :: command.options) = command.name.quoted ++ rest ∧
        Text.stripStart rest = Text.joined ' ' command.options := by
    by_cases empty : command.options = []
    · rw [empty]
      exact ⟨[], by simp, rfl⟩
    · have isOption := IsOption.joined (show ' ' ∈ Keyword.Passes.separators by decide) empty
        command.isOption_options
      refine ⟨' ' :: Text.joined ' ' command.options, Text.joined_cons _ empty, ?_⟩
      exact Text.dropWhile_eq_self isOption.isPhrase.trimmed.start
  rw [joined, Heading.nameAndOptions?_quoted command.name stripped command.oneLine_options]

theorem bracketedId?_append (rest : Text) :
    Heading.bracketedId? (command.bracketedId ++ ' ' :: rest) =
      some (command.id.map (·.text), ' ' :: rest) := by
  unfold bracketedId
  cases command.id with
  | none => rfl
  | some id =>
      simp only [List.cons_append, List.append_assoc, List.nil_append]
      exact Heading.bracketedId?_append id _

/-- A canonical command is taken apart into its parts. -/
theorem ofLine?_text :
    Heading.ofLine? command.text =
      some ⟨command.id.map (·.text), Text.joined ' ' command.dimensions, command.name.text,
        Text.joined ' ' command.options⟩ := by
  have dimensions := command.isOption_dimensions
  have nonempty : command.dimensions ≠ [] := List.cons_ne_nil _ _
  have length := command.word.length_text
  -- Behind the id there is one blank, and the dimensions start behind it.
  have text : command.text = command.word.text ++ (command.bracketedId ++ ' ' ::
      (Text.joined ' ' command.dimensions ++
        ' ' :: Text.joined ' ' (command.name.quoted :: command.options))) := by
    rw [BoardCommand.text, Text.joined_cons _ (by simp),
      Text.joined_append nonempty (List.cons_ne_nil _ _), List.append_assoc]
  have solid : Text.startsWith Text.isBlank (Text.joined ' ' command.dimensions ++
      ' ' :: Text.joined ' ' (command.name.quoted :: command.options)) = false := by
    rw [Text.IsSpaced.startsWith_append dimensions.isPhrase.nonempty]
    exact dimensions.isPhrase.trimmed.start
  have body := Heading.body?_append dimensions.isPhrase.nonempty dimensions.isPhrase.trimmed.ending
    command.unquoted_dimensions dimensions.oneLine command.nameAndOptions?_tail
    (command.id.map (·.text)) []
  rw [Heading.ofLine?, text, if_pos (Command.startsWith_append command.word _), ← length,
    List.drop_left, command.bracketedId?_append]
  exact Heading.firstSuffix?_blank solid body

end BoardCommand
end Canonical
end Joinery
