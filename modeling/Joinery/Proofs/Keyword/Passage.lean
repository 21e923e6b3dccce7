import Joinery.Proofs.Options.Tail
import Joinery.Proofs.Text.Spelling
import Joinery.Proofs.Token.Cut

/-!
# Searches for keywords

A search for a keyword goes through a text from left to right. It passes a part of the
text if it finds nothing in it and is at the same bracket depth behind it. So a keyword
that stands behind parts that are passed is found where it stands, and a section ends
where the next keyword starts.
-/

namespace Joinery
namespace Keyword

/-- Offset of the first place of a keyword in a text that starts at an offset, when some
brackets are open already. -/
def findFrom (position : Nat) (depth : Int) (text keyword : Text) : Option Nat :=
  ((Token.ofPieces position depth (Text.pieces Token.read text)).find? (isAt keyword)).map
    (·.position)

theorem find?_eq_findFrom (text keyword : Text) :
    find? text keyword = findFrom 0 0 text keyword := rfl

/-! ## Single tokens -/

section Tokens

variable {keyword : Text} {position : Nat} {depth : Int}

/-- A character that starts neither a word nor a variable is passed. -/
theorem findFrom_cons
    {character : Char}
    (notWord : Text.isAsciiWordCharacter character = false)
    (notVariable : character ≠ '$')
    (rest : Text) :
    findFrom position depth (character :: rest) keyword =
      findFrom (position + 1) (depth + Token.depthChange character) rest keyword := by
  unfold findFrom
  by_cases blank : Text.isBlank character = true
  · rw [Token.ofPieces_of_read_eq_none (Token.read_of_isBlank blank rest),
      Token.depthChange_of_isBlank blank, Int.add_zero]
  · have read : Token.read character rest = some (.ofCharacter character, 0) := by
      simp [Token.read, blank, notWord, notVariable]
    have different : isAt keyword
        ⟨.ofCharacter character, [character], position, depth⟩ = false := by
      simp [isAt, Token.Kind.ofCharacter_ne_word]
    rw [Token.ofPieces_of_read_eq_some read, List.take_zero, List.drop_zero,
      List.find?_cons_of_neg (by simp [different]), Token.depthOf, Token.depthOf, Int.add_zero]
    rfl

/-- A word is found or passed as a whole. -/
theorem findFrom_word_append
    {word rest : Text}
    (nonempty : word ≠ [])
    (isWord : word.all Text.isAsciiWordCharacter = true)
    (stops : Text.startsWith Text.isAsciiWordCharacter rest = false) :
    findFrom position depth (word ++ rest) keyword =
      if depth = 0 ∧ Text.lower word = Text.lower keyword then some position
      else findFrom (position + word.length) depth rest keyword := by
  cases word with
  | nil => exact absurd rfl nonempty
  | cons first others =>
      have level := Token.depthOf_of_isAsciiWordCharacter (List.all_eq_true.mp isWord)
      unfold findFrom
      rw [List.cons_append, Token.ofPieces_of_read_eq_some (Token.read_word isWord stops),
        List.take_left, List.drop_left, level, Int.add_zero]
      by_cases here : depth = 0 ∧ Text.lower (first :: others) = Text.lower keyword
      · rw [if_pos here, List.find?_cons_of_pos (by simp [isAt, here])]
        rfl
      · rw [if_neg here, List.find?_cons_of_neg (by simpa [isAt] using here)]

/-- A variable is passed as a whole. -/
theorem findFrom_variable_append
    {name rest : Text}
    (nonempty : name ≠ [])
    (isWord : name.all Text.isAsciiWordCharacter = true)
    (stops : Text.startsWith Text.isAsciiWordCharacter rest = false) :
    findFrom position depth ('$' :: (name ++ rest)) keyword =
      findFrom (position + (name.length + 1)) depth rest keyword := by
  have level := Token.depthOf_of_isAsciiWordCharacter (List.all_eq_true.mp isWord)
  have read : Token.read '$' (name ++ rest) = some (.variable, name.length) := by
    have length : 0 < name.length := List.length_pos_iff.mpr nonempty
    have notBlank : Text.isBlank '$' = false := by decide
    have notWord : Text.isAsciiWordCharacter '$' = false := by decide
    simp [Token.read, notBlank, notWord, Text.takeWhile_append_eq isWord stops, length]
  have still : Token.depthChange '$' = 0 := by decide
  unfold findFrom
  rw [Token.ofPieces_of_read_eq_some read, List.take_left, List.drop_left,
    List.find?_cons_of_neg (by simp [isAt]), Token.depthOf, level, still, Int.add_zero,
    Int.add_zero]
  rfl

/-- Whatever is found stands behind the start. -/
theorem le_of_findFrom
    {text : Text}
    {found : Nat}
    (known : findFrom position depth text keyword = some found) :
    position ≤ found := by
  obtain ⟨token, first, rfl⟩ := Option.map_eq_some_iff.mp known
  obtain ⟨offset, same, -⟩ := Token.exists_offset_of_mem (List.mem_of_find?_eq_some first)
  omega

end Tokens

/-! ## Passed texts -/

/-- A search for a keyword passes a text, no matter how many brackets are open. -/
def Passes (keyword text : Text) : Prop :=
  ∀ (position : Nat) (depth : Int) (rest : Text), 0 ≤ depth →
    Text.startsWith Text.isAsciiWordCharacter rest = false →
    findFrom position depth (text ++ rest) keyword =
      findFrom (position + text.length) depth rest keyword

namespace Passes

variable {keyword : Text}

theorem nil (keyword : Text) : Passes keyword [] := fun _ _ _ _ _ => rfl

/-- Characters that stand between phrases. -/
def separators : Text := [' ', ',']

theorem startsWith_separator
    {separator : Char}
    (isSeparator : separator ∈ separators)
    (rest : Text) :
    Text.startsWith Text.isAsciiWordCharacter (separator :: rest) = false := by
  have plain : separators.all (!Text.isAsciiWordCharacter ·) = true := by decide
  exact Text.forall_mem_of_all_not plain separator isSeparator

/-- A separator is passed. -/
theorem findFrom_separator
    {separator : Char}
    (isSeparator : separator ∈ separators)
    (position : Nat)
    (depth : Int)
    (rest : Text) :
    findFrom position depth (separator :: rest) keyword =
      findFrom (position + 1) depth rest keyword := by
  have level : Token.depthChange separator = 0 ∧ separator ≠ '$' := by
    rcases List.mem_cons.mp isSeparator with rfl | member
    · decide
    · rw [List.mem_singleton.mp member]
      decide
  rw [findFrom_cons (startsWith_separator isSeparator rest) level.2, level.1, Int.add_zero]

/-- Two texts with a separator between them are passed if both are. -/
theorem append
    {first second : Text}
    {separator : Char}
    (isSeparator : separator ∈ separators)
    (firstPasses : Passes keyword first)
    (secondPasses : Passes keyword second) :
    Passes keyword (first ++ separator :: second) := by
  intro position depth rest nonnegative stops
  rw [List.append_assoc, List.cons_append,
    firstPasses _ _ _ nonnegative (startsWith_separator isSeparator _),
    findFrom_separator isSeparator, secondPasses _ _ _ nonnegative stops, List.length_append,
    List.length_cons]
  congr 1
  omega

/-- Phrases are passed together if each of them is passed. -/
theorem joined
    {phrases : List Text}
    {separator : Char}
    (isSeparator : separator ∈ separators)
    (each : ∀ phrase ∈ phrases, Passes keyword phrase) :
    Passes keyword (Text.joined separator phrases) := by
  by_cases empty : phrases = []
  · rw [empty]
    exact nil keyword
  · exact Text.joined_induction empty each fun _ _ => append isSeparator

/-- A word that is not the keyword is passed. -/
theorem word
    {word : Text}
    (isWord : word.all Text.isAsciiWordCharacter = true)
    (different : Text.lower word ≠ Text.lower keyword) :
    Passes keyword word := by
  intro position depth rest _ stops
  cases word with
  | nil => rfl
  | cons first others =>
      rw [findFrom_word_append (List.cons_ne_nil first others) isWord stops,
        if_neg fun same => different same.2]

/-- Nothing is found in a text that is passed. -/
theorem find?_eq_none
    {text : Text}
    (passes : Passes keyword text) :
    find? text keyword = none := by
  have found := passes 0 0 [] (Int.le_refl 0) rfl
  rwa [List.append_nil] at found

end Passes

/-! ## Sections -/

/-- Words that can be keywords: small letters, digits and low lines, but no digit at
first. -/
structure IsKeyword (word : Text) : Prop where
  nonempty : word ≠ []
  isWord : word.all Text.isAsciiWordCharacter = true
  small : Text.lower word = word
  starts : Text.startsWith Char.isDigit word = false

section Sections

variable {keyword : Text}

theorem findFrom_spelling
    (isKeyword : IsKeyword keyword)
    (spelling : Text.Spelling keyword)
    (position : Nat)
    {rest : Text}
    (stops : Text.startsWith Text.isAsciiWordCharacter rest = false) :
    findFrom position 0 (spelling.text ++ rest) keyword = some position := by
  rw [findFrom_word_append (spelling.text_ne_nil isKeyword.nonempty)
    (spelling.all_isAsciiWordCharacter isKeyword.isWord) stops, if_pos]
  exact ⟨rfl, (spelling.lower_text isKeyword.isWord).trans isKeyword.small.symm⟩

/-- Another keyword is passed. -/
theorem passes_spelling
    (isKeyword : IsKeyword keyword)
    {word : Text}
    (isWord : word.all Text.isAsciiWordCharacter = true)
    (spelling : Text.Spelling word)
    (different : word ≠ keyword) :
    Passes keyword spelling.text := by
  refine Passes.word (spelling.all_isAsciiWordCharacter isWord) ?_
  rwa [spelling.lower_text isWord, isKeyword.small]

/-- What follows a keyword in a row of phrases. -/
theorem joined_spelling_cons
    (spelling : Text.Spelling keyword)
    (phrases : List Text) :
    ∃ rest, Text.joined ' ' (spelling.text :: phrases) = spelling.text ++ rest ∧
      Text.startsWith Text.isAsciiWordCharacter rest = false ∧
      Text.strip rest = Text.strip (Text.joined ' ' phrases) := by
  cases phrases with
  | nil => exact ⟨[], by simp, rfl, rfl⟩
  | cons next further =>
      refine ⟨' ' :: Text.joined ' ' (next :: further), ?_, by simp; decide, ?_⟩
      · exact Text.joined_cons _ (List.cons_ne_nil _ _)
      · exact Text.strip_blank_cons _

/-- The keyword that a row of phrases starts with is found at once. -/
theorem find?_joined
    (isKeyword : IsKeyword keyword)
    (spelling : Text.Spelling keyword)
    (phrases : List Text) :
    find? (Text.joined ' ' (spelling.text :: phrases)) keyword = some 0 := by
  obtain ⟨rest, joined, stops, -⟩ := joined_spelling_cons spelling phrases
  rw [find?_eq_findFrom, joined, findFrom_spelling isKeyword spelling 0 stops]

/-- The text behind the keyword that a row of phrases starts with. -/
theorem behind?_joined
    (isKeyword : IsKeyword keyword)
    (spelling : Text.Spelling keyword)
    (phrases : List Text) :
    behind? (Text.joined ' ' (spelling.text :: phrases)) keyword =
      some ((Text.joined ' ' (spelling.text :: phrases)).drop keyword.length) := by
  rw [behind?, find?_joined isKeyword, Option.map_some, Nat.zero_add]

/-- The phrases behind the keyword are left. -/
theorem strip_drop_joined
    (spelling : Text.Spelling keyword)
    {phrases : List Text}
    (each : ∀ phrase ∈ phrases, Text.IsPhrase phrase) :
    Text.strip ((Text.joined ' ' (spelling.text :: phrases)).drop keyword.length) =
      Text.joined ' ' phrases := by
  obtain ⟨rest, joined, -, stripped⟩ := joined_spelling_cons spelling phrases
  have length := spelling.length_text
  rw [joined, ← length, List.drop_left, stripped, Text.strip_joined each]

theorem drop_joined
    (spelling : Text.Spelling keyword)
    {phrases : List Text}
    (nonempty : phrases ≠ []) :
    (Text.joined ' ' (spelling.text :: phrases)).drop keyword.length =
      ' ' :: Text.joined ' ' phrases := by
  have length := spelling.length_text
  rw [Text.joined_cons _ nonempty, ← length, List.drop_left]

/-- The keyword behind a phrase is found, and the phrase stands between the blanks. -/
theorem find?_behind
    (isKeyword : IsKeyword keyword)
    (spelling : Text.Spelling keyword)
    {phrase : Text}
    (passes : Passes keyword phrase)
    (isPhrase : Text.IsPhrase phrase)
    (others : List Text) :
    ∃ position, find? (' ' :: Text.joined ' ' (phrase :: spelling.text :: others)) keyword =
        some position ∧
      Text.strip ((' ' :: Text.joined ' ' (phrase :: spelling.text :: others)).take position) =
        phrase ∧
      (' ' :: Text.joined ' ' (phrase :: spelling.text :: others)).drop position =
        Text.joined ' ' (spelling.text :: others) := by
  obtain ⟨rest, joined, stops, -⟩ := joined_spelling_cons spelling others
  have isSeparator : ' ' ∈ Passes.separators := by decide
  have text : ' ' :: Text.joined ' ' (phrase :: spelling.text :: others) =
      (' ' :: (phrase ++ [' '])) ++ Text.joined ' ' (spelling.text :: others) := by
    rw [Text.joined_cons phrase (List.cons_ne_nil _ _)]
    simp
  have length : (' ' :: (phrase ++ [' '])).length = 0 + 1 + phrase.length + 1 := by simp; omega
  refine ⟨0 + 1 + phrase.length + 1, ?_, ?_, ?_⟩
  · rw [Text.joined_cons phrase (List.cons_ne_nil _ _), find?_eq_findFrom,
      Passes.findFrom_separator isSeparator, passes _ _ _ (Int.le_refl 0)
        (Passes.startsWith_separator isSeparator _), Passes.findFrom_separator isSeparator, joined,
      findFrom_spelling isKeyword spelling _ stops]
  · rw [text, ← length, List.take_left, Text.strip_blank_cons,
      Text.strip_append_blank isPhrase.trimmed]
  · rw [text, ← length, List.drop_left]

theorem behind?_eq_none
    {text : Text}
    (passes : Passes keyword text) :
    behind? text keyword = none := by
  rw [behind?, passes.find?_eq_none]
  rfl

/-- A row of phrases is empty or starts with one of some keywords. -/
def StartsAt (keywords phrases : List Text) : Prop :=
  ∀ phrase ∈ phrases.head?, ∃ keyword ∈ keywords, ∃ spelling : Text.Spelling keyword,
    phrase = spelling.text

/-- A section goes on to the next of the keywords that end it. -/
theorem takeSection_joined
    {part rest stops : List Text}
    (areKeywords : ∀ keyword ∈ stops, IsKeyword keyword)
    (nonempty : part ≠ [])
    (partPhrases : ∀ phrase ∈ part, Text.IsPhrase phrase)
    (restPhrases : ∀ phrase ∈ rest, Text.IsPhrase phrase)
    (passes : ∀ keyword ∈ stops, ∀ phrase ∈ part, Passes keyword phrase)
    (startsAt : StartsAt stops rest) :
    takeSection (Text.joined ' ' (part ++ rest)) stops =
      (Text.joined ' ' part, Text.joined ' ' rest) := by
  have partPhrase : Text.IsPhrase (Text.joined ' ' part) := .joined nonempty partPhrases
  cases rest with
  | nil =>
      have missing : findNext? (Text.joined ' ' part) stops = none :=
        findNext?_eq_none_iff.mpr fun keyword member =>
          (Passes.joined (by decide) (passes keyword member)).find?_eq_none
      rw [List.append_nil, takeSection, missing]
      exact congrArg (·, []) partPhrase.strip_eq
  | cons word others =>
      obtain ⟨keyword, member, spelling, rfl⟩ := startsAt word rfl
      obtain ⟨tail, joined, tailStops, -⟩ := joined_spelling_cons spelling others
      have text : Text.joined ' ' (part ++ spelling.text :: others) =
          Text.joined ' ' part ++ ' ' :: Text.joined ' ' (spelling.text :: others) :=
        Text.joined_append nonempty (List.cons_ne_nil _ _)
      -- Every keyword passes the section and the blank behind it.
      have found (other : Text) (known : other ∈ stops) :
          find? (Text.joined ' ' (part ++ spelling.text :: others)) other =
            findFrom ((Text.joined ' ' part).length + 1) 0 (spelling.text ++ tail) other := by
        have isSeparator : ' ' ∈ Passes.separators := by decide
        rw [find?_eq_findFrom, text, Passes.joined isSeparator (passes other known) _ _ _
          (Int.le_refl 0) (Passes.startsWith_separator isSeparator _),
          Passes.findFrom_separator isSeparator, Nat.zero_add, joined]
      obtain ⟨next, isNext⟩ := exists_findNext?
        (fun other known place same => le_of_findFrom ((found other known).symm.trans same))
        ⟨keyword, member, (found keyword member).trans
          (findFrom_spelling (areKeywords keyword member) spelling _ tailStops)⟩
      have split : Text.joined ' ' part ++ ' ' :: Text.joined ' ' (spelling.text :: others) =
          (Text.joined ' ' part ++ [' ']) ++ Text.joined ' ' (spelling.text :: others) := by
        simp
      have length : (Text.joined ' ' part).length + 1 = (Text.joined ' ' part ++ [' ']).length := by
        simp
      rw [takeSection, isNext]
      dsimp only
      rw [text, split, length, List.take_left, List.drop_left,
        Text.strip_append_blank partPhrase.trimmed, Text.strip_joined restPhrases]

end Sections
end Keyword
end Joinery
