import Joinery.Coordinate
import Joinery.Proofs.Expression.Formula

/-!
# Dimensions

The dimensions of a board are formulas with the letter x between them. No formula is split:
an x in it belongs to the name of a variable, or brackets are open in front of it. Between
two formulas an x with blanks separates only where the second one starts with a digit, a
dollar sign, a parenthesis or a brace.
-/

namespace Joinery

open Arithmetic Expression

namespace Dimension

/-- No dimension starts behind the white space at the start of a text. -/
def Ends (text : Text) : Prop := Text.startsWith isStart (Text.stripStart text) = false

theorem readSeparator_eq_none
    {character : Char}
    {rest : Text}
    (different : Text.startsWith isSeparator (Text.stripStart (character :: rest)) = false) :
    readSeparator character rest = none := by
  obtain ⟨blanks, tail, whole, blank, ends⟩ :=
    Text.exists_append_of_all Text.isBlank (character :: rest)
  rw [whole, Text.stripStart, Text.dropWhile_append_eq blank ends] at different
  unfold readSeparator
  simp only [whole, Text.takeWhile_append_eq blank ends, List.drop_left]
  cases tail with
  | nil => rfl
  | cons letter after =>
      rw [Text.startsWith_cons] at different
      simp only [different, Bool.false_and]
      split <;> rfl

/-- What is read at a character that is no white space. -/
theorem readSeparator_of_solid
    {character : Char}
    (solid : Text.isBlank character = false)
    (rest : Text) :
    readSeparator character rest =
      match Text.stripStart rest with
      | start :: others =>
          if isSeparator character && isStart start then
            some (⟨false, start.isDigit⟩, rest.length - (start :: others).length)
          else none
      | [] => none := by
  have none : (character :: rest).takeWhile Text.isBlank = [] :=
    Text.takeWhile_eq_nil solid
  unfold readSeparator
  simp only [none, List.length_nil, List.drop_zero, List.isEmpty_nil, Bool.not_true, Nat.zero_add,
    Text.stripStart]
  cases rest.dropWhile Text.isBlank with
  | nil => rfl
  | cons start others => rfl

theorem readSeparator_of_ends
    {character : Char}
    {rest : Text}
    (solid : Text.isBlank character = false)
    (ends : Ends rest) :
    readSeparator character rest = none := by
  rw [readSeparator_of_solid solid]
  unfold Ends at ends
  split
  next start others known =>
    rw [known, Text.startsWith_cons] at ends
    simp [ends]
  next => rfl

/-- A character that is neither white space nor a separator separates nothing. -/
theorem splitFrom_plain
    {text : Text}
    (plain : ∀ character ∈ text,
      Text.isBlank character = false ∧ isSeparator character = false)
    (before part rest : Text) :
    splitFrom before part (Text.pieces readSeparator (text ++ rest)) =
      splitFrom (text.reverse ++ before) (text.reverse ++ part)
        (Text.pieces readSeparator rest) := by
  induction text generalizing before part with
  | nil => rfl
  | cons character others inductionHypothesis =>
      obtain ⟨⟨solid, different⟩, othersPlain⟩ := List.forall_mem_cons.mp plain
      have unread : readSeparator character (others ++ rest) = none := by
        refine readSeparator_eq_none ?_
        have stripped : Text.stripStart (character :: (others ++ rest)) =
            character :: (others ++ rest) := Text.dropWhile_eq_self solid
        rw [stripped]
        exact different
      rw [List.cons_append, Text.pieces_of_read_eq_none unread, splitFrom,
        inductionHypothesis othersPlain, List.reverse_cons, List.append_assoc, List.append_assoc]
      rfl

/-- White space in front of anything but a separator separates nothing. -/
theorem splitFrom_blanks
    {gap rest : Text}
    (blank : gap.all Text.isBlank = true)
    (solid : Text.startsWith Text.isBlank rest = false)
    (different : Text.startsWith isSeparator rest = false)
    (before part : Text) :
    splitFrom before part (Text.pieces readSeparator (gap ++ rest)) =
      splitFrom (gap.reverse ++ before) (gap.reverse ++ part)
        (Text.pieces readSeparator rest) := by
  induction gap generalizing before part with
  | nil => rfl
  | cons character others inductionHypothesis =>
      have stripped : Text.stripStart (character :: (others ++ rest)) = rest :=
        Text.dropWhile_append_eq blank solid
      have unread : readSeparator character (others ++ rest) = none := by
        refine readSeparator_eq_none ?_
        rw [stripped]
        exact different
      rw [List.all_cons, Bool.and_eq_true] at blank
      rw [List.cons_append, Text.pieces_of_read_eq_none unread, splitFrom,
        inductionHypothesis blank.2, List.reverse_cons, List.append_assoc, List.append_assoc]
      rfl

/-- No separator is looked for behind a text: a bracket is open, or the text ends with a
variable. The text is given in reverse. -/
def Hides (before : Text) : Prop :=
  Token.depthOf before ≠ 0 ∨ endsWithVariable before = true

theorem Hides.cons
    {before : Text}
    (hides : Hides before)
    {character : Char}
    (isWord : Text.isAsciiWordCharacter character = true) :
    Hides (character :: before) := by
  refine hides.imp ?_ ?_
  · rw [Token.depthOf, Token.depthChange_eq_zero isWord (by decide), Int.zero_add]
    exact id
  · unfold endsWithVariable
    rw [List.dropWhile_cons_of_pos isWord]
    exact id

/-- A word with which a dimension starts is a number. -/
theorem isDigit_of_isStart
    {character : Char}
    (isWord : Text.isAsciiWordCharacter character = true)
    (isStart : isStart character = true) :
    character.isDigit = true := by
  have other (mark : Char) (isMark : mark ∈ ['$', '(', '{']) : (character == mark) = false := by
    have none : ['$', '(', '{'].all (!Text.isAsciiWordCharacter ·) = true := by decide
    rw [beq_eq_false_iff_ne]
    rintro rfl
    rw [Text.forall_mem_of_all_not none character isMark] at isWord
    cases isWord
  rwa [Dimension.isStart, other '$' (by decide), other '(' (by decide), other '{' (by decide),
    Bool.or_false, Bool.or_false, Bool.or_false] at isStart

/-- A word separates nothing where no separator is looked for. An x in it would have to
touch a digit, and it belongs to the word. -/
theorem splitFrom_word
    {word rest : Text}
    (isWord : word.all Text.isAsciiWordCharacter = true)
    (ends : Ends rest)
    {before : Text}
    (hides : Hides before)
    (part : Text) :
    splitFrom before part (Text.pieces readSeparator (word ++ rest)) =
      splitFrom (word.reverse ++ before) (word.reverse ++ part)
        (Text.pieces readSeparator rest) := by
  induction word generalizing before part with
  | nil => rfl
  | cons character others inductionHypothesis =>
      rw [List.all_cons, Bool.and_eq_true] at isWord
      have solid := Text.isBlank_of_isAsciiWordCharacter isWord.1
      have behind := inductionHypothesis isWord.2 (hides.cons isWord.1) (character :: part)
      -- One character is taken, no matter whether it is read as a separator.
      suffices step : splitFrom before part
            (Text.pieces readSeparator (character :: (others ++ rest))) =
          splitFrom (character :: before) (character :: part)
            (Text.pieces readSeparator (others ++ rest)) by
        rw [List.cons_append, step, behind, List.reverse_cons, List.append_assoc,
          List.append_assoc]
        rfl
      cases others with
      | nil =>
          rw [List.nil_append,
            Text.pieces_of_read_eq_none (readSeparator_of_ends solid ends), splitFrom]
      | cons next further =>
          rw [List.all_cons, Bool.and_eq_true] at isWord
          have nextSolid := Text.isBlank_of_isAsciiWordCharacter isWord.2.1
          have stripped : Text.stripStart (next :: further ++ rest) = next :: further ++ rest :=
            Text.dropWhile_eq_self nextSolid
          have read := readSeparator_of_solid solid (next :: further ++ rest)
          rw [stripped] at read
          by_cases found : isSeparator character && isStart next
          · have isDigit : next.isDigit = true :=
              isDigit_of_isStart isWord.2.1 (Bool.and_eq_true_iff.mp found).2
            simp only [List.cons_append, found, if_true, isDigit, Nat.sub_self] at read
            rw [List.cons_append, Text.pieces_of_read_eq_some read, splitFrom, if_neg]
            · rfl
            · rcases hides with deep | touching
              · simp [separates, deep]
              · simp [separates, touching]
          · simp only [List.cons_append, found] at read
            rw [List.cons_append, Text.pieces_of_read_eq_none read, splitFrom]

theorem splitFrom_character
    {character : Char}
    (solid : Text.isBlank character = false)
    (different : isSeparator character = false)
    (before part rest : Text) :
    splitFrom before part (Text.pieces readSeparator (character :: rest)) =
      splitFrom (character :: before) (character :: part) (Text.pieces readSeparator rest) :=
  @splitFrom_plain [character] (by simp [solid, different]) before part rest

theorem isSeparator_of_continues
    {character : Char}
    (continues : Numeral.continues character = true) :
    isSeparator character = false := by
  have different (letter : Char) (isLetter : letter ∈ ['x', 'X', 'х']) :
      (character == letter) = false := by
    have none : ['x', 'X', 'х'].all (!Numeral.continues ·) = true := by decide
    rw [beq_eq_false_iff_ne]
    rintro rfl
    rw [Text.forall_mem_of_all_not none character isLetter] at continues
    cases continues
  rw [isSeparator, different 'x' (by decide), different 'X' (by decide), different 'х' (by decide)]
  rfl

/-- A text is whole if it separates nothing behind a text that closes no more brackets than
it opens. -/
def IsWhole (text : Text) : Prop :=
  ∀ before part rest : Text, 0 ≤ Token.depthOf before → Ends rest →
    splitFrom before part (Text.pieces readSeparator (text ++ rest)) =
      splitFrom (text.reverse ++ before) (text.reverse ++ part)
        (Text.pieces readSeparator rest)

theorem isWhole_operand (operand : Operand) : IsWhole operand.text := by
  intro before part rest nonnegative ends
  cases operand with
  | literal numeral =>
      refine splitFrom_plain (fun character member => ?_) before part rest
      have continues := numeral.continues_of_mem character member
      exact ⟨isBlank_of_continues continues, isSeparator_of_continues continues⟩
  | named name =>
      have hides : Hides ('$' :: before) := Or.inr rfl
      rw [Operand.text, List.cons_append, splitFrom_character (by decide) (by decide),
        splitFrom_word name.continues ends hides]
      simp only [List.reverse_cons, List.append_assoc, List.singleton_append]
  | measured id name =>
      -- All of it stands behind its opening brace.
      have deep (text : Text) (level : Token.depthOf text = 0) : Hides (text ++ '{' :: before) := by
        have opening : Token.depthChange '{' = 1 := rfl
        refine Or.inl ?_
        rw [Token.depthOf_append, level, Token.depthOf, opening]
        omega
      have idLevel : Token.depthOf ('.' :: id.text.reverse) = 0 := by
        rw [Token.depthOf, Token.depthOf_reverse,
          Token.depthOf_of_isAsciiWordCharacter (List.all_eq_true.mp id.continues)]
        rfl
      have idHides : Hides ('{' :: before) := deep [] rfl
      have nameHides : Hides ('.' :: (id.text.reverse ++ '{' :: before)) := deep _ idLevel
      have point (text : Text) : Ends ('.' :: text) := rfl
      have closing (text : Text) : Ends ('}' :: text) := rfl
      simp only [Operand.text, List.cons_append, List.append_assoc, List.nil_append]
      rw [splitFrom_character (by decide) (by decide),
        splitFrom_word id.continues (point _) idHides,
        splitFrom_character (by decide) (by decide),
        splitFrom_word name.isWord (closing _) nameHides, splitFrom_character (by decide) (by decide)]
      simp only [List.reverse_cons, List.reverse_append, List.append_assoc, List.reverse_nil,
        List.nil_append, List.cons_append]

/-- No letter of the name of the distance is a separator. -/
theorem isSeparator_of_mem_distance
    (name : Text.Spelling "len".toList) :
    ∀ character ∈ name.text, isSeparator character = false := by
  intro character member
  have small : character.toLower ∈ "len".toList := name.spells ▸ List.mem_map_of_mem member
  rw [← Bool.not_eq_true]
  intro separator
  simp only [isSeparator, Bool.or_eq_true, beq_iff_eq] at separator
  rcases separator with (rfl | rfl) | rfl <;> exact absurd small (by decide)

theorem isSeparator_of_mem_marks {mark : Char} (isMark : mark ∈ ',' :: marks) :
    isSeparator mark = false :=
  Text.forall_mem_of_all_not (by decide) mark isMark

/-- The start of a formula is no separator. -/
theorem startsWith_isSeparator_of_isRow
    {isAllowed : Operand → Prop}
    {count : Nat}
    {text : Text}
    (row : IsRow isAllowed count text) :
    Text.startsWith isSeparator text = false := by
  induction row with
  | operand argument allowed =>
      cases argument with
      | literal numeral =>
          exact Text.startsWith_of_forall fun character member =>
            isSeparator_of_continues (numeral.continues_of_mem character member)
      | named name => rfl
      | measured id name => rfl
  | signed sign _ _ _ => cases sign <;> rfl
  | enclosed _ _ _ _ => rfl
  | combined _ _ _ leftRow _ leftStarts _ =>
      rwa [Text.IsSpaced.startsWith_append (isPhrase_of_isRow leftRow).nonempty]
  | distance name _ _ _ _ =>
      rw [Text.IsSpaced.startsWith_append (name.text_ne_nil (by decide))]
      exact Text.startsWith_of_forall (isSeparator_of_mem_distance name)
  | next _ _ firstRow _ firstStarts _ =>
      rwa [Text.IsSpaced.startsWith_append (isPhrase_of_isRow firstRow).nonempty]

/-- Nothing starts behind white space where a comma, an operator or a closing bracket
stands. -/
theorem ends_append_cons
    {gap : Text}
    (blank : gap.all Text.isBlank = true)
    {mark : Char}
    (isMark : mark ∈ ')' :: ',' :: operators)
    (rest : Text) :
    Ends (gap ++ mark :: rest) := by
  have solid : Text.isBlank mark = false :=
    Text.forall_mem_of_all_not (by decide) mark isMark
  have starts : isStart mark = false :=
    Text.forall_mem_of_all_not (by decide) mark isMark
  have stripped : Text.stripStart (gap ++ mark :: rest) = mark :: rest :=
    Text.dropWhile_append_eq blank solid
  unfold Ends
  rw [stripped]
  exact starts

/-- White space and a mark separate nothing. -/
theorem splitFrom_gap
    {gap : Text}
    (blank : gap.all Text.isBlank = true)
    {mark : Char}
    (isMark : mark ∈ ',' :: marks)
    (before part rest : Text) :
    splitFrom before part (Text.pieces readSeparator (gap ++ mark :: rest)) =
      splitFrom (mark :: (gap.reverse ++ before)) (mark :: (gap.reverse ++ part))
        (Text.pieces readSeparator rest) := by
  have solid : Text.isBlank mark = false :=
    Text.forall_mem_of_all_not (by decide) mark isMark
  have different := isSeparator_of_mem_marks isMark
  have skipped := @splitFrom_blanks gap (mark :: rest) blank solid different before part
  rw [skipped, splitFrom_character solid different]

section Row

variable {isAllowed : Operand → Prop} {count : Nat} {text : Text}

/-- White space in front of a row separates nothing. -/
theorem splitFrom_blanks_append
    {gap : Text}
    (blank : gap.all Text.isBlank = true)
    (row : IsRow isAllowed count text)
    (before part rest : Text) :
    splitFrom before part (Text.pieces readSeparator (gap ++ (text ++ rest))) =
      splitFrom (gap.reverse ++ before) (gap.reverse ++ part)
        (Text.pieces readSeparator (text ++ rest)) := by
  have phrase := isPhrase_of_isRow row
  refine splitFrom_blanks blank ?_ ?_ before part
  · rw [Text.IsSpaced.startsWith_append phrase.nonempty]
    exact phrase.trimmed.start
  · rw [Text.IsSpaced.startsWith_append phrase.nonempty]
    exact startsWith_isSeparator_of_isRow row

theorem depthOf_before
    (level : Token.depthOf text = 0)
    (before : Text) :
    Token.depthOf (text.reverse ++ before) = Token.depthOf before := by
  rw [Token.depthOf_append, Token.depthOf_reverse, level, Int.zero_add]

/-- A row in parentheses separates nothing. -/
theorem IsWhole.enclosed
    (whole : IsWhole text)
    (row : IsRow isAllowed count text)
    {gap trail : Text}
    (blank : gap.all Text.isBlank = true)
    (trailBlank : trail.all Text.isBlank = true) :
    IsWhole ('(' :: (gap ++ (text ++ (trail ++ [')'])))) := by
  intro before part rest nonnegative ends
  have level : Token.depthOf (gap.reverse ++ '(' :: before) = 1 + Token.depthOf before := by
    rw [depthOf_before (Token.depthOf_of_blanks blank), Token.depthOf]
    rfl
  have marked := @splitFrom_gap [] rfl '(' (by decide) before part
  simp only [List.nil_append, List.reverse_nil] at marked
  simp only [List.cons_append, List.append_assoc, List.nil_append]
  rw [marked, splitFrom_blanks_append blank row,
    whole _ _ _ (by omega) (ends_append_cons trailBlank (by decide) rest),
    splitFrom_gap trailBlank (by decide)]
  simp only [List.reverse_cons, List.reverse_append, List.append_assoc, List.cons_append,
    List.reverse_nil, List.nil_append]

/-- Two rows with an operator or a comma between them separate nothing. -/
theorem IsWhole.append
    {other : Text}
    {otherCount : Nat}
    (whole : IsWhole text)
    (otherWhole : IsWhole other)
    (row : IsRow isAllowed count text)
    (otherRow : IsRow isAllowed otherCount other)
    {mark : Char}
    (isMark : mark ∈ ',' :: operators)
    {gap trail : Text}
    (blank : gap.all Text.isBlank = true)
    (trailBlank : trail.all Text.isBlank = true) :
    IsWhole (text ++ (gap ++ mark :: (trail ++ other))) := by
  intro before part rest nonnegative ends
  have markLevel : Token.depthChange mark = 0 := by
    rcases List.mem_cons.mp isMark with rfl | isOperator
    · rfl
    · exact depthChange_of_mem_operators isOperator
  have level : Token.depthOf
      (trail.reverse ++ mark :: (gap.reverse ++ (text.reverse ++ before))) =
        Token.depthOf before := by
    rw [depthOf_before (Token.depthOf_of_blanks trailBlank), Token.depthOf, markLevel,
      depthOf_before (Token.depthOf_of_blanks blank), depthOf_before (depthOf_of_isRow row),
      Int.zero_add]
  have known : mark ∈ ',' :: marks := List.mem_append_left ['(', ')'] isMark
  simp only [List.cons_append, List.append_assoc]
  rw [whole _ _ _ nonnegative (ends_append_cons blank (List.mem_cons_of_mem _ isMark) _),
    splitFrom_gap blank known, splitFrom_blanks_append trailBlank otherRow,
    otherWhole _ _ _ (by omega) ends]
  simp only [List.reverse_cons, List.reverse_append, List.append_assoc, List.cons_append,
    List.nil_append]

/-- The name of the distance in front of a text separates nothing. -/
theorem IsWhole.distance
    (whole : IsWhole text)
    (name : Text.Spelling "len".toList) :
    IsWhole (name.text ++ text) := by
  intro before part rest nonnegative ends
  have isWord := List.all_eq_true.mp (isWord_distance name)
  have plain (character : Char) (member : character ∈ name.text) :
      Text.isBlank character = false ∧ isSeparator character = false :=
    ⟨Text.isBlank_of_isAsciiWordCharacter (isWord character member),
      isSeparator_of_mem_distance name character member⟩
  have level : Token.depthOf (name.text.reverse ++ before) = Token.depthOf before :=
    depthOf_before (Token.depthOf_of_isAsciiWordCharacter isWord) before
  rw [List.append_assoc, splitFrom_plain plain, whole _ _ _ (by omega) ends, List.reverse_append,
    List.append_assoc, List.append_assoc]

/-- A row of formulas separates nothing. -/
theorem isWhole_of_isRow (row : IsRow isAllowed count text) : IsWhole text := by
  induction row with
  | operand argument allowed => exact isWhole_operand argument
  | @signed sign gap inner blank innerRow innerWhole =>
      intro before part rest nonnegative ends
      have isOperator := sign.character_mem_operators
      have level : Token.depthOf (gap.reverse ++ sign.character :: before) =
          Token.depthOf before := by
        rw [depthOf_before (Token.depthOf_of_blanks blank), Token.depthOf,
          depthChange_of_mem_operators isOperator, Int.zero_add]
      have isMark := List.mem_cons_of_mem ',' (mem_marks_of_mem_operators isOperator)
      have marked := @splitFrom_gap [] rfl sign.character isMark before part
      simp only [List.nil_append, List.reverse_nil] at marked
      rw [List.cons_append, List.append_assoc, marked, splitFrom_blanks_append blank innerRow,
        innerWhole _ _ _ (by omega) ends]
      simp only [List.reverse_cons, List.reverse_append, List.append_assoc, List.singleton_append]
  | enclosed blank trailBlank innerRow innerWhole =>
      exact innerWhole.enclosed innerRow blank trailBlank
  | combined isOperator blank trailBlank leftRow rightRow leftWhole rightWhole =>
      exact leftWhole.append rightWhole leftRow rightRow (List.mem_cons_of_mem _ isOperator) blank
        trailBlank
  | distance name blank trailBlank innerRow innerWhole =>
      exact (innerWhole.enclosed innerRow blank trailBlank).distance name
  | next blank trailBlank firstRow restRow firstWhole restWhole =>
      exact firstWhole.append restWhole firstRow restRow List.mem_cons_self blank trailBlank

end Row

/-! ## An x between formulas -/

theorem isBlank_of_isStart
    {character : Char}
    (starts : isStart character = true) :
    Text.isBlank character = false := by
  simp only [isStart, Bool.or_eq_true, beq_iff_eq] at starts
  rcases starts with ((digit | rfl) | rfl) | rfl
  · have isAlphanum : character.isAlphanum = true := Bool.or_eq_true_iff.mpr (Or.inr digit)
    have isWord : Text.isAsciiWordCharacter character = true := by
      rw [Text.isAsciiWordCharacter, isAlphanum, Bool.true_or]
    exact Text.isBlank_of_isAsciiWordCharacter isWord
  · decide
  · decide
  · decide

/-- An x with a blank on both sides is taken with its blanks. -/
theorem pieces_separator
    {rest : Text}
    (starts : Text.startsWith isStart rest = true) :
    ∃ separator : Separator, separator.isSpaced = true ∧
      Text.pieces readSeparator (' ' :: 'x' :: ' ' :: rest) =
        .found separator [' ', 'x', ' '] :: Text.pieces readSeparator rest := by
  cases rest with
  | nil => cases starts
  | cons start others =>
      rw [Text.startsWith_cons] at starts
      have solid := isBlank_of_isStart starts
      have blanks : (' ' :: 'x' :: ' ' :: start :: others).takeWhile Text.isBlank = [' '] :=
        @Text.takeWhile_append_eq Text.isBlank [' '] ('x' :: ' ' :: start :: others) rfl rfl
      have next : (' ' :: start :: others).dropWhile Text.isBlank = start :: others :=
        @Text.dropWhile_append_eq Text.isBlank [' '] (start :: others) rfl solid
      have read : readSeparator ' ' ('x' :: ' ' :: start :: others) =
          some (⟨true, start.isDigit⟩, 2) := by
        unfold readSeparator
        simp [blanks, next, starts, isSeparator]
      refine ⟨_, rfl, Text.pieces_of_read_eq_some read⟩

/-- An x with a blank on both sides separates nothing where no dimension starts behind it. -/
theorem splitFrom_unseparated
    {rest : Text}
    (solid : Text.startsWith Text.isBlank rest = false)
    (different : Text.startsWith isSeparator rest = false)
    (other : Text.startsWith isStart rest = false)
    (before part : Text) :
    splitFrom before part (Text.pieces readSeparator (' ' :: 'x' :: ' ' :: rest)) =
      splitFrom (' ' :: 'x' :: ' ' :: before) (' ' :: 'x' :: ' ' :: part)
        (Text.pieces readSeparator rest) := by
  have next : (' ' :: rest).dropWhile Text.isBlank = rest :=
    @Text.dropWhile_append_eq Text.isBlank [' '] rest rfl solid
  have ends : Ends (' ' :: rest) := by
    rw [Ends, Text.stripStart, next]
    exact other
  have unread : readSeparator ' ' ('x' :: ' ' :: rest) = none := by
    have blanks : (' ' :: 'x' :: ' ' :: rest).takeWhile Text.isBlank = [' '] :=
      @Text.takeWhile_append_eq Text.isBlank [' '] ('x' :: ' ' :: rest) rfl rfl
    unfold readSeparator
    simp only [blanks, List.length_singleton, List.drop_one, List.tail_cons, next]
    cases rest with
    | nil => rfl
    | cons start others =>
        rw [Text.startsWith_cons] at other
        simp [other]
  have last := @splitFrom_blanks [' '] rest rfl solid different
  rw [Text.pieces_of_read_eq_none unread, splitFrom,
    Text.pieces_of_read_eq_none (readSeparator_of_ends (by decide) ends), splitFrom]
  exact last _ _

/-- What a part has already stays at its start. -/
theorem exists_splitFrom_eq_cons
    (before part : Text)
    (pieces : List (Text.Piece Separator)) :
    ∃ more others, splitFrom before part pieces = (part.reverse ++ more) :: others := by
  induction pieces generalizing before part with
  | nil => exact ⟨[], [], by rw [splitFrom, List.append_nil]⟩
  | cons piece rest inductionHypothesis =>
      cases piece with
      | other character =>
          obtain ⟨more, others, split⟩ :=
            inductionHypothesis (character :: before) (character :: part)
          refine ⟨character :: more, others, ?_⟩
          rw [splitFrom, split, List.reverse_cons, List.append_assoc, List.singleton_append]
      | found separator text =>
          rw [splitFrom]
          split
          · exact ⟨[], _, by rw [List.append_nil]⟩
          · obtain ⟨more, others, split⟩ :=
              inductionHypothesis (text.reverse ++ before) (text.reverse ++ part)
            refine ⟨text ++ more, others, ?_⟩
            rw [split, List.reverse_append, List.reverse_reverse, List.append_assoc]

section Separation

variable {text rest before : Text}

/-- A formula is split off at the x behind it, if a dimension starts behind that. -/
theorem exists_splitFrom
    (isFormula : IsFormula text)
    (starts : Text.startsWith isStart rest = true)
    (level : Token.depthOf before = 0) :
    ∃ behind, Token.depthOf behind = 0 ∧
      splitFrom before [] (Text.pieces readSeparator (text ++ ' ' :: 'x' :: ' ' :: rest)) =
        text :: splitFrom behind [] (Text.pieces readSeparator rest) := by
  obtain ⟨separator, spaced, read⟩ := pieces_separator starts
  have behind : Token.depthOf (text.reverse ++ before) = 0 :=
    (depthOf_before (depthOf_of_isRow isFormula) before).trans level
  have separates : separates (text.reverse ++ before) separator = true := by
    simp [separates, behind, spaced]
  refine ⟨[' ', 'x', ' '] ++ (text.reverse ++ before), ?_, ?_⟩
  · rw [Token.depthOf_append, behind]
    rfl
  · have ends : Ends (' ' :: 'x' :: ' ' :: rest) := rfl
    rw [isWhole_of_isRow isFormula _ _ _ (Int.le_of_eq level.symm) ends, read, splitFrom,
      if_pos separates, List.append_nil, List.reverse_reverse]
    rfl

/-- Otherwise the first part goes on behind the formula. -/
theorem splitFrom_ne
    {others : List Text}
    (isFormula : IsFormula text)
    (solid : Text.startsWith Text.isBlank rest = false)
    (different : Text.startsWith isSeparator rest = false)
    (other : Text.startsWith isStart rest = false)
    (level : Token.depthOf before = 0) :
    splitFrom before [] (Text.pieces readSeparator (text ++ ' ' :: 'x' :: ' ' :: rest)) ≠
      text :: others := by
  have ends : Ends (' ' :: 'x' :: ' ' :: rest) := rfl
  rw [isWhole_of_isRow isFormula _ _ _ (Int.le_of_eq level.symm) ends,
    splitFrom_unseparated solid different other]
  intro same
  obtain ⟨more, further, split⟩ := exists_splitFrom_eq_cons
    (' ' :: 'x' :: ' ' :: (text.reverse ++ before)) (' ' :: 'x' :: ' ' :: (text.reverse ++ []))
    (Text.pieces readSeparator rest)
  have length := congrArg List.length (List.cons.inj (split.symm.trans same)).1
  simp only [List.reverse_cons, List.length_append, List.length_cons, List.length_nil,
    List.reverse_append, List.reverse_reverse] at length
  omega

end Separation

end Dimension

section Formulas

variable {first second third : Text} (firstFormula : IsFormula first)
variable (secondFormula : IsFormula second) (thirdFormula : IsFormula third)
include firstFormula secondFormula thirdFormula

/-- Formulas are split at an x with blanks, if the second and the third one start as a
dimension does. -/
theorem splitDimensions_formulas
    (secondStarts : Text.startsWith Dimension.isStart second = true)
    (thirdStarts : Text.startsWith Dimension.isStart third = true) :
    splitDimensions (first ++ ' ' :: 'x' :: ' ' :: (second ++ ' ' :: 'x' :: ' ' :: third)) =
      [first, second, third] := by
  have restStarts (rest : Text) : Text.startsWith Dimension.isStart (second ++ rest) = true := by
    rwa [Text.IsSpaced.startsWith_append (isPhrase_of_isRow secondFormula).nonempty]
  obtain ⟨_, firstLevel, firstSplit⟩ :=
    @Dimension.exists_splitFrom first _ [] firstFormula (restStarts _) rfl
  obtain ⟨_, secondLevel, secondSplit⟩ :=
    Dimension.exists_splitFrom secondFormula thirdStarts firstLevel
  have last := Dimension.isWhole_of_isRow thirdFormula _ [] []
    (Int.le_of_eq secondLevel.symm) rfl
  rw [List.append_nil, List.append_nil] at last
  rw [splitDimensions, firstSplit, secondSplit, last, Text.pieces, Text.piecesAfter,
    Dimension.splitFrom, List.reverse_reverse]

/-- Formulas with an x and blanks between them are split there exactly if the second and the
third one start with a digit, a dollar sign, a parenthesis or a brace. -/
theorem splitDimensions_formulas_iff :
    splitDimensions (first ++ ' ' :: 'x' :: ' ' :: (second ++ ' ' :: 'x' :: ' ' :: third)) =
      [first, second, third] ↔
      Text.startsWith Dimension.isStart second = true ∧
        Text.startsWith Dimension.isStart third = true := by
  refine ⟨fun split => ?_, fun starts => ?_⟩
  · have secondPhrase := isPhrase_of_isRow secondFormula
    have same (holds : Char → Bool) (rest : Text) :
        Text.startsWith holds (second ++ rest) = Text.startsWith holds second :=
      Text.IsSpaced.startsWith_append secondPhrase.nonempty
    cases secondStarts : Text.startsWith Dimension.isStart second with
    | false =>
        refine absurd split (Dimension.splitFrom_ne firstFormula ?_ ?_ ?_ rfl)
        · exact (same _ _).trans secondPhrase.trimmed.start
        · exact (same _ _).trans (Dimension.startsWith_isSeparator_of_isRow secondFormula)
        · exact (same _ _).trans secondStarts
    | true =>
        obtain ⟨behind, level, found⟩ :=
          @Dimension.exists_splitFrom first _ [] firstFormula ((same _ _).trans secondStarts) rfl
        have rest := (List.cons.inj (found.symm.trans split)).2
        cases thirdStarts : Text.startsWith Dimension.isStart third with
        | false =>
            refine absurd rest (Dimension.splitFrom_ne secondFormula ?_ ?_ thirdStarts level)
            · exact (isPhrase_of_isRow thirdFormula).trimmed.start
            · exact Dimension.startsWith_isSeparator_of_isRow thirdFormula
        | true => exact ⟨rfl, rfl⟩
  · exact splitDimensions_formulas firstFormula secondFormula thirdFormula starts.1 starts.2

end Formulas

/-- A distance as a formula, as in the examples below. -/
theorem isFormula_distance : IsFormula "LEN(0,0,3,4)".toList := by
  have last : IsRow (fun _ => True) 2 "3,4".toList :=
    @IsRow.next _ 1 ['3'] [] [] ['4'] rfl rfl (isFormula_digit '3' (by decide))
      (isFormula_digit '4' (by decide))
  have row : IsRow (fun _ => True) 4 "0,0,3,4".toList :=
    @IsRow.next _ 3 ['0'] [] [] "0,3,4".toList rfl rfl (isFormula_digit '0' (by decide))
      (@IsRow.next _ 2 ['0'] [] [] "3,4".toList rfl rfl (isFormula_digit '0' (by decide)) last)
  exact @IsRow.distance _ ⟨"LEN".toList, rfl⟩ [] "0,0,3,4".toList [] rfl rfl row

/-- A distance is the first dimension, and the others have an x in their names. -/
theorem splitDimensions_distance_first :
    splitDimensions "LEN(0,0,3,4) x $box2 x {a.x2}".toList =
      ["LEN(0,0,3,4)".toList, "$box2".toList, "{a.x2}".toList] := by
  have second : IsFormula "$box2".toList := .operand (.named ⟨"box2".toList, rfl, rfl⟩) trivial
  have third : IsFormula "{a.x2}".toList :=
    .operand (.measured ⟨"a".toList, rfl, rfl⟩ ⟨"x2".toList, by decide, rfl⟩) trivial
  exact (splitDimensions_formulas_iff isFormula_distance second third).mpr ⟨rfl, rfl⟩

/-- A distance that is the second dimension is not split off from the first one. -/
theorem exists_unsplit_formulas :
    ¬ ∀ first second third : Text, IsFormula first → IsFormula second → IsFormula third →
      splitDimensions (first ++ ' ' :: 'x' :: ' ' :: (second ++ ' ' :: 'x' :: ' ' :: third)) =
        [first, second, third] := by
  intro all
  have split := all ['1'] "LEN(0,0,3,4)".toList ['2'] (isFormula_digit '1' (by decide))
    isFormula_distance (isFormula_digit '2' (by decide))
  exact absurd split (by decide)

end Joinery
