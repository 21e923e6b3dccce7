import Joinery.Options
import Joinery.Proofs.Expression.Formula
import Joinery.Proofs.Text.Blank

/-!
# Cuts

A cut is a side and the word behind it. So a formula is the length of a cut as a whole if no
white space stands in it, and of any other formula only the first word is. What stands behind
that word counts only where a variable has the name of a side: there a further cut is read.
-/

namespace Joinery

open Arithmetic Expression

theorem Side.isWord_name (side : Side) :
    side.name.toList ≠ [] ∧ side.name.toList.all Text.isAsciiWordCharacter = true := by
  cases side <;> decide

namespace Options

/-! ## Characters of words -/

theorem isWordCharacter_of_isAsciiWordCharacter
    {character : Char}
    (isWord : Text.isAsciiWordCharacter character = true) :
    Text.isWordCharacter character = true := by
  have ranges : [(0x30, 0x39), (0x41, 0x5a), (0x61, 0x7a)] <+: Text.alphanumericRanges :=
    ⟨_, rfl⟩
  have inTable (range : Nat × Nat) (known : range ∈ [(0x30, 0x39), (0x41, 0x5a), (0x61, 0x7a)])
      (inside : range.1 ≤ character.toNat ∧ character.toNat ≤ range.2) :
      Text.isWordCharacter character = true := by
    refine Bool.or_eq_true_iff.mpr (Or.inr (List.any_eq_true.mpr ⟨range, ranges.subset known, ?_⟩))
    simpa using inside
  rcases Token.toNat_of_isAsciiWordCharacter isWord with digit | capital | line | small
  · exact inTable (0x30, 0x39) (by decide) digit
  · exact inTable (0x41, 0x5a) (by decide) capital
  · rw [← Char.ofNat_toNat character, line]
    rfl
  · exact inTable (0x61, 0x7a) (by decide) small

/-- All digits of a script belong to words. -/
theorem isWordCharacter_of_isDigit
    {character : Char}
    (isDigit : Text.isDigit character = true) :
    Text.isWordCharacter character = true := by
  have within : Text.zeroDigits.all (fun start => Text.alphanumericRanges.any fun range =>
      range.1.ble start && (start + 9).ble range.2) = true := by
    decide +kernel
  obtain ⟨start, known, found⟩ := Text.exists_zeroDigit isDigit
  obtain ⟨range, member, inside⟩ := List.any_eq_true.mp (List.all_eq_true.mp within start known)
  refine Bool.or_eq_true_iff.mpr (Or.inr (List.any_eq_true.mpr ⟨range, member, ?_⟩))
  simp only [Bool.and_eq_true, Nat.ble_eq, decide_eq_true_eq] at inside ⊢
  omega

theorem isWordCharacter_of_mem_marks {mark : Char} (isMark : mark ∈ ',' :: marks) :
    Text.isWordCharacter mark = false :=
  Text.forall_mem_of_all_not (by decide +kernel) mark isMark

/-! ## Reading a cut -/

theorem matchesName_map_toLower (word : Text) :
    matchesName (word.map Char.toLower) word = true := by
  induction word with
  | nil => rfl
  | cons first others inductionHypothesis =>
      simp [matchesName, matchesLetter, inductionHypothesis]

/-- A side and a length behind a blank are read as a cut. -/
theorem readCut_append
    {side : Side}
    (spelling : Text.Spelling side.name.toList)
    {length rest : Text}
    (nonempty : length ≠ [])
    (solid : ∀ character ∈ length, Text.isBlank character = false)
    (stops : Text.startsWith (!Text.isBlank ·) rest = false) :
    ∃ first others, spelling.text = first :: others ∧
      readCut first (others ++ ' ' :: (length ++ rest)) =
        some (.cut (some side) length, (others ++ ' ' :: length).length) := by
  have sideIsWord := side.isWord_name
  have isWord := spelling.all_isAsciiWordCharacter sideIsWord.2
  have lower := spelling.lower_text sideIsWord.2
  have named : Side.all.any (matchesName ·.name.toList spelling.text) = true := by
    refine List.any_eq_true.mpr ⟨side, by cases side <;> decide, ?_⟩
    have matchesItself := matchesName_map_toLower spelling.text
    rwa [spelling.spells] at matchesItself
  have found : Side.all.find? (fun other => other.name.toList = Text.lower spelling.text) =
      some side := by
    rw [lower]
    cases side <;> rfl
  cases text : spelling.text with
  | nil => exact absurd text (spelling.text_ne_nil sideIsWord.1)
  | cons first others =>
      refine ⟨first, others, rfl, ?_⟩
      rw [text] at isWord named found
      rw [List.all_cons, Bool.and_eq_true] at isWord
      have areWordCharacters : others.all Text.isWordCharacter = true :=
        List.all_eq_true.mpr fun character member =>
          isWordCharacter_of_isAsciiWordCharacter (List.all_eq_true.mp isWord.2 character member)
      have blankEnds : Text.startsWith Text.isWordCharacter (' ' :: (length ++ rest)) = false := by
        rw [Text.startsWith_cons]
        exact Text.isWordCharacter_of_isBlank (by decide)
      have word := Text.takeWhile_append_eq areWordCharacters blankEnds
      have lengthStarts : Text.startsWith Text.isBlank (length ++ rest) = false := by
        rw [Text.IsSpaced.startsWith_append nonempty]
        exact Text.startsWith_of_forall solid
      have blanks : (' ' :: (length ++ rest)).takeWhile Text.isBlank = [' '] :=
        @Text.takeWhile_append_eq Text.isBlank [' '] _ rfl lengthStarts
      have taken : (length ++ rest).takeWhile (!Text.isBlank ·) = length := by
        refine Text.takeWhile_append_eq ?_ stops
        simpa using solid
      unfold readCut
      simp only [word, List.length_cons, Nat.add_sub_cancel, List.drop_left, blanks]
      have behind : (others ++ ' ' :: (length ++ rest)).drop (others.length + 1) =
          length ++ rest := by
        rw [← List.drop_drop, List.drop_left]
        rfl
      simp only [List.length_nil, Nat.zero_add, behind, taken, found, named,
        isWordCharacter_of_isAsciiWordCharacter isWord.1, Bool.not_true, Bool.false_eq_true,
        if_false]
      rw [if_pos ⟨List.cons_ne_nil _ _, nonempty, trivial⟩, List.length_append, List.length_cons,
        Nat.add_assoc, Nat.add_comm 1]

/-- A single cut is found in front of what is found behind it. -/
theorem found_readCut_append
    {side : Side}
    (spelling : Text.Spelling side.name.toList)
    {length rest : Text}
    (nonempty : length ≠ [])
    (solid : ∀ character ∈ length, Text.isBlank character = false)
    (stops : Text.startsWith (!Text.isBlank ·) rest = false) :
    Text.found readCut (spelling.text ++ ' ' :: (length ++ rest)) =
      .cut (some side) length :: Text.found readCut rest := by
  obtain ⟨first, others, text, read⟩ := readCut_append spelling nonempty solid stops
  have whole : first :: others ++ ' ' :: (length ++ rest) =
      first :: (others ++ ' ' :: length) ++ rest := by
    simp
  have known : readCut first (others ++ ' ' :: length ++ rest) =
      some (.cut (some side) length, (others ++ ' ' :: length).length) := by
    rw [List.append_assoc]
    exact read
  rw [text, whole, Text.found_of_read_eq_some known]

theorem found_readCut_cons
    {character : Char}
    (notWord : Text.isWordCharacter character = false)
    (rest : Text) :
    Text.found readCut (character :: rest) = Text.found readCut rest :=
  Text.found_of_read_eq_none (by simp [readCut, notWord])

/-- Whether a word is read as a side if white space and a length come behind it. -/
def looksLikeSide (word : Text) : Bool := Side.all.any (matchesName ·.name.toList word)

/-- A word is no cut, if it does not look like a side or no white space comes behind it. -/
theorem found_readCut_word
    {word rest : Text}
    (nonempty : word ≠ [])
    (isWord : word.all Text.isWordCharacter = true)
    (stops : Text.startsWith Text.isWordCharacter rest = false)
    (other : looksLikeSide word = false ∨ Text.startsWith Text.isBlank rest = false) :
    Text.found readCut (word ++ rest) = .unrelated :: Text.found readCut rest := by
  cases word with
  | nil => exact absurd rfl nonempty
  | cons first others =>
      rw [List.all_cons, Bool.and_eq_true] at isWord
      refine Text.found_of_read_eq_some ?_
      have taken := Text.takeWhile_append_eq isWord.2 stops
      unfold readCut
      simp only [taken, List.length_cons, Nat.add_sub_cancel, List.drop_left, isWord.1,
        Bool.not_true, Bool.false_eq_true, if_false]
      rw [if_neg]
      rintro ⟨gap, -, named⟩
      rcases other with different | solid
      · rw [looksLikeSide, named] at different
        cases different
      · exact gap (Text.takeWhile_eq_nil solid)

/-! ## Texts without cuts -/

/-- No word of a text is a cut. -/
def HasNoCut (text : Text) : Prop := ∀ word ∈ Text.found readCut text, word = .unrelated

theorem hasNoCut_nil : HasNoCut [] := fun _ member => absurd member List.not_mem_nil

/-- A text is passed if no cut is found in it, whatever follows but a word. -/
def IsPassed (text : Text) : Prop :=
  ∀ rest, Text.startsWith Text.isWordCharacter rest = false → HasNoCut rest →
    HasNoCut (text ++ rest)

namespace IsPassed

variable {text : Text}

theorem nil : IsPassed [] := fun _ _ quiet => quiet

/-- A character of no word in front of a text is passed. -/
theorem cons
    (passed : IsPassed text)
    {character : Char}
    (notWord : Text.isWordCharacter character = false) :
    IsPassed (character :: text) := by
  intro rest stops quiet
  rw [List.cons_append, HasNoCut, found_readCut_cons notWord]
  exact passed rest stops quiet

/-- White space in front of a text is passed. -/
theorem blanks_append
    (passed : IsPassed text)
    {gap : Text}
    (blank : gap.all Text.isBlank = true) :
    IsPassed (gap ++ text) := by
  induction gap with
  | nil => exact passed
  | cons first others inductionHypothesis =>
      rw [List.all_cons, Bool.and_eq_true] at blank
      exact (inductionHypothesis blank.2).cons (Text.isWordCharacter_of_isBlank blank.1)

/-- Two texts with white space and a character of no word between them are passed. -/
theorem append_cons
    {other gap : Text}
    (passed : IsPassed text)
    (blank : gap.all Text.isBlank = true)
    {mark : Char}
    (notWord : Text.isWordCharacter mark = false)
    (otherPassed : IsPassed other) :
    IsPassed (text ++ (gap ++ mark :: other)) := by
  intro rest stops quiet
  have apart : Text.startsWith Text.isWordCharacter (gap ++ mark :: (other ++ rest)) = false := by
    refine Text.startsWith_append_eq_false (Text.startsWith_of_forall ?_) notWord
    exact fun character member =>
      Text.isWordCharacter_of_isBlank (List.all_eq_true.mp blank character member)
  rw [List.append_assoc, List.append_assoc]
  refine passed _ apart ?_
  have behind := (otherPassed.cons notWord).blanks_append blank rest stops quiet
  rwa [List.append_assoc] at behind

/-- A word that does not look like a side is passed. -/
theorem word
    (isWord : text.all Text.isWordCharacter = true)
    (different : looksLikeSide text = false) :
    IsPassed text := by
  by_cases empty : text = []
  · rw [empty]
    exact nil
  · intro rest stops quiet
    rw [HasNoCut, found_readCut_word empty isWord stops (Or.inl different)]
    exact List.forall_mem_cons.mpr ⟨rfl, quiet⟩

/-- Any word is passed in front of a character that is neither white space nor of a word. -/
theorem word_cons
    {word : Text}
    (isWord : word.all Text.isWordCharacter = true)
    {character : Char}
    (solid : Text.isBlank character = false)
    (notWord : Text.isWordCharacter character = false)
    (passed : IsPassed text) :
    IsPassed (word ++ character :: text) := by
  by_cases empty : word = []
  · rw [empty]
    exact passed.cons notWord
  · intro rest stops quiet
    have found := @found_readCut_word word (character :: (text ++ rest)) empty isWord notWord
      (Or.inr solid)
    rw [List.append_assoc, List.cons_append, HasNoCut, found]
    exact List.forall_mem_cons.mpr ⟨rfl, passed.cons notWord rest stops quiet⟩

end IsPassed

/-! ## Formulas without cuts -/

/-- Digits do not look like a side. -/
theorem looksLikeSide_of_isDigit
    {word : Text}
    (digits : word.all Text.isDigit = true) :
    looksLikeSide word = false := by
  cases word with
  | nil => rfl
  | cons first others =>
      have isDigit := (Bool.and_eq_true_iff.mp digits).1
      have different (letter : Char) (isLetter : letter ∈ ['l', 'r', 't', 'b']) :
          (first == letter) = false := by
        have none : ['l', 'r', 't', 'b'].all (!Text.isDigit ·) = true := by decide
        rw [beq_eq_false_iff_ne]
        rintro rfl
        rw [Text.forall_mem_of_all_not none first isLetter] at isDigit
        cases isDigit
      simp [looksLikeSide, Side.all, Side.name, matchesName, matchesLetter,
        Text.toLower_of_isDigit isDigit, different]

/-- A word of ASCII that looks like a name is spelled like it. -/
theorem map_toLower_of_matchesName
    {name word : Text}
    (isWord : word.all Text.isAsciiWordCharacter = true)
    (named : matchesName name word = true) :
    word.map Char.toLower = name := by
  induction name generalizing word with
  | nil =>
      cases word with
      | nil => rfl
      | cons first others => cases named
  | cons letter name inductionHypothesis =>
      cases word with
      | nil => cases named
      | cons first others =>
          rw [List.all_cons, Bool.and_eq_true] at isWord
          rw [matchesName, Bool.and_eq_true, matchesLetter] at named
          have dotted : (first == 'İ' || first == 'ı') = false := by
            rw [Bool.or_eq_false_iff, beq_eq_false_iff_ne, beq_eq_false_iff_ne]
            constructor <;>
              rintro rfl <;> exact absurd isWord.1 (by decide)
          rw [dotted, Bool.and_false, Bool.or_false, beq_iff_eq] at named
          rw [List.map_cons, named.1, inductionHypothesis isWord.2 named.2]

/-- A word of ASCII looks like a side only if it is spelled like one. -/
theorem looksLikeSide_eq_false
    {word : Text}
    (isWord : word.all Text.isAsciiWordCharacter = true)
    (different : ∀ side : Side, word.map Char.toLower ≠ side.name.toList) :
    looksLikeSide word = false := by
  rw [looksLikeSide, List.any_eq_false]
  exact fun side _ named => different side (map_toLower_of_matchesName isWord named)

/-- An operand that is no variable with the name of a side. -/
def IsNoSide (operand : Operand) : Prop :=
  ∀ name, operand = .named name → ∀ side : Side, name.text.map Char.toLower ≠ side.name.toList

theorem all_isWordCharacter
    {word : Text}
    (isWord : word.all Text.isAsciiWordCharacter = true) :
    word.all Text.isWordCharacter = true :=
  List.all_eq_true.mpr fun character member =>
    isWordCharacter_of_isAsciiWordCharacter (List.all_eq_true.mp isWord character member)

theorem isPassed_digits {digits : Text} (areDigits : digits.all Text.isDigit = true) :
    IsPassed digits := by
  refine IsPassed.word ?_ (looksLikeSide_of_isDigit areDigits)
  exact List.all_eq_true.mpr fun character member =>
    isWordCharacter_of_isDigit (List.all_eq_true.mp areDigits character member)

theorem isPassed_operand
    {operand : Operand}
    (other : IsNoSide operand) :
    IsPassed operand.text := by
  have point : Text.isWordCharacter '.' = false := by decide +kernel
  cases operand with
  | literal numeral =>
      have whole := isPassed_digits numeral.wholeDigits
      rw [Operand.text, Numeral.text]
      cases known : numeral.fraction with
      | none => rwa [Numeral.pointText, List.append_nil]
      | some digits =>
          have fractionDigits := numeral.fractionDigits
          rw [known] at fractionDigits
          exact @IsPassed.append_cons _ _ [] whole rfl '.' point (isPassed_digits fractionDigits)
  | named name =>
      refine IsPassed.cons (IsPassed.word (all_isWordCharacter name.continues) ?_) ?_
      · exact looksLikeSide_eq_false name.continues (other name rfl)
      · decide +kernel
  | measured id name =>
      have closing : IsPassed ['}'] := IsPassed.nil.cons (by decide +kernel)
      have property : IsPassed (name.text ++ ['}']) :=
        IsPassed.nil.word_cons (all_isWordCharacter name.isWord) (by decide) (by decide +kernel)
      exact (property.word_cons (all_isWordCharacter id.continues) (by decide) point).cons
        (by decide +kernel)

/-- No cut is found in a formula, if none of its variables has the name of a side. -/
theorem isPassed_of_isRow
    {count : Nat}
    {text : Text}
    (row : IsRow IsNoSide count text) :
    IsPassed text := by
  have mark {character : Char} (isMark : character ∈ ',' :: marks) :=
    isWordCharacter_of_mem_marks isMark
  have enclosed {gap inner trail : Text} (blank : gap.all Text.isBlank = true)
      (trailBlank : trail.all Text.isBlank = true) (passed : IsPassed inner) :
      IsPassed (gap ++ (inner ++ (trail ++ [')']))) :=
    (passed.append_cons trailBlank (mark (by decide)) IsPassed.nil).blanks_append blank
  induction row with
  | operand argument allowed => exact isPassed_operand allowed
  | signed sign blank _ passed =>
      have isMark := mem_marks_of_mem_operators sign.character_mem_operators
      exact (passed.blanks_append blank).cons (mark (List.mem_cons_of_mem _ isMark))
  | enclosed blank trailBlank _ passed =>
      exact (enclosed blank trailBlank passed).cons (mark (by decide))
  | combined isOperator blank trailBlank _ _ leftPassed rightPassed =>
      have isMark := mem_marks_of_mem_operators isOperator
      exact leftPassed.append_cons blank (mark (List.mem_cons_of_mem _ isMark))
        (rightPassed.blanks_append trailBlank)
  | distance name blank trailBlank _ passed =>
      have isWord := isWord_distance name
      have namePassed : IsPassed name.text := by
        refine IsPassed.word (all_isWordCharacter isWord) (looksLikeSide_eq_false isWord ?_)
        rw [name.spells]
        exact fun side => by cases side <;> decide
      exact @IsPassed.append_cons _ _ [] namePassed rfl '(' (mark (by decide))
        (enclosed blank trailBlank passed)
  | next blank trailBlank _ _ firstPassed restPassed =>
      exact firstPassed.append_cons blank (mark List.mem_cons_self)
        (restPassed.blanks_append trailBlank)

/-! ## Formulas as lengths -/

theorem count_of_readCut_eq_unrelated
    {character : Char}
    {rest : Text}
    {count : Nat}
    (read : readCut character rest = some (.unrelated, count)) :
    count = (rest.takeWhile Text.isWordCharacter).length := by
  unfold readCut at read
  dsimp only at read
  split at read
  · cases read
  · split at read
    · cases read
    · cases read
      rfl

/-- Where no word of a text is a cut, none is one behind a place between words. -/
theorem HasNoCut.of_append
    {first rest : Text}
    (quiet : HasNoCut (first ++ rest))
    (stops : Text.startsWith Text.isWordCharacter rest = false) :
    HasNoCut rest := by
  generalize whole : first ++ rest = text at quiet
  induction text using Text.pieces_induction readCut generalizing first with
  | nil =>
      obtain ⟨-, rfl⟩ := List.append_eq_nil_iff.mp whole
      exact quiet
  | other character others unread inductionHypothesis =>
      rw [HasNoCut, Text.found_of_read_eq_none unread] at quiet
      cases first with
      | nil =>
          rw [List.nil_append] at whole
          rwa [whole, HasNoCut, Text.found_of_read_eq_none unread]
      | cons front more =>
          obtain ⟨rfl, rfl⟩ := List.cons.inj whole
          exact inductionHypothesis rfl quiet
  | found character others value count read inductionHypothesis =>
      have found : Text.found readCut (character :: others) =
          value :: Text.found readCut (others.drop count) := by
        rw [Text.found, Text.pieces_of_read_eq_some read]
        rfl
      rw [HasNoCut, found] at quiet
      cases first with
      | nil =>
          rw [List.nil_append] at whole
          rwa [whole, HasNoCut, found]
      | cons front more =>
          obtain ⟨rfl, rfl⟩ := List.cons.inj whole
          obtain ⟨rfl, behind⟩ := List.forall_mem_cons.mp quiet
          -- The word that is read ends in front of the place.
          have within : count ≤ more.length := by
            rw [count_of_readCut_eq_unrelated read]
            exact Text.length_takeWhile_append_le stops more
          exact inductionHypothesis (List.drop_append_of_le_length within).symm behind

theorem readLengths_of_forall
    {scope : Scope}
    {words : List CutWord}
    (quiet : ∀ word ∈ words, word = .unrelated) :
    readLengths scope words = .ok [] := by
  induction words with
  | nil => rfl
  | cons word others inductionHypothesis =>
      obtain ⟨rfl, rest⟩ := List.forall_mem_cons.mp quiet
      exact inductionHypothesis rest

/-- A word behind a side is its length, if there are no other cuts. -/
theorem readCuts_append
    {scope : Scope}
    {side : Side}
    (spelling : Text.Spelling side.name.toList)
    {length rest : Text}
    (nonempty : length ≠ [])
    (solid : ∀ character ∈ length, Text.isBlank character = false)
    (stops : Text.startsWith (!Text.isBlank ·) rest = false)
    (quiet : HasNoCut rest) :
    readCuts scope (spelling.text ++ ' ' :: (length ++ rest)) =
      (evaluate scope length).map (Cuts.none.set · side) := by
  rw [readCuts, found_readCut_append spelling nonempty solid stops, readLengths,
    readLengths_of_forall quiet]
  cases evaluate scope length <;> rfl

/-- The cut of a side in front of a formula. If the formula has no white space, all of it is
evaluated as the length. Otherwise only its first word is, and the rest is not looked at, as
long as none of its variables has the name of a side. -/
theorem readCuts_formula
    (scope : Scope)
    {side : Side}
    (spelling : Text.Spelling side.name.toList)
    (text : Text) :
    (IsFormula text → (∀ character ∈ text, Text.isBlank character = false) →
      readCuts scope (spelling.text ++ ' ' :: text) =
        (evaluate scope text).map (Cuts.none.set · side)) ∧
    (IsRow IsNoSide 1 text →
      readCuts scope (spelling.text ++ ' ' :: text) =
        (evaluate scope (text.takeWhile (!Text.isBlank ·))).map (Cuts.none.set · side)) := by
  refine ⟨fun formula solid => ?_, fun row => ?_⟩
  · have cut := @readCuts_append scope side spelling text [] (isPhrase_of_isRow formula).nonempty
      solid rfl hasNoCut_nil
    rwa [List.append_nil] at cut
  · have phrase := isPhrase_of_isRow row
    have quiet : HasNoCut text := by
      have alone := isPassed_of_isRow row [] rfl hasNoCut_nil
      rwa [List.append_nil] at alone
    obtain ⟨word, rest, rfl, solid, stops⟩ := Text.exists_append_of_all (!Text.isBlank ·) text
    -- The first word is not empty, and what stands behind it starts with white space.
    have nonempty : word ≠ [] := by
      rintro rfl
      cases rest with
      | nil => exact phrase.nonempty rfl
      | cons first others =>
          have blank : Text.isBlank first = false := phrase.trimmed.start
          rw [Text.startsWith_cons, blank] at stops
          cases stops
    have apart : Text.startsWith Text.isWordCharacter rest = false := by
      cases rest with
      | nil => rfl
      | cons first others =>
          rw [Text.startsWith_cons, Bool.not_eq_false'] at stops
          exact Text.isWordCharacter_of_isBlank stops
    rw [Text.takeWhile_append_eq solid stops]
    exact readCuts_append spelling nonempty (by simpa using solid) stops (quiet.of_append apart)

/-- The scope of a new session, in which nothing has a value. -/
def emptyScope : Scope := ⟨fun _ => none, fun _ => none⟩

/-- A formula in parentheses is the length of a cut. -/
theorem readCuts_enclosed :
    readCuts emptyScope ("TOP".toList ++ ' ' :: "(1+2)*3".toList) =
      .ok (Cuts.none.set 9 .top) := by
  have sum : IsFormula "1+2".toList :=
    @IsRow.combined _ '+' (by decide) ['1'] [] [] ['2'] rfl rfl
      (isFormula_digit '1' (by decide)) (isFormula_digit '2' (by decide))
  have formula : IsFormula "(1+2)*3".toList :=
    @IsRow.combined _ '*' (by decide) "(1+2)".toList [] [] ['3'] rfl rfl
      (@IsRow.enclosed _ [] "1+2".toList [] rfl rfl sum) (isFormula_digit '3' (by decide))
  have solid : ∀ character ∈ "(1+2)*3".toList, Text.isBlank character = false :=
    Text.forall_mem_of_all_not (by decide)
  have cut :=
    (@readCuts_formula emptyScope .top ⟨"TOP".toList, rfl⟩ "(1+2)*3".toList).1 formula solid
  have value : evaluate emptyScope "(1+2)*3".toList = .ok 9 := by decide +kernel
  rw [cut, value]
  rfl

/-- Of a sum with blanks, only the first term is the length of a cut. -/
theorem exists_formula_cut_short :
    ¬ ∀ (scope : Scope) (side : Side) (text : Text) (value : Binary64), IsFormula text →
      evaluate scope text = .ok value →
      readCuts scope (side.name.toList ++ ' ' :: text) = .ok (Cuts.none.set value side) := by
  intro all
  have sum : IsFormula "1 + 2".toList :=
    @IsRow.combined _ '+' (by decide) ['1'] [' '] [' '] ['2'] rfl rfl
      (isFormula_digit '1' (by decide)) (isFormula_digit '2' (by decide))
  have whole : evaluate emptyScope "1 + 2".toList = .ok 3 := by decide +kernel
  have short : readCuts emptyScope "left 1 + 2".toList = .ok (Cuts.none.set 1 .left) := by
    decide +kernel
  have same := short.symm.trans (all emptyScope .left "1 + 2".toList 3 sum whole)
  exact absurd same (by decide +kernel)

end Options
end Joinery
