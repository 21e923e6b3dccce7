import Mathlib.Data.List.Chain
import Joinery.Proofs.Arithmetic.Machine
import Joinery.Proofs.Arithmetic.Numeral

/-!
# Written arithmetic

The symbols of an expression are written with white space between them. The lexemes of a
text are those of the symbols that are written in it, if no two operands stand side by
side, and a text that has lexemes is always written with symbols.
-/

namespace Joinery
namespace Arithmetic

/-- The character of a sign. -/
def Sign.character : Sign → Char
  | .plus => '+'
  | .minus => '-'

/-- The character of an operator. -/
def Scaling.character : Scaling → Char
  | .times => '*'
  | .over => '/'

namespace Symbol

variable {α : Type}

/-- The characters of a symbol. -/
def text (textOf : α → Text) : Symbol α → Text
  | .operand argument => textOf argument
  | .sign plusOrMinus => [plusOrMinus.character]
  | .scaling timesOrOver => [timesOrOver.character]
  | .opening => ['(']
  | .closing => [')']

/-- Whether a symbol is an operand. -/
def isOperand : Symbol α → Bool
  | .operand _ => true
  | _ => false

/-- Every symbol but an operand is a single character. -/
theorem exists_character
    {symbol : Symbol α}
    (plain : symbol.isOperand = false)
    (textOf : α → Text)
    (valueOf : α → Binary64) :
    ∃ character, symbol.text textOf = [character] ∧
      Lexeme.ofCharacter? character = some (symbol.lexeme valueOf) := by
  cases symbol with
  | operand argument => cases plain
  | sign plusOrMinus => cases plusOrMinus <;> exact ⟨_, rfl, rfl⟩
  | scaling timesOrOver => cases timesOrOver <;> exact ⟨_, rfl, rfl⟩
  | opening => exact ⟨_, rfl, rfl⟩
  | closing => exact ⟨_, rfl, rfl⟩

/-- Every lexeme that is a single character is a symbol. -/
theorem exists_of_ofCharacter?
    {character : Char}
    {lexeme : Lexeme}
    (known : Lexeme.ofCharacter? character = some lexeme)
    (textOf : α → Text)
    (valueOf : α → Binary64) :
    ∃ symbol : Symbol α, symbol.text textOf = [character] ∧ symbol.lexeme valueOf = lexeme := by
  unfold Lexeme.ofCharacter? at known
  split at known
  · cases known
    exact ⟨.sign .plus, rfl, rfl⟩
  · cases known
    exact ⟨.sign .minus, rfl, rfl⟩
  · cases known
    exact ⟨.scaling .times, rfl, rfl⟩
  · cases known
    exact ⟨.scaling .over, rfl, rfl⟩
  · cases known
    exact ⟨.opening, rfl, rfl⟩
  · cases known
    exact ⟨.closing, rfl, rfl⟩
  · cases known

end Symbol

/-- A tree is written as a text: the text has the symbols of the tree, with white space
between them only. -/
def Tree.IsWritten
    {α : Type}
    {level : Level}
    (textOf : α → Text)
    (tree : Tree α level)
    (text : Text) : Prop :=
  Text.IsSpaced (tree.symbols.map (Symbol.text textOf)) text

/-! ## Kinds of characters -/

/-- The characters that are lexemes by themselves. -/
def marks : Text := ['+', '-', '*', '/', '(', ')']

theorem mem_marks
    {character : Char}
    {lexeme : Lexeme}
    (known : Lexeme.ofCharacter? character = some lexeme) :
    character ∈ marks := by
  unfold Lexeme.ofCharacter? at known
  split at known <;> simp_all [marks]

theorem continues_of_mem_marks : ∀ mark ∈ marks, Numeral.continues mark = false :=
  Text.forall_mem_of_all_not (by decide)

theorem isBlank_of_mem_marks : ∀ mark ∈ marks, Text.isBlank mark = false :=
  Text.forall_mem_of_all_not (by decide)

/-- White space is no lexeme. -/
theorem readLexeme_of_isBlank
    {character : Char}
    (blank : Text.isBlank character = true)
    (rest : Text) :
    readLexeme character rest = none := by
  have unmarked : Lexeme.ofCharacter? character = none := by
    cases known : Lexeme.ofCharacter? character with
    | none => rfl
    | some lexeme => simp [isBlank_of_mem_marks _ (mem_marks known)] at blank
  have stops := Numeral.continues_of_isBlank blank
  simp only [Numeral.continues, Bool.or_eq_false_iff, beq_eq_false_iff_ne] at stops
  simp [readLexeme, unmarked, readNumeral, stops]

/-! ## Reading what is written -/

theorem lexemesOfPieces?_append_blanks
    {gap : Text}
    (blank : gap.all Text.isBlank = true)
    (rest : Text) :
    lexemesOfPieces? (Text.pieces readLexeme (gap ++ rest)) =
      lexemesOfPieces? (Text.pieces readLexeme rest) := by
  induction gap with
  | nil => rfl
  | cons character others inductionHypothesis =>
      rw [List.all_cons, Bool.and_eq_true] at blank
      rw [List.cons_append, Text.pieces_of_read_eq_none (readLexeme_of_isBlank blank.1 _),
        lexemesOfPieces?, if_pos blank.1, inductionHypothesis blank.2]

/-- A symbol is read as its lexeme, if it does not go on behind it. -/
theorem lexemesOfPieces?_symbol
    (symbol : Symbol Numeral)
    {rest : Text}
    (stops : symbol.isOperand = true → Text.startsWith Numeral.continues rest = false) :
    lexemesOfPieces? (Text.pieces readLexeme (symbol.text Numeral.text ++ rest)) =
      (lexemesOfPieces? (Text.pieces readLexeme rest)).map
        (symbol.lexeme Numeral.value :: ·) := by
  cases kind : symbol.isOperand with
  | false =>
      obtain ⟨character, text, known⟩ :=
        Symbol.exists_character kind Numeral.text Numeral.value
      have found : readLexeme character rest = some (symbol.lexeme Numeral.value, 0) := by
        simp [readLexeme, known]
      rw [text, List.singleton_append, Text.pieces_of_read_eq_some found]
      rfl
  | true =>
      cases symbol with
      | operand numeral =>
          obtain ⟨first, others, text, read⟩ := numeral.readNumeral_text (stops kind)
          have unmarked : Lexeme.ofCharacter? first = none := by
            cases known : Lexeme.ofCharacter? first with
            | none => rfl
            | some lexeme =>
                have stops := continues_of_mem_marks _ (mem_marks known)
                simp only [Numeral.continues, Bool.or_eq_false_iff,
                  beq_eq_false_iff_ne] at stops
                simp [readNumeral, stops] at read
          have found : readLexeme first (others ++ rest) =
              some (.number numeral.value, others.length) := by
            simp [readLexeme, unmarked, read]
          simp only [Symbol.text, Symbol.lexeme]
          rw [text, List.cons_append, Text.pieces_of_read_eq_some found, List.drop_left]
          rfl
      | sign plusOrMinus => cases kind
      | scaling timesOrOver => cases kind
      | opening => cases kind
      | closing => cases kind

/-- Symbols of which no two operands stand side by side. -/
def AreApart {α : Type} (symbols : List (Symbol α)) : Prop :=
  symbols.IsChain fun first second => first.isOperand = true → second.isOperand = false

/-- The symbols of a tree stay apart from symbols that do not start with an operand. -/
theorem Tree.areApart_append
    {α : Type}
    {level : Level}
    (tree : Tree α level)
    {rest : List (Symbol α)}
    (apart : AreApart rest)
    (plain : ∀ symbol ∈ rest.head?, symbol.isOperand = false) :
    AreApart (tree.symbols ++ rest) := by
  -- A symbol that is no operand may stand in front of everything.
  have cons (symbol : Symbol α) (known : symbol.isOperand = false) (rest : List (Symbol α))
      (apart : AreApart rest) : AreApart (symbol :: rest) := by
    refine List.isChain_cons.mpr ⟨fun _ _ isOperand => ?_, apart⟩
    rw [known] at isOperand
    cases isOperand
  induction tree generalizing rest with
  | operand argument => exact List.isChain_cons.mpr ⟨fun symbol member _ => plain symbol member, apart⟩
  | signed sign inner inductionHypothesis =>
      exact cons _ rfl _ (inductionHypothesis apart plain)
  | enclosed inner inductionHypothesis =>
      rw [symbols, List.cons_append, List.append_assoc]
      refine cons _ rfl _ (inductionHypothesis (cons _ rfl _ apart) ?_)
      intro symbol member
      cases member
      rfl
  | single factor inductionHypothesis => exact inductionHypothesis apart plain
  | scaled before scaling factor beforeHypothesis factorHypothesis =>
      rw [symbols, List.append_assoc, List.cons_append]
      refine beforeHypothesis (cons _ rfl _ (factorHypothesis apart plain)) ?_
      intro symbol member
      cases member
      rfl
  | lone term inductionHypothesis => exact inductionHypothesis apart plain
  | extended before sign term beforeHypothesis termHypothesis =>
      rw [symbols, List.append_assoc, List.cons_append]
      refine beforeHypothesis (cons _ rfl _ (termHypothesis apart plain)) ?_
      intro symbol member
      cases member
      rfl

/-- In a tree no two operands stand side by side. -/
theorem Tree.areApart {α : Type} {level : Level} (tree : Tree α level) :
    AreApart tree.symbols := by
  have apart := tree.areApart_append List.IsChain.nil (by simp)
  rwa [List.append_nil] at apart

/-- Behind an operand nothing goes on: white space ends it, and so does another symbol. -/
theorem startsWith_behind
    {α : Type}
    {textOf : α → Text}
    {holds : Char → Bool}
    (blanks : ∀ character, Text.isBlank character = true → holds character = false)
    (symbolic : marks.all (!holds ·) = true)
    {symbols : List (Symbol α)}
    {gap text : Text}
    (blank : gap.all Text.isBlank = true)
    (spaced : Text.IsSpaced (symbols.map (Symbol.text textOf)) text)
    (plain : ∀ symbol ∈ symbols.head?, symbol.isOperand = false) :
    Text.startsWith holds (gap ++ text) = false := by
  cases gap with
  | cons first others =>
      rw [List.all_cons, Bool.and_eq_true] at blank
      exact blanks first blank.1
  | nil =>
      cases symbols with
      | nil => cases spaced
      | cons symbol rest =>
          obtain ⟨character, written, known⟩ :=
            Symbol.exists_character (plain symbol rfl) textOf fun _ => 0
          have stops := Text.forall_mem_of_all_not symbolic _ (mem_marks known)
          rw [List.map_cons, written] at spaced
          generalize rest.map (Symbol.text textOf) = words at spaced
          cases spaced with
          | last => exact stops
          | next word gap blank spaced => exact stops

/-- The lexemes of a text are those of its symbols, if these are apart. -/
theorem lexemes?_of_isSpaced
    {symbols : List (Symbol Numeral)}
    {text : Text}
    (spaced : Text.IsSpaced (symbols.map (Symbol.text Numeral.text)) text)
    (apart : AreApart symbols) :
    lexemes? text = some (symbols.map (Symbol.lexeme Numeral.value)) := by
  unfold lexemes?
  induction symbols generalizing text with
  | nil => cases spaced
  | cons symbol rest inductionHypothesis =>
      obtain ⟨follows, apart⟩ := List.isChain_cons.mp apart
      rw [List.map_cons] at spaced
      generalize words : rest.map (Symbol.text Numeral.text) = others at spaced
      cases spaced with
      | last =>
          rw [List.map_eq_nil_iff.mp words, List.map_cons, List.map_nil,
            ← List.append_nil (symbol.text Numeral.text),
            lexemesOfPieces?_symbol symbol (fun _ => rfl)]
          rfl
      | next word gap blank spaced =>
          subst words
          rw [lexemesOfPieces?_symbol symbol, lexemesOfPieces?_append_blanks blank,
            inductionHypothesis spaced apart]
          · rfl
          · intro isOperand
            exact startsWith_behind (fun _ => Numeral.continues_of_isBlank) (by decide)
              blank spaced fun symbol member => follows symbol member isOperand

/-- A text with lexemes has symbols with white space around them, or nothing but white
space. -/
theorem exists_symbols_of_lexemesOfPieces?
    {text : Text}
    {lexemes : List Lexeme}
    (found : lexemesOfPieces? (Text.pieces readLexeme text) = some lexemes) :
    ∃ symbols : List (Symbol Numeral), symbols.map (Symbol.lexeme Numeral.value) = lexemes ∧
      ((symbols = [] ∧ text.all Text.isBlank = true) ∨
        ∃ lead core trail, text = lead ++ (core ++ trail) ∧ lead.all Text.isBlank = true ∧
          trail.all Text.isBlank = true ∧
          Text.IsSpaced (symbols.map (Symbol.text Numeral.text)) core) := by
  induction text using Text.pieces_induction readLexeme generalizing lexemes with
  | nil =>
      cases found
      exact ⟨[], rfl, Or.inl ⟨rfl, rfl⟩⟩
  | other character rest unread inductionHypothesis =>
      rw [Text.pieces_of_read_eq_none unread, lexemesOfPieces?] at found
      split at found
      next blank =>
        obtain ⟨symbols, same, none | ⟨lead, core, trail, rfl, leadBlank, spaced⟩⟩ :=
          inductionHypothesis found
        · refine ⟨symbols, same, Or.inl ⟨none.1, ?_⟩⟩
          rw [List.all_cons, blank, none.2, Bool.and_self]
        · refine ⟨symbols, same, Or.inr ⟨character :: lead, core, trail, rfl, ?_, spaced⟩⟩
          rw [List.all_cons, blank, leadBlank, Bool.and_self]
      next => cases found
  | found character rest lexeme count read inductionHypothesis =>
      rw [Text.pieces_of_read_eq_some read, lexemesOfPieces?, Option.map_eq_some_iff] at found
      obtain ⟨lexemes, found, rfl⟩ := found
      -- The piece is a symbol, and the text goes on behind it.
      obtain ⟨symbol, written, same⟩ : ∃ symbol : Symbol Numeral,
          symbol.text Numeral.text = character :: rest.take count ∧
            symbol.lexeme Numeral.value = lexeme := by
        unfold readLexeme at read
        split at read
        next known =>
          cases read
          exact Symbol.exists_of_ofCharacter? known Numeral.text Numeral.value
        next =>
          obtain ⟨⟨value, length⟩, read, same⟩ := Option.map_eq_some_iff.mp read
          cases same
          obtain ⟨numeral, text, value⟩ := Numeral.exists_of_readNumeral read
          exact ⟨.operand numeral, text, congrArg Lexeme.number value⟩
      have whole : character :: rest = symbol.text Numeral.text ++ rest.drop count := by
        rw [written, List.cons_append, List.take_append_drop]
      obtain ⟨symbols, others, none | ⟨lead, core, trail, behind, leadBlank, trailBlank,
        spaced⟩⟩ := inductionHypothesis found
      · obtain ⟨rfl, blank⟩ := none
        refine ⟨[symbol], by rw [← same, ← others]; rfl, Or.inr ⟨[], _, rest.drop count,
          whole, rfl, blank, .last _⟩⟩
      · refine ⟨symbol :: symbols, by rw [← same, ← others]; rfl, Or.inr ⟨[], _, trail, ?_, rfl,
          trailBlank, .next _ lead leadBlank spaced⟩⟩
        rw [whole, behind]
        simp only [List.append_assoc, List.nil_append]

/-- A trimmed text with lexemes is written with symbols. -/
theorem exists_symbols_of_lexemes?
    {text : Text}
    {lexemes : List Lexeme}
    (trimmed : Text.IsTrimmed text)
    (nonempty : text ≠ [])
    (found : lexemes? text = some lexemes) :
    ∃ symbols : List (Symbol Numeral), symbols.map (Symbol.lexeme Numeral.value) = lexemes ∧
      Text.IsSpaced (symbols.map (Symbol.text Numeral.text)) text := by
  obtain ⟨symbols, same, none | ⟨lead, core, trail, rfl, leadBlank, trailBlank, spaced⟩⟩ :=
    exists_symbols_of_lexemesOfPieces? found
  · have empty := Text.startsWith_of_all none.2 (by rw [List.append_nil]; exact trimmed.start)
    exact absurd empty nonempty
  · obtain ⟨rfl, rfl⟩ := trimmed.eq_nil leadBlank trailBlank
    refine ⟨symbols, same, ?_⟩
    rwa [List.nil_append, List.append_nil]

end Arithmetic
end Joinery
