import Joinery.Problem
import Joinery.Proofs.Arithmetic.Writing

/-!
# The grammar of arithmetic

A text of plain arithmetic has a rounded value exactly if it is written by a syntax tree
that is not nested too deeply, whose divisors are not zero, and whose value is finite and
can be rounded.
-/

namespace Joinery
namespace Arithmetic

/-! ## Characters of expressions -/

/-- A character that stands in a symbol. -/
def IsInSymbol (character : Char) : Prop :=
  Numeral.continues character = true ∨ character ∈ marks

theorem isInSymbol_of_mem (symbol : Symbol Numeral) :
    ∀ character ∈ symbol.text Numeral.text, IsInSymbol character := by
  intro character member
  cases kind : symbol.isOperand with
  | false =>
      obtain ⟨mark, text, known⟩ :=
        Symbol.exists_character kind Numeral.text Numeral.value
      rw [text, List.mem_singleton] at member
      rw [member]
      exact Or.inr (mem_marks known)
  | true =>
      cases symbol with
      | operand numeral => exact Or.inl (numeral.continues_of_mem character member)
      | sign plusOrMinus => cases kind
      | scaling timesOrOver => cases kind
      | opening => cases kind
      | closing => cases kind

theorem isBlank_of_isInSymbol
    {character : Char}
    (inside : IsInSymbol character) :
    Text.isBlank character = false := by
  rw [← Bool.not_eq_true]
  intro blank
  rcases inside with continues | isMark
  · rw [Numeral.continues_of_isBlank blank] at continues
    cases continues
  · rw [isBlank_of_mem_marks character isMark] at blank
    cases blank

theorem isAllowed_of_isInSymbol
    {character : Char}
    (inside : IsInSymbol character) :
    isAllowed character = true := by
  rcases inside with continues | isMark
  · simp only [Numeral.continues, Bool.or_eq_true, beq_iff_eq] at continues
    rcases continues with isDigit | rfl
    · simp [isAllowed, isDigit]
    · rfl
  · have all : marks.all isAllowed = true := by decide
    exact List.all_eq_true.mp all character isMark

/-- Symbols of expressions are words. -/
theorem isWord_of_mem
    {symbols : List (Symbol Numeral)}
    {word : Text}
    (member : word ∈ symbols.map (Symbol.text Numeral.text)) :
    Text.IsSpaced.IsWord word := by
  obtain ⟨symbol, -, rfl⟩ := List.mem_map.mp member
  refine ⟨?_, fun character inside => isBlank_of_isInSymbol (isInSymbol_of_mem symbol _ inside)⟩
  cases symbol with
  | operand numeral => exact numeral.text_ne_nil
  | sign plusOrMinus => simp [Symbol.text]
  | scaling timesOrOver => simp [Symbol.text]
  | opening => simp [Symbol.text]
  | closing => simp [Symbol.text]

/-- A text that is written with symbols can be read. -/
theorem isAllowed_of_isSpaced
    {symbols : List (Symbol Numeral)}
    {text : Text}
    (spaced : Text.IsSpaced (symbols.map (Symbol.text Numeral.text)) text) :
    text ≠ [] ∧ text.all isAllowed = true := by
  refine ⟨spaced.ne_nil fun word member => isWord_of_mem member, List.all_eq_true.mpr ?_⟩
  refine spaced.forall_mem (fun character blank => by simp [isAllowed, blank]) ?_
  intro word member character inside
  obtain ⟨symbol, -, rfl⟩ := List.mem_map.mp member
  exact isAllowed_of_isInSymbol (isInSymbol_of_mem symbol character inside)

/-- Arithmetic with a value has only the characters that are allowed, and at least one. -/
theorem isAllowed_of_evaluateArithmetic
    {text : Text}
    {value : Binary64}
    (evaluated : evaluateArithmetic text = .ok value) :
    text ≠ [] ∧ ∀ character ∈ text, isAllowed character = true := by
  obtain ⟨raw, known, -⟩ := bind_eq_ok.mp (mapError_eq_ok.mp evaluated)
  unfold rawValue at known
  split at known
  · cases known
  next readable =>
    rw [not_or] at readable
    have allowed : (Text.strip text).all isAllowed = true := by simpa using readable.2
    have blankAllowed (gap : Text) (blank : gap.all Text.isBlank = true) :
        ∀ character ∈ gap, isAllowed character = true := by
      intro character member
      simp [isAllowed, List.all_eq_true.mp blank character member]
    obtain ⟨lead, trail, whole, leadBlank, trailBlank⟩ := Text.exists_strip_append text
    refine ⟨?_, fun character member => ?_⟩
    · rintro rfl
      exact readable.1 rfl
    · rw [whole, List.mem_append, List.mem_append] at member
      rcases member with inLead | inside | inTrail
      · exact blankAllowed lead leadBlank character inLead
      · exact List.all_eq_true.mp allowed character inside
      · exact blankAllowed trail trailBlank character inTrail

/-! ## Values of texts -/

/-- A text that a tree is written as has what evaluation of the tree gives. -/
theorem rawValue_of_isWritten
    {tree : Tree Numeral .sum}
    {text : Text}
    (written : tree.IsWritten Numeral.text text) :
    rawValue text = (tree.evaluate Numeral.value 0).mapError Fault.refusal := by
  obtain ⟨nonempty, allowed⟩ := isAllowed_of_isSpaced written
  rw [rawValue, if_neg (by simp [nonempty, allowed]), lexemes?_of_isSpaced written tree.areApart]
  exact congrArg (Except.mapError Fault.refusal) (value_lexemes Numeral.value tree)

/-- A trimmed text has the value of a tree that it is written by. -/
theorem rawValue_eq_ok_iff
    {text : Text}
    (trimmed : Text.IsTrimmed text)
    (raw : Binary64) :
    rawValue text = .ok raw ↔
      ∃ tree : Tree Numeral .sum, tree.IsWritten Numeral.text text ∧
        tree.nesting (fun _ => 0) ≤ nestingLimit ∧ tree.value Numeral.value = some raw := by
  constructor
  · intro found
    unfold rawValue at found
    split at found
    next => cases found
    next readable =>
      rw [not_or] at readable
      split at found
      next => cases found
      next lexemes read =>
        obtain ⟨symbols, rfl, spaced⟩ :=
          exists_symbols_of_lexemes? trimmed readable.1 read
        obtain ⟨tree, rfl, fits, known⟩ :=
          (value_map_lexeme_eq_ok_iff _ _ _).mp (mapError_eq_ok.mp found)
        exact ⟨tree, spaced, fits, known⟩
  · rintro ⟨tree, written, fits, known⟩
    rw [rawValue_of_isWritten written, mapError_eq_ok,
      Tree.evaluate_eq_ok_iff Numeral.value tree (Nat.zero_le _), Nat.zero_add]
    exact ⟨fits, known⟩

theorem rounded_eq_ok_iff (raw value : Binary64) :
    rounded raw = .ok value ↔ raw.isFinite = true ∧ raw.roundThousandths = .ok value := by
  unfold rounded
  split
  next finite => rw [mapError_eq_ok, and_iff_right finite]
  next missing => simp [missing]

/-- Plain arithmetic is refused only as arithmetic. -/
theorem exists_refusal_of_evaluateArithmetic
    {text : Text}
    {cause : Cause}
    (failed : evaluateArithmetic text = .error cause) :
    ∃ refusal, cause = .arithmetic refusal (Text.strip text) := by
  obtain ⟨refusal, -, same⟩ := mapError_eq_error.mp failed
  exact ⟨refusal, same.symm⟩

/-- A text that a tree is written as has the rounded value of the tree. -/
theorem evaluateArithmetic_of_isWritten
    {tree : Tree Numeral .sum}
    {text : Text}
    (written : tree.IsWritten Numeral.text text)
    (value : Binary64) :
    evaluateArithmetic text = .ok value ↔
      tree.nesting (fun _ => 0) ≤ nestingLimit ∧
        ∃ raw, tree.value Numeral.value = some raw ∧ raw.isFinite = true ∧
          raw.roundThousandths = .ok value := by
  have trimmed := written.isTrimmed fun word member => isWord_of_mem member
  unfold evaluateArithmetic evaluate
  simp only [Text.strip_eq_self trimmed, mapError_eq_ok, bind_eq_ok,
    rawValue_of_isWritten written, rounded_eq_ok_iff,
    Tree.evaluate_eq_ok_iff Numeral.value tree (Nat.zero_le _), Nat.zero_add]
  constructor
  · rintro ⟨raw, ⟨fits, known⟩, rounds⟩
    exact ⟨fits, raw, known, rounds⟩
  · rintro ⟨fits, raw, known, rounds⟩
    exact ⟨raw, ⟨fits, known⟩, rounds⟩

/-- Plain arithmetic has a rounded value exactly if its text, without white space around
it, is written by a tree of the grammar with at most a hundred parentheses and signs open
at a time, whose evaluation divides by no zero and ends with a finite number that can be
rounded. Otherwise the text is refused as arithmetic. -/
theorem evaluateArithmetic_follows_grammar (text : Text) :
    (∀ value, evaluateArithmetic text = .ok value ↔
      ∃ tree : Tree Numeral .sum, tree.IsWritten Numeral.text (Text.strip text) ∧
        tree.nesting (fun _ => 0) ≤ 100 ∧
        ∃ raw, tree.value Numeral.value = some raw ∧ raw.isFinite = true ∧
          raw.roundThousandths = .ok value) ∧
      ∀ cause, evaluateArithmetic text = .error cause →
        ∃ refusal, cause = .arithmetic refusal (Text.strip text) := by
  refine ⟨fun value => ?_, fun cause failed => exists_refusal_of_evaluateArithmetic failed⟩
  have reads := rawValue_eq_ok_iff (Text.isTrimmed_strip text)
  unfold evaluateArithmetic evaluate
  simp only [mapError_eq_ok, bind_eq_ok, reads, rounded_eq_ok_iff]
  constructor
  · rintro ⟨raw, ⟨tree, written, fits, known⟩, rounds⟩
    exact ⟨tree, written, fits, raw, known, rounds⟩
  · rintro ⟨tree, written, fits, raw, known, rounds⟩
    exact ⟨raw, ⟨tree, written, fits, known⟩, rounds⟩

end Arithmetic
end Joinery
