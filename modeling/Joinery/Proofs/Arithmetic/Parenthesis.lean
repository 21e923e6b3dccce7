import Joinery.Proofs.Arithmetic.Grammar
import Joinery.Proofs.Arithmetic.Shape

/-!
# Open parentheses

In front of the first closing parenthesis of an expression there is an opening one that is
still open. So what stands in front of it is no expression, although all of it can be read.
-/

namespace Joinery
namespace Arithmetic

/-! ## Lexemes in front of a closing parenthesis -/

theorem run_append (state : State) (first second : List Lexeme) :
    state.run (first ++ second) = state.run first >>= fun next => next.run second := by
  induction first generalizing state with
  | nil => rfl
  | cons lexeme rest inductionHypothesis =>
      rw [List.cons_append, Tree.run_cons, Tree.run_cons]
      cases state.step lexeme with
      | error fault => rfl
      | ok next => exact inductionHypothesis next

/-- The machine reads a closing parenthesis only when another frame is pending, and then it
could not have finished. -/
theorem value_of_closing
    {before after : List Lexeme}
    {result : Binary64}
    (evaluated : value (before ++ .closing :: after) = .ok result) :
    before ≠ [] ∧ value before = .error .malformed := by
  obtain ⟨stop, ran, -⟩ := bind_eq_ok.mp evaluated
  rw [run_append] at ran
  obtain ⟨state, reached, ran⟩ := bind_eq_ok.mp ran
  obtain ⟨next, stepped, -⟩ := bind_eq_ok.mp ran
  cases state with
  | expecting frame outer => cases stepped
  | holding product frame outer =>
      cases outer with
      | nil => cases stepped
      | cons pending others =>
          refine ⟨?_, ?_⟩
          · rintro rfl
            cases reached
          · rw [value, reached]
            rfl

/-! ## Texts in front of a closing parenthesis -/

/-- Only the closing parenthesis has its character. -/
theorem eq_closing_of_mem
    {symbol : Symbol Numeral}
    (member : ')' ∈ symbol.text Numeral.text) :
    symbol = .closing := by
  cases symbol with
  | operand numeral => cases numeral.continues_of_mem _ member
  | sign plusOrMinus => cases plusOrMinus <;> exact absurd member (by decide)
  | scaling timesOrOver => cases timesOrOver <;> exact absurd member (by decide)
  | opening => exact absurd member (by decide)
  | closing => rfl

/-- Symbols without a closing parenthesis are written without one. -/
theorem not_mem_of_isSpaced
    {symbols : List (Symbol Numeral)}
    {text : Text}
    (spaced : Text.IsSpaced (symbols.map (Symbol.text Numeral.text)) text)
    (absent : .closing ∉ symbols) :
    ∀ character ∈ text, character ≠ ')' := by
  refine spaced.forall_mem ?_ ?_
  · rintro character blank rfl
    cases blank
  · rintro word member character inside rfl
    obtain ⟨symbol, isSymbol, rfl⟩ := List.mem_map.mp member
    exact absent (eq_closing_of_mem inside ▸ isSymbol)

/-- Symbols are refused as incomplete if the machine does not finish behind them. -/
theorem evaluate_of_incomplete
    {symbols : List (Symbol Numeral)}
    {text : Text}
    (spaced : Text.IsSpaced (symbols.map (Symbol.text Numeral.text)) text)
    (apart : AreApart symbols)
    (incomplete : value (symbols.map (Symbol.lexeme Numeral.value)) = .error .malformed) :
    evaluate text = .error .failed := by
  obtain ⟨nonempty, allowed⟩ := isAllowed_of_isSpaced spaced
  have refused : rawValue text = .error .failed := by
    rw [rawValue, if_neg (by simp [nonempty, allowed]), lexemes?_of_isSpaced spaced apart]
    exact congrArg (Except.mapError Fault.refusal) incomplete
  rw [evaluate, refused]
  rfl

/-- Arithmetic with a value and a closing parenthesis has some symbols in front of the first
one, which can be read but are not complete. -/
theorem exists_part_before_closing
    {text : Text}
    {raw : Binary64}
    (trimmed : Text.IsTrimmed text)
    (known : rawValue text = .ok raw)
    (member : ')' ∈ text) :
    ∃ part gap rest, text = part ++ (gap ++ ')' :: rest) ∧ gap.all Text.isBlank = true ∧
      (∀ character ∈ part, character ≠ ')') ∧ Text.IsTrimmed part ∧ part ≠ [] ∧
      evaluate part = .error .failed := by
  obtain ⟨tree, written, fits, found⟩ := (rawValue_eq_ok_iff trimmed raw).mp known
  have evaluated := (value_map_lexeme_eq_ok_iff Numeral.value tree.symbols raw).mpr
    ⟨tree, rfl, fits, found⟩
  have apart := tree.areApart
  unfold Tree.IsWritten at written
  generalize tree.symbols = symbols at written evaluated apart
  have isSymbol : Symbol.closing ∈ symbols := by
    by_contra absent
    exact not_mem_of_isSpaced written absent ')' member rfl
  obtain ⟨before, after, rfl, absent⟩ := List.eq_append_cons_of_mem isSymbol
  rw [List.map_append, List.map_cons] at written evaluated
  obtain ⟨nonempty, incomplete⟩ := value_of_closing evaluated
  obtain ⟨part, gap, right, rfl, blank, partSpaced, rightSpaced⟩ :=
    written.exists_of_append (by simpa using nonempty) (List.cons_ne_nil _ _)
  obtain ⟨rest, rfl⟩ : ∃ rest, right = ')' :: rest := by
    generalize after.map (Symbol.text Numeral.text) = words at rightSpaced
    cases rightSpaced with
    | last => exact ⟨[], rfl⟩
    | next word gap blank spaced => exact ⟨_, rfl⟩
  have areWords (word : Text)
      (isWord : word ∈ before.map (Symbol.text Numeral.text)) : Text.IsSpaced.IsWord word :=
    isWord_of_mem isWord
  exact ⟨part, gap, rest, rfl, blank, not_mem_of_isSpaced partSpaced absent,
    partSpaced.isTrimmed areWords, partSpaced.ne_nil areWords,
    evaluate_of_incomplete partSpaced apart.left_of_append incomplete⟩

/-- What stands in front of the first closing parenthesis of arithmetic with a value is refused
as arithmetic that is not complete. -/
theorem evaluateArithmetic_takeWhile
    {text : Text}
    {result : Binary64}
    (evaluated : evaluateArithmetic text = .ok result)
    (member : ')' ∈ text) :
    let part := text.takeWhile (· != ')')
    evaluateArithmetic part = .error (.arithmetic .failed (Text.strip part)) := by
  intro part
  obtain ⟨raw, known, -⟩ := bind_eq_ok.mp (mapError_eq_ok.mp evaluated)
  obtain ⟨lead, trail, whole, leadBlank, trailBlank⟩ := Text.exists_strip_append text
  have plain {gap : Text} (blank : gap.all Text.isBlank = true) :
      ∀ character ∈ gap, character ≠ ')' := by
    rintro character inGap rfl
    cases List.all_eq_true.mp blank _ inGap
  have inside : ')' ∈ Text.strip text := by
    rw [whole, List.mem_append, List.mem_append] at member
    rcases member with inLead | inside | inTrail
    · exact absurd rfl (plain leadBlank _ inLead)
    · exact inside
    · exact absurd rfl (plain trailBlank _ inTrail)
  obtain ⟨core, gap, rest, split, blank, absent, trimmed, nonempty, refused⟩ :=
    exists_part_before_closing (Text.isTrimmed_strip text) known inside
  have taken : part = lead ++ (core ++ gap) := by
    have front : text = (lead ++ (core ++ gap)) ++ ')' :: (rest ++ trail) := by
      rw [whole, split]
      simp
    change text.takeWhile (· != ')') = _
    rw [front]
    refine Text.takeWhile_append_eq (List.all_eq_true.mpr fun character here => ?_) rfl
    rw [List.mem_append, List.mem_append] at here
    rw [bne_iff_ne]
    rcases here with inLead | inCore | inGap
    · exact plain leadBlank character inLead
    · exact absent character inCore
    · exact plain blank character inGap
  have stripped : Text.strip part = core := by
    rw [taken]
    exact Text.strip_append_append trimmed nonempty leadBlank blank
  rw [evaluateArithmetic, stripped, refused]
  rfl

end Arithmetic
end Joinery
