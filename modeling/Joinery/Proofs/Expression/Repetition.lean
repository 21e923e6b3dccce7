import Joinery.Proofs.Binary64.Drift
import Joinery.Proofs.Expression.Reference

/-!
# Repeated evaluation

A value was rounded to thousandths, so its plain text reads back as the value, and what the
text is evaluated to is the value rounded again. A variable stands for the plain text of its
value. Both keep the value unless it drifts.
-/

namespace Joinery

open Binary64

/-- A number that reads back is evaluated by rounding it. -/
theorem evaluateArithmetic_plainText_eq_ok_iff
    {value : Binary64}
    (legible : value.IsLegible)
    (other : Binary64) :
    evaluateArithmetic value.plainText = .ok other ↔ value.roundThousandths = .ok other := by
  obtain ⟨factor, isFactor⟩ := Expression.exists_isFactorOf legible
  have shallow : factor.nesting (fun _ => 0) ≤ Arithmetic.nestingLimit := by
    refine isFactor.nesting.trans ?_
    split <;> decide
  have alike : Option.Rel Alike
      ((Arithmetic.Tree.lone (.single factor)).value Arithmetic.Numeral.value) (some value) :=
    isFactor.alike
  rw [@Arithmetic.evaluateArithmetic_of_isWritten (.lone (.single factor)) _ isFactor.spaced,
    Expression.exists_rounding_iff alike]
  constructor
  · rintro ⟨-, raw, same, -, rounds⟩
    rwa [Option.some.inj same]
  · exact fun rounds => ⟨shallow, value, rfl, legible.1, rounds⟩

/-- The text of a rounded number has a value, which is the number unless it drifts. -/
theorem exists_evaluateArithmetic_plainText
    {value : Binary64}
    (isRounded : IsRounded value) :
    ∃ other, evaluateArithmetic value.plainText = .ok other ∧ (other = value ↔ ¬ value.Drifts) := by
  obtain ⟨other, rounds, same⟩ := isRounded.roundThousandths_cases
  exact ⟨other, (evaluateArithmetic_plainText_eq_ok_iff isRounded.isLegible other).mpr rounds, same⟩

namespace Expression

theorem brace_not_mem_plainText {value : Binary64} (finite : value.isFinite = true) :
    '{' ∉ value.plainText := by
  obtain ⟨numeral, text⟩ := exists_numeral_plainText finite
  rw [text]
  intro member
  exact absurd (mem_signed member) (by decide)

/-- A variable is evaluated as the text of its value. -/
theorem evaluate_variable
    {scope : Scope}
    {name : Identifier}
    {value : Binary64}
    (known : scope.number? name.text = some value)
    (finite : value.isFinite = true) :
    evaluate scope ('$' :: name.text) = evaluateArithmetic value.plainText := by
  have numbered : withVariables scope ('$' :: name.text) = .ok value.plainText := by
    have pass := @replaces_variables scope (fun _ => value) (.named name) known []
      (Text.startsWith_nil _)
    rw [List.append_nil] at pass
    exact pass.trans (congrArg Except.ok (List.append_nil _))
  rw [evaluate, numbered]
  change withProperties scope value.plainText >>= _ = _
  rw [withProperties_of_not_mem (brace_not_mem_plainText finite)]
  change withDistances _ >>= _ = _
  rw [withDistances_plainText]
  rfl

/-- A variable with a rounded number has a value, which is the number unless it drifts. -/
theorem exists_evaluate_variable
    {scope : Scope}
    {name : Identifier}
    {value : Binary64}
    (known : scope.number? name.text = some value)
    (isRounded : IsRounded value) :
    ∃ other, evaluate scope ('$' :: name.text) = .ok other ∧ (other = value ↔ ¬ value.Drifts) := by
  rw [evaluate_variable known isRounded.within.isFinite]
  exact exists_evaluateArithmetic_plainText isRounded

end Expression
end Joinery
