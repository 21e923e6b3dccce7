import Joinery.Expression
import Joinery.Proofs.Recovery

/-!
# Causes of refused expressions

An expression is refused because of a reference or because of arithmetic. Which references
are refused depends on the properties of the boards only.
-/

namespace Joinery

namespace Cause

/-- Whether a cause says that a reference is unknown or that arithmetic is wrong. -/
def isOfReading : Cause → Bool
  | .unknownVariable _ | .unknownBoard _ | .unknownProperty _ _ | .arithmetic _ _ => true
  | _ => false

/-- Whether an expression can be refused with a cause. -/
def isOfExpression : Cause → Bool
  | .endlessAngle _ => true
  | cause => cause.isOfReading

theorem isOfExpression_of_isOfReading
    (cause : Cause)
    (isOfReading : cause.isOfReading = true) :
    cause.isOfExpression = true := by
  cases cause <;> first | rfl | exact isOfReading

end Cause

section Arithmetic

variable {kind : Cause → Prop} (arithmetic : ∀ refusal text, kind (.arithmetic refusal text))
include arithmetic

theorem failsWith_evaluateArithmetic (text : Text) : FailsWith kind (evaluateArithmetic text) := by
  intro cause failed
  obtain ⟨refusal, -, rfl⟩ := mapError_eq_error.mp failed
  exact arithmetic _ _

namespace Expression

theorem failsWith_writeDistance (reference : DistanceReference) :
    FailsWith kind (writeDistance reference) :=
  (failsWith_evaluateArithmetic arithmetic _).bind fun _ _ =>
    (failsWith_evaluateArithmetic arithmetic _).bind fun _ _ =>
      (failsWith_evaluateArithmetic arithmetic _).bind fun _ _ =>
        (failsWith_evaluateArithmetic arithmetic _).bind fun _ _ => failsWith_ok _

/-- Behind the replaced references, arithmetic alone refuses an expression. -/
theorem failsWith_withDistances (text : Text) :
    FailsWith kind (withDistances text >>= evaluateArithmetic) :=
  (failsWith_replace (failsWith_writeDistance arithmetic) _).bind fun _ _ =>
    failsWith_evaluateArithmetic arithmetic _

end Expression
end Arithmetic

section Kind

variable {kind : Cause → Prop} (readings : ∀ cause : Cause, cause.isOfReading = true → kind cause)
include readings

namespace Expression

theorem failsWith_writeVariable (scope : Scope) (name : Text) :
    FailsWith kind (writeVariable scope name) := by
  unfold writeVariable
  split
  · exact failsWith_ok _
  · exact failsWith_error (readings _ rfl)

variable {scope : Scope}
variable (properties : ∀ id board, scope.board? id = some board →
  ∀ name, FailsWith kind (Scope.property board name id))
include properties

theorem failsWith_writeProperty (reference : PropertyReference) :
    FailsWith kind (writeProperty scope reference) := by
  unfold writeProperty
  split
  next board found =>
    exact (properties _ board found _).bind fun _ _ => failsWith_ok _
  next => exact failsWith_error (readings _ rfl)

/-- An expression fails with the causes of the properties of boards, or because it cannot
be read. -/
theorem failsWith_evaluate (text : Text) : FailsWith kind (evaluate scope text) :=
  (failsWith_replace (failsWith_writeVariable readings scope) _).bind fun _ _ =>
    (failsWith_replace (failsWith_writeProperty readings properties) _).bind fun _ _ =>
      failsWith_withDistances (fun _ _ => readings _ rfl) _

end Expression
end Kind

namespace Scope

theorem failsWith_property (board : Board Binary64) (name id : Text) :
    FailsWith (·.isOfExpression = true) (property board name id) := by
  unfold property
  split
  · split
    · split
      · exact failsWith_ok _
      · exact failsWith_error rfl
    · exact failsWith_ok _
  · split
    · exact failsWith_error rfl
    · exact failsWith_error rfl

/-- Every property of a board that can be turned is known or refused. -/
theorem recoverable_property
    {board : Board Binary64}
    (turns : board.turn?.isSome = true)
    (name id : Text) :
    Recoverable (property board name id) := by
  obtain ⟨turn, found⟩ := Option.isSome_iff_exists.mp turns
  unfold property
  rw [found]
  split
  · split
    · exact failsWith_ok _
    · exact failsWith_ok _
  · simp only [Option.isNone_some, Bool.false_eq_true, and_false, if_false]
    exact failsWith_error rfl

/-- A scope whose boards can all be turned by their angles. -/
def IsSteady (scope : Scope) : Prop :=
  ∀ id board, scope.board? id = some board → board.turn?.isSome = true

end Scope

theorem failsAsExpression_evaluate (scope : Scope) (text : Text) :
    FailsWith (·.isOfExpression = true) (evaluate scope text) :=
  Expression.failsWith_evaluate Cause.isOfExpression_of_isOfReading
    (fun id board _ name => Scope.failsWith_property board name id) text

/-- The evaluation of an expression is recoverable. -/
theorem recoverable_evaluate
    {scope : Scope}
    (steady : scope.IsSteady)
    (text : Text) :
    Recoverable (evaluate scope text) := by
  refine Expression.failsWith_evaluate (fun cause isOfReading => ?_)
    (fun id board found name => Scope.recoverable_property (steady id board found) name id) text
  cases cause <;> first | rfl | cases isOfReading

end Joinery
