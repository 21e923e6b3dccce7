import Joinery.Problem
import Joinery.Text.Piece

/-!
# Attempts and their causes

An attempt may fail with causes of one kind only, and what is put together from such
attempts does so as well. An attempt is recoverable if it does not fail with a fatal cause.
-/

namespace Joinery

section Sequences

variable {ε α β : Type} {first : Except ε α} {next : α → Except ε β}

/-- A sequence succeeds when both of its parts do. -/
theorem bind_eq_ok {result : β} :
    first >>= next = .ok result ↔ ∃ value, first = .ok value ∧ next value = .ok result := by
  cases first with
  | error cause => simp [bind, Except.bind]
  | ok value => simp [bind, Except.bind]

/-- A sequence fails with the first of its parts that fails. -/
theorem bind_eq_error {cause : ε} :
    first >>= next = .error cause ↔
      first = .error cause ∨ ∃ value, first = .ok value ∧ next value = .error cause := by
  cases first with
  | error cause => simp [bind, Except.bind]
  | ok value => simp [bind, Except.bind]

/-- A renamed cause comes from a cause of the attempt. -/
theorem mapError_eq_error {ε' : Type} {change : ε → ε'} {cause : ε'} :
    first.mapError change = .error cause ↔
      ∃ inner, first = .error inner ∧ change inner = cause := by
  cases first with
  | error inner =>
      constructor
      · intro renamed
        cases renamed
        exact ⟨inner, rfl, rfl⟩
      · rintro ⟨_, same, rfl⟩
        cases same
        rfl
  | ok value =>
      constructor
      · intro renamed
        cases renamed
      · rintro ⟨_, same, -⟩
        cases same

theorem mapError_eq_ok {ε' : Type} {change : ε → ε'} {value : α} :
    first.mapError change = .ok value ↔ first = .ok value := by
  cases first with
  | error inner =>
      constructor
      · intro same
        cases same
      · intro same
        cases same
  | ok other =>
      constructor
      · intro same
        cases same
        rfl
      · intro same
        cases same
        rfl

end Sequences

variable {α β : Type}

/-! ## Kinds of causes -/

/-- An attempt that fails with causes of a kind only, if it does. -/
def FailsWith (kind : Cause → Prop) (attempt : Except Cause α) : Prop :=
  ∀ cause, attempt = .error cause → kind cause

section FailsWith

variable {kind : Cause → Prop}

theorem failsWith_ok (value : α) : FailsWith kind (.ok value) := by
  intro cause failed
  cases failed

theorem failsWith_error
    {cause : Cause}
    (isKind : kind cause) :
    FailsWith kind (.error cause : Except Cause α) := by
  intro other failed
  cases failed
  exact isKind

/-- A sequence fails with the causes of its parts. -/
theorem FailsWith.bind
    {first : Except Cause α}
    {next : α → Except Cause β}
    (firstFails : FailsWith kind first)
    (nextFails : ∀ value, first = .ok value → FailsWith kind (next value)) :
    FailsWith kind (first >>= next) := by
  intro cause failed
  rcases bind_eq_error.mp failed with failed | ⟨value, found, failed⟩
  · exact firstFails cause failed
  · exact nextFails value found cause failed

theorem FailsWith.mono
    {other : Cause → Prop}
    {attempt : Except Cause α}
    (fails : FailsWith kind attempt)
    (isOther : ∀ cause, kind cause → other cause) :
    FailsWith other attempt :=
  fun cause failed => isOther cause (fails cause failed)

/-- Replacing fails with the causes of writing a single piece. -/
theorem failsWith_replace
    {write : α → Except Cause Text}
    (fails : ∀ value, FailsWith kind (write value))
    (pieces : List (Text.Piece α)) :
    FailsWith kind (Text.replace write pieces) := by
  induction pieces with
  | nil => exact failsWith_ok []
  | cons piece rest inductionHypothesis =>
      cases piece with
      | other character =>
          exact inductionHypothesis.bind fun text _ => failsWith_ok _
      | found value text =>
          exact (fails value).bind fun written _ =>
            inductionHypothesis.bind fun text _ => failsWith_ok _

end FailsWith

/-- An attempt that does not fail with a fatal cause. -/
def Recoverable (attempt : Except Cause α) : Prop :=
  ∀ cause, attempt = .error cause → cause.isFatal = false

end Joinery
