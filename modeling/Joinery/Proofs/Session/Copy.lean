import Joinery.Proofs.Assembly.Lengths
import Joinery.Proofs.Command.Definition
import Joinery.Proofs.Expression.Repetition
import Joinery.Proofs.Expression.Unknown
import Joinery.Proofs.Session.Unused
import Joinery.Proofs.Session.Variable

/-!
# Copies of variables

A variable is copied by a definition whose expression is that variable alone. The variables
of a session have rounded values, whatever its operations were. So a copy has the value of
what it is made of unless that drifts, and by induction a row of copies has it as well.
-/

namespace Joinery

open Binary64

namespace Definition

/-- The name of a definition is a name. -/
theorem exists_identifier
    {line : Text}
    {definition : Definition}
    (found : ofLine? line = some definition) :
    ∃ name : Expression.Identifier, name.text = definition.name := by
  obtain ⟨named, -⟩ := ofLine?_isInfix found
  have nonempty : Expression.identifier line.tail ≠ [] := by
    intro empty
    unfold ofLine? at found
    split at found
    · rw [List.tail_cons] at empty
      simp [empty] at found
    · cases found
  obtain ⟨name, -, same, -⟩ := Expression.exists_text_eq_identifier nonempty
  exact ⟨name, same.trans named.symm⟩

/-- The line of a definition defines its name by its expression. -/
theorem ofLine?_line
    (name : Expression.Identifier)
    {expression : Text}
    (nonempty : expression ≠ [])
    (trimmed : Text.IsTrimmed expression)
    (plain : '#' ∉ expression)
    (single : '\n' ∉ expression) :
    ofLine? (line name.text expression) = some ⟨name.text, expression⟩ := by
  have named : Expression.identifier (name.text ++ ' ' :: '=' :: ' ' :: expression) = name.text :=
    name.identifier_append rfl
  have gap : (' ' :: expression).takeWhile Text.isBlank = [' '] :=
    @Text.takeWhile_append_eq _ [' '] expression rfl trimmed.start
  have body := @body?_append expression [] name.text nonempty trimmed.ending plain single rfl []
  rw [List.append_nil] at body
  have found : firstSuffix? (body? name.text []) (' ' :: expression) 0 1 =
      some ⟨name.text, expression⟩ :=
    Heading.firstSuffix?_eq_some (Nat.zero_le 1) body
  rw [line, ofLine?]
  simp only [named, if_neg name.text_ne_nil, List.drop_left]
  change firstSuffix? _ (' ' :: expression) 0 _ = _
  rw [gap]
  exact found

/-- The line that copies a variable. -/
theorem ofLine?_copy (target source : Expression.Identifier) :
    ofLine? (line target.text ('$' :: source.text)) = some ⟨target.text, '$' :: source.text⟩ := by
  have outside {mark : Char} (foreign : Text.isAsciiWordCharacter mark = false) :
      mark ∉ source.text := by
    intro member
    rw [List.all_eq_true.mp source.continues mark member] at foreign
    cases foreign
  refine ofLine?_line target (List.cons_ne_nil _ _) ⟨rfl, ?_⟩ ?_ ?_
  · refine Text.startsWith_of_forall fun character member => ?_
    rw [List.mem_reverse, List.mem_cons] at member
    rcases member with rfl | member
    · decide
    · rw [← Bool.not_eq_true]
      intro blank
      exact outside (Token.isAsciiWordCharacter_of_isBlank blank) member
  · simp [outside (show Text.isAsciiWordCharacter '#' = false by decide)]
  · simp [outside (show Text.isAsciiWordCharacter '\n' = false by decide)]

end Definition

namespace Session

/-- Lines that copy a variable to another one, this one to a third one, and so on. -/
inductive AreCopies : Text → List Text → Text → Prop
  | none (name : Text) : AreCopies name [] name
  | more
      {source middle target line : Text}
      {lines : List Text}
      (copies : Definition.ofLine? line = some ⟨middle, '$' :: source⟩)
      (further : AreCopies middle lines target) :
      AreCopies source (line :: lines) target

/-- A name and a value that a definition can give to it. -/
structure IsVariable (name : Text) (value : Binary64) : Prop where
  named : ∃ identifier : Expression.Identifier, identifier.text = name
  isRounded : IsRounded value

section Assignments

variable {session : Session} {line name : Text} {value : Binary64} {operations : List Operation}

theorem isVariable_of_assignment? (given : session.assignment? line = some (name, value)) :
    IsVariable name value := by
  unfold assignment? at given
  split at given
  · cases given
  next definition found =>
    split at given
    next number evaluated =>
      cases given
      exact ⟨Definition.exists_identifier found, isRounded_evaluate evaluated⟩
    · cases given

theorem isVariable_of_mem_assignments (member : (name, value) ∈ session.assignments operations) :
    IsVariable name value := by
  induction operations generalizing session with
  | nil => cases member
  | cons operation rest inductionHypothesis =>
      rcases List.mem_append.mp member with first | later
      · cases operation with
        | define line => exact isVariable_of_assignment? (Option.mem_toList.mp first)
        | draw line text => cases first
        | evaluate text => cases first
        | read =>
            obtain ⟨step, -, given⟩ := List.mem_filterMap.mp first
            unfold Step.assignment? at given
            split at given
            · exact isVariable_of_assignment? given
            · cases given
      · exact inductionHypothesis later

/-- The variables of a session have names, and their values are rounded. -/
theorem isVariable_of_number?
    {text : Text}
    (known : ((new text).run operations).number? name = some value) :
    IsVariable name value := by
  rw [(assigns_run (new text) operations).number?_eq] at known
  exact isVariable_of_mem_assignments
    (Dictionary.mem_of_lastValue? (known.symm.trans Option.or_none).symm)

end Assignments

section Copies

variable {session : Session} {source : Text} {value : Binary64}
  (known : session.number? source = some value)
  (isVariable : IsVariable source value)
include known isVariable

/-- A variable of a session has a value as an expression. -/
theorem exists_evaluate_variable :
    ∃ other, Joinery.evaluate session.scope ('$' :: source) = .ok other ∧
      (other = value ↔ ¬ value.Drifts) := by
  obtain ⟨⟨name, rfl⟩, isRounded⟩ := isVariable
  exact Expression.exists_evaluate_variable known isRounded

/-- A copy has the value of the variable that it is made of, unless that drifts. -/
theorem exists_copy
    {target line : Text}
    (copies : Definition.ofLine? line = some ⟨target, '$' :: source⟩) :
    ∃ other, (session.perform (.define line)).1.number? target = some other ∧
      IsVariable target other ∧ (other = value ↔ ¬ value.Drifts) := by
  obtain ⟨other, evaluated, same⟩ := exists_evaluate_variable known isVariable
  have given : session.assignment? line = some (target, other) := by
    unfold assignment?
    rw [copies]
    simp only [evaluated]
  refine ⟨other, ?_, isVariable_of_assignment? given, same⟩
  simp only [perform, define_eq_ok_iff.mpr ⟨target, other, given, rfl⟩]
  rw [number?, Dictionary.get?_insert, if_pos rfl]

/-- A copy of a variable that drifts has another value. -/
theorem exists_other_of_drifts
    {target line : Text}
    (drifts : value.Drifts)
    (areCopies : AreCopies source [line] target) :
    ∃ other, (session.run [.define line]).number? target = some other ∧ other ≠ value := by
  cases areCopies with
  | more copies further =>
      cases further
      obtain ⟨other, found, -, same⟩ := exists_copy known isVariable copies
      exact ⟨other, found, fun kept => same.mp kept drifts⟩

omit known isVariable in
/-- Copies of a variable that does not drift have its value. -/
theorem number?_run_of_areCopies
    {target : Text}
    {lines : List Text}
    (areCopies : AreCopies source lines target)
    (known : session.number? source = some value)
    (isVariable : IsVariable source value)
    (steady : ¬ value.Drifts) :
    (session.run (lines.map .define)).number? target = some value := by
  induction areCopies generalizing session with
  | none name => exact known
  | more copies further inductionHypothesis =>
      obtain ⟨other, found, isCopy, same⟩ := exists_copy known isVariable copies
      obtain rfl := same.mpr steady
      exact inductionHypothesis found isCopy

/-- Every row of copies keeps a value exactly if it does not drift: a variable that drifts is
not even kept by a copy to itself. -/
theorem areCopies_keep_iff :
    (∀ lines target, AreCopies source lines target →
      (session.run (lines.map .define)).number? target = some value) ↔ ¬ value.Drifts := by
  refine ⟨fun kept drifts => ?_, fun steady lines target areCopies =>
    number?_run_of_areCopies areCopies known isVariable steady⟩
  obtain ⟨name, rfl⟩ := isVariable.named
  have areCopies : AreCopies name.text _ _ :=
    .more (Definition.ofLine?_copy name name) (.none _)
  obtain ⟨other, found, different⟩ := exists_other_of_drifts known isVariable drifts areCopies
  exact different (Option.some.inj (found.symm.trans (kept _ _ areCopies)))

end Copies

/-- A result that is a value under a condition, and another one otherwise. -/
theorem exists_and_eq_ok_iff
    {ε α : Type}
    {result : Except ε α}
    {value : α}
    {condition : Prop}
    (known : ∃ other, result = .ok other ∧ (other = value ↔ condition)) :
    (∃ other, result = .ok other) ∧ (result = .ok value ↔ condition) := by
  obtain ⟨other, rfl, same⟩ := known
  refine ⟨⟨other, rfl⟩, ?_⟩
  rw [Except.ok.injEq]
  exact same

/-- Evaluation of the text of a value has a value, and after every run so has evaluation of a
variable. It is the same value exactly if that does not drift. Then every row of copies of a
variable ends with a variable of its value, and otherwise every copy has another value. -/
theorem evaluation_repeats_iff (value : Binary64) :
    (∀ text, evaluateArithmetic text = .ok value →
      (∃ other, evaluateArithmetic value.plainText = .ok other) ∧
        (evaluateArithmetic value.plainText = .ok value ↔ ¬ value.Drifts)) ∧
    ∀ (text : Text) (operations : List Operation) (name : Text),
      let session := (new text).run operations
      session.number? name = some value →
        (∃ other, session.evaluate ('$' :: name) = .ok other) ∧
        (session.evaluate ('$' :: name) = .ok value ↔ ¬ value.Drifts) ∧
        ((∀ lines target, AreCopies name lines target →
          (session.run (lines.map .define)).number? target = some value) ↔ ¬ value.Drifts) ∧
        (value.Drifts → ∀ line target, AreCopies name [line] target →
          ∃ other, (session.run [.define line]).number? target = some other ∧ other ≠ value) := by
  constructor
  · intro text evaluated
    have isRounded := isRounded_evaluateArithmetic evaluated
    exact exists_and_eq_ok_iff (exists_evaluateArithmetic_plainText isRounded)
  · intro text operations name session known
    have isVariable := isVariable_of_number? known
    have evaluated : ∃ other, session.evaluate ('$' :: name) = .ok other ∧
        (other = value ↔ ¬ value.Drifts) := by
      obtain ⟨other, again, same⟩ := exists_evaluate_variable known isVariable
      exact ⟨other, mapError_eq_ok.mpr again, same⟩
    obtain ⟨succeeds, repeats⟩ := exists_and_eq_ok_iff evaluated
    exact ⟨succeeds, repeats, areCopies_keep_iff known isVariable, fun drifts line target =>
      exists_other_of_drifts known isVariable drifts⟩

/-- One third is rounded once, and two copies keep it. -/
theorem exists_repeated_evaluation :
    ∃ (text : Text) (operations : List Operation) (value : Binary64),
      evaluateArithmetic text = .ok value ∧ evaluateArithmetic value.plainText = .ok value ∧
      let session := (new []).run operations
      session.number? ['A'] = some value ∧ session.evaluate ['$', 'A'] = .ok value ∧
        (session.run [.define "$B = $A".toList, .define "$C = $B".toList]).number? ['C'] =
          some value := by
  let value := ofIntQuotient 333 1000
  have steady : ¬ value.Drifts := by decide +kernel
  have evaluated : evaluateArithmetic "1/3".toList = .ok value := by decide +kernel
  have known : ((new []).run [.define "$A = 1/3".toList]).number? ['A'] = some value := by
    decide +kernel
  have copies : AreCopies ['A'] ["$B = $A".toList, "$C = $B".toList] ['C'] :=
    .more rfl (.more rfl (.none _))
  obtain ⟨again, reached⟩ := evaluation_repeats_iff value
  obtain ⟨-, repeats, copied, -⟩ := reached [] [.define "$A = 1/3".toList] ['A'] known
  exact ⟨_, _, value, evaluated, (again _ evaluated).2.mpr steady, known, repeats.mpr steady,
    copied.mpr steady _ _ copies⟩

/-- A number above `2 ^ 42` becomes larger by one thousandth when it is evaluated again, and a
copy of it is the larger number. -/
theorem exists_evaluation_that_drifts :
    (¬ ∀ text value, evaluateArithmetic text = .ok value →
      evaluateArithmetic value.plainText = .ok value) ∧
    (¬ ∀ operations name value, ((new []).run operations).number? name = some value →
      ((new []).run operations).evaluate ('$' :: name) = .ok value) ∧
    ¬ ∀ operations value, ((new []).run operations).number? ['A'] = some value →
      (((new []).run operations).run [.define "$B = $A".toList]).number? ['B'] = some value := by
  let value := ofIntQuotient 4400000000000022 1000
  have known :
      ((new []).run [.define "$A = 4400000000000.021".toList]).number? ['A'] = some value := by
    decide +kernel
  refine ⟨fun always => ?_, fun always => ?_, fun always => ?_⟩
  · have same := always "4400000000000.021".toList value (by decide +kernel)
    exact absurd same (by decide +kernel)
  · exact absurd (always _ _ value known) (by decide +kernel)
  · exact absurd (always _ value known) (by decide +kernel)

end Session
end Joinery
