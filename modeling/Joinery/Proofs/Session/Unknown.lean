import Mathlib.Order.Lattice.Nat
import Joinery.Proofs.Expression.Unknown
import Joinery.Proofs.Session.GeneratedId

/-!
# Unknown references in a session

A session refuses an expression because of the first unknown reference in it: first a variable,
then a property. All boards have the same properties, so a property is unknown because of its
name, or because its board has not been made yet.
-/

namespace Joinery

open Expression

namespace Session

/-- A command makes the board with an id, or later operations do. -/
def IsUnmade (session : Session) (id : Text) : Prop :=
  (∃ line text heading, Heading.ofLine? text = some heading ∧ session.idFor heading = id ∧
      (session.draw line text).2 ≠ .error ⟨none, .duplicateId id⟩) ∨
    ∃ later, ∃ board ∈ (session.run later).boards.drop session.boards.length, board.id = id

/-- A board is not registered before it is made. -/
theorem board?_eq_none_of_isUnmade
    {text id : Text}
    {operations : List Operation}
    (unmade : ((new text).run operations).IsUnmade id) :
    ((new text).run operations).board? id = none := by
  by_contra known
  have registered := Option.isSome_iff_ne_none.mpr known
  rcases unmade with ⟨line, command, heading, headed, rfl, accepted⟩ |
    ⟨later, board, added, rfl⟩
  · exact accepted ((draw_eq_duplicateId_iff headed).mpr ⟨rfl, rfl, registered⟩)
  · -- Two boards of the later session would have the same id.
    obtain ⟨other, member, same⟩ :=
      (isRegistered_run text operations).isSome_board?_iff.mp registered
    have grown := (((new text).run operations).extends_run later).boards
    have distinct : ((((new text).run operations).run later).boards.map (·.id)).Nodup := by
      rw [← run_append, ← (isRegistered_run text _).names_eq]
      exact ((new text).run _).registry.nodup
    rw [grown, List.map_append] at distinct
    rw [grown, List.drop_left] at added
    exact (List.nodup_append.mp distinct).2.2 _ (List.mem_map_of_mem member) _
      (List.mem_map_of_mem added) same

section Evaluate

variable {session : Session} {expression plain : Text}

theorem evaluate_eq_error_iff {cause : Cause} :
    session.evaluate expression = .error ⟨none, cause⟩ ↔
      Joinery.evaluate session.scope expression = .error cause := by
  rw [evaluate, mapError_eq_error]
  simp

/-- A variable that is not defined refuses an expression. -/
theorem exists_evaluate_of_undefined
    (undefined : (undefinedAt session.scope expression).Nonempty) :
    ∃ name, Joinery.evaluate session.scope expression = .error (.unknownVariable name) := by
  have least : IsLeast (undefinedAt session.scope expression) _ :=
    ⟨Nat.sInf_mem undefined, fun _ => Nat.sInf_le⟩
  obtain ⟨name, place, -⟩ := least.1
  exact ⟨name.text, evaluate_of_undefined least place⟩

section Steady

variable (steady : session.scope.IsSteady)
include steady

section Numbered

variable (numbered : withVariables session.scope expression = .ok plain)
include numbered

/-- If all variables are defined, an unknown property refuses it. -/
theorem exists_evaluate_of_unknown (unknown : (unknownAt session.scope plain).Nonempty) :
    ∃ offset id name, IsPropertyAt plain offset id name ∧ IsUnknown session.scope id name ∧
      Joinery.evaluate session.scope expression = .error
        (if (session.board? id.text).isSome then .unknownProperty name.text id.text
          else .unknownBoard id.text) := by
  have least : IsLeast (unknownAt session.scope plain) _ :=
    ⟨Nat.sInf_mem unknown, fun _ => Nat.sInf_le⟩
  obtain ⟨id, name, place, isUnknown⟩ := least.1
  exact ⟨_, id, name, place, isUnknown, evaluate_of_unknown steady numbered least place⟩

/-- Without unknown properties it has a value or is refused because of arithmetic. -/
theorem evaluate_of_known (known : unknownAt session.scope plain = ∅) :
    (∃ value, session.evaluate expression = .ok value) ∨
      ∃ refusal part, session.evaluate expression = .error ⟨none, .arithmetic refusal part⟩ := by
  cases evaluated : Joinery.evaluate session.scope expression with
  | ok value => exact Or.inl ⟨value, mapError_eq_ok.mpr evaluated⟩
  | error cause =>
      obtain ⟨refusal, part, rfl⟩ := failsWith_evaluate_of_known steady numbered known _ evaluated
      exact Or.inr ⟨refusal, part, evaluate_eq_error_iff.mpr evaluated⟩

theorem isArithmetic_of_known
    (known : unknownAt session.scope plain = ∅)
    {cause : Cause}
    (refused : session.evaluate expression = .error ⟨none, cause⟩) :
    cause.IsArithmetic :=
  failsWith_evaluate_of_known steady numbered known cause (evaluate_eq_error_iff.mp refused)

/-- It is refused because of a board or a property exactly if one is unknown. -/
theorem evaluate_isUnknown_iff :
    ((∃ id, session.evaluate expression = .error ⟨none, .unknownBoard id⟩) ∨
        ∃ name id, session.evaluate expression = .error ⟨none, .unknownProperty name id⟩) ↔
      (unknownAt session.scope plain).Nonempty := by
  constructor
  · intro refused
    refine Set.nonempty_iff_ne_empty.mpr fun known => ?_
    rcases refused with ⟨id, refused⟩ | ⟨name, id, refused⟩
    · obtain ⟨_, _, same⟩ := isArithmetic_of_known steady numbered known refused
      cases same
    · obtain ⟨_, _, same⟩ := isArithmetic_of_known steady numbered known refused
      cases same
  · intro unknown
    obtain ⟨_, id, name, -, -, refused⟩ := exists_evaluate_of_unknown steady numbered unknown
    split at refused
    · exact Or.inr ⟨name.text, id.text, evaluate_eq_error_iff.mpr refused⟩
    · exact Or.inl ⟨id.text, evaluate_eq_error_iff.mpr refused⟩

theorem evaluate_ne_unknownVariable (name : Text) :
    session.evaluate expression ≠ .error ⟨none, .unknownVariable name⟩ := by
  intro refused
  rcases (unknownAt session.scope plain).eq_empty_or_nonempty with known | unknown
  · obtain ⟨_, _, same⟩ := isArithmetic_of_known steady numbered known refused
    cases same
  · rcases (evaluate_isUnknown_iff steady numbered).mpr unknown with ⟨_, same⟩ | ⟨_, _, same⟩
    · cases refused.symm.trans same
    · cases refused.symm.trans same

end Numbered

/-- An expression is refused because of a variable exactly if one is not defined. -/
theorem evaluate_isUndefined_iff :
    (∃ name, session.evaluate expression = .error ⟨none, .unknownVariable name⟩) ↔
      (undefinedAt session.scope expression).Nonempty := by
  constructor
  · rintro ⟨name, refused⟩
    refine Set.nonempty_iff_ne_empty.mpr fun none => ?_
    obtain ⟨plain, numbered⟩ := withVariables_isOk_iff.mpr none
    exact evaluate_ne_unknownVariable steady numbered name refused
  · intro undefined
    obtain ⟨name, refused⟩ := exists_evaluate_of_undefined undefined
    exact ⟨name, evaluate_eq_error_iff.mpr refused⟩

end Steady
end Evaluate

/-- After every run, an expression is refused because of the first variable in it that is not
defined. If there is none, it is refused because of the first unknown property in the text with
the values of its variables. If there is none of these either, it has a value or is refused
because of arithmetic. Turned or not, a board has the same properties, and a board that is not
made yet has none. -/
theorem first_unknown_reference_decides
    (text : Text)
    (operations : List Operation)
    (expression : Text) :
    let session := (new text).run operations
    let outcome := session.evaluate expression
    let undefined := undefinedAt session.scope expression
    ((∃ name, outcome = .error ⟨none, .unknownVariable name⟩) ↔ undefined.Nonempty) ∧
      (∀ offset name, IsLeast undefined offset → IsVariableAt expression offset name →
        outcome = .error ⟨none, .unknownVariable name.text⟩) ∧
      (undefined = ∅ → ∃ plain, withVariables session.scope expression = .ok plain ∧
        let unknown := unknownAt session.scope plain
        (((∃ id, outcome = .error ⟨none, .unknownBoard id⟩) ∨
            ∃ name id, outcome = .error ⟨none, .unknownProperty name id⟩) ↔ unknown.Nonempty) ∧
          (∀ offset id name, IsLeast unknown offset → IsPropertyAt plain offset id name →
            outcome = .error ⟨none,
              if (session.board? id.text).isSome then .unknownProperty name.text id.text
              else .unknownBoard id.text⟩) ∧
          (unknown = ∅ → (∃ value, outcome = .ok value) ∨
            ∃ refusal part, outcome = .error ⟨none, .arithmetic refusal part⟩) ∧
          ∀ id, session.IsUnmade id → unknown.Nonempty →
            (∀ offset other name, IsPropertyAt plain offset other name →
              IsUnknown session.scope other name → other.text = id) →
            outcome = .error ⟨none, .unknownBoard id⟩) ∧
      ∀ board ∈ session.boards, ∀ name id,
        (∃ value, Scope.property board name id = .ok value) ↔
          name ∈ Property.spellings.map String.toList := by
  intro session outcome undefined
  have steady : session.scope.IsSteady := (isSound_run text operations).isSteady
  refine ⟨evaluate_isUndefined_iff steady, fun offset name least place => ?_, fun none => ?_, ?_⟩
  · exact evaluate_eq_error_iff.mpr (evaluate_of_undefined least place)
  · obtain ⟨plain, numbered⟩ := withVariables_isOk_iff.mpr none
    refine ⟨plain, numbered, evaluate_isUnknown_iff steady numbered,
      fun offset id name least place => ?_, evaluate_of_known steady numbered,
      fun id unmade nonempty only => ?_⟩
    · exact evaluate_eq_error_iff.mpr (evaluate_of_unknown steady numbered least place)
    · obtain ⟨offset, other, name, place, isUnknown, refused⟩ :=
        exists_evaluate_of_unknown steady numbered nonempty
      rw [only offset other name place isUnknown, board?_eq_none_of_isUnmade unmade] at refused
      exact evaluate_eq_error_iff.mpr refused
  · intro board member name id
    have found := (isRegistered_run text operations).board?_eq member
    exact Scope.property_isOk_iff (steady board.id board found)

/-- A variable that is not defined, a property that no board has, and a board that the next
command makes. -/
theorem exists_first_unknown_reference :
    ((new []).run []).evaluate "$x + $y".toList =
        .error ⟨none, .unknownVariable "x".toList⟩ ∧
      ((new []).run [.draw 1 "board 1 x 2 x 3 \"a\"".toList]).evaluate "{b0.q} + {c.w}".toList =
        .error ⟨none, .unknownProperty "q".toList "b0".toList⟩ ∧
      ((new []).run []).IsUnmade "b0".toList ∧
      ((new []).run []).evaluate "{b0.w}".toList =
        .error ⟨none, .unknownBoard "b0".toList⟩ := by
  have lower {offsets : Set Nat} (member : 0 ∈ offsets) : IsLeast offsets 0 :=
    ⟨member, fun _ _ => Nat.zero_le _⟩
  let id : Identifier := ⟨"b0".toList, rfl, by decide⟩
  refine ⟨?_, ?_, ?_⟩
  · let name : Identifier := ⟨"x".toList, rfl, by decide⟩
    have place : IsVariableAt "$x + $y".toList 0 name := ⟨[], " + $y".toList, rfl, rfl, by decide⟩
    exact (first_unknown_reference_decides [] [] _).2.1 0 name (lower ⟨name, place, rfl⟩) place
  · let name : PropertyName := ⟨"q".toList, by decide, by decide⟩
    have place : IsPropertyAt "{b0.q} + {c.w}".toList 0 id name :=
      ⟨[], " + {c.w}".toList, rfl, rfl⟩
    let session := (new []).run [.draw 1 "board 1 x 2 x 3 \"a\"".toList]
    have kept := withVariables_of_not_mem
      (show '$' ∉ "{b0.q} + {c.w}".toList by decide) session.scope
    obtain ⟨plain, numbered, -, first, -⟩ := (first_unknown_reference_decides []
      [.draw 1 "board 1 x 2 x 3 \"a\"".toList] "{b0.q} + {c.w}".toList).2.2.1
        (withVariables_isOk_iff.mp ⟨_, kept⟩)
    cases kept.symm.trans numbered
    have registered : (session.board? "b0".toList).isSome = true := by decide +kernel
    exact (first 0 id name (lower ⟨id, name, place, Or.inr (by decide)⟩) place).trans
      (by rw [if_pos registered])
  · let name : PropertyName := ⟨"w".toList, by decide, by decide⟩
    have place : IsPropertyAt "{b0.w}".toList 0 id name := ⟨[], [], rfl, rfl⟩
    have unmade : ((new []).run []).IsUnmade "b0".toList := by
      refine Or.inl ⟨1, "board 1 x 2 x 3 \"a\"".toList, ⟨none, "1 x 2 x 3".toList, ['a'], []⟩, ?_⟩
      decide +kernel
    have kept := withVariables_of_not_mem (show '$' ∉ "{b0.w}".toList by decide) (new []).scope
    obtain ⟨plain, numbered, -, -, -, unknownBoard⟩ :=
      (first_unknown_reference_decides [] [] "{b0.w}".toList).2.2.1
        (withVariables_isOk_iff.mp ⟨_, kept⟩)
    cases kept.symm.trans numbered
    refine ⟨unmade, unknownBoard _ unmade ⟨0, id, name, place, Or.inl rfl⟩ ?_⟩
    intro offset other property found _
    have read := isReadAt_readProperty_iff.mpr ⟨other, property, rfl, found⟩
    rcases (Text.isReadAt_of_read readsApart_readProperty (readProperty_text id name [])).mp read
      with ⟨-, same⟩ | ⟨further, -, behind⟩
    · exact (PropertyReference.mk.inj same).1
    · exact absurd behind Text.not_isReadAt_nil

end Session
end Joinery
