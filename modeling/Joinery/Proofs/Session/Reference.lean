import Joinery.Proofs.Expression.Reference
import Joinery.Proofs.Session.Registry

/-!
# References to boards

The id of a board may have letters that no identifier in an expression has: those that stand
for ASCII letters when case does not count. A board with such an id cannot be referred to.
All other boards can, by every property.
-/

namespace Joinery

/-! ## Characters of ids -/

namespace Heading

/-- A text that can be the id of a board. -/
structure IsId (id : Text) : Prop where
  starts : Text.startsWith
    (fun character => Text.isAsciiWordStart character || isLookAlike character) id = true
  continues : id.all
    (fun character => Text.isAsciiWordCharacter character || isLookAlike character) = true

theorem isId_idAt {text : Text} (nonempty : idAt text ≠ []) : IsId (idAt text) := by
  unfold idAt at nonempty ⊢
  split at nonempty
  · exact absurd rfl nonempty
  next first rest =>
    split at nonempty
    next starts =>
      rw [if_pos starts]
      refine ⟨starts, ?_⟩
      rw [List.all_cons, List.all_takeWhile, Bool.and_true]
      exact Bool.or_eq_true_iff.mpr ((Bool.or_eq_true_iff.mp starts).imp_left
        Token.isAsciiWordCharacter_of_isAsciiWordStart)
    next => exact absurd rfl nonempty

theorem id_of_body?
    {id : Option Text}
    {before text : Text}
    {heading : Heading}
    (found : body? id before text = some heading) :
    heading.id = id := by
  induction text generalizing before with
  | nil => cases found
  | cons character rest inductionHypothesis =>
      simp only [body?, Option.ite_none_left_eq_some] at found
      obtain ⟨-, found⟩ := found
      split at found
      · cases found
        rfl
      · exact inductionHypothesis found

/-- The id in a heading can be the id of a board. -/
theorem isId_of_ofLine?
    {line id : Text}
    {heading : Heading}
    (found : ofLine? line = some heading)
    (named : heading.id = some id) :
    IsId id := by
  unfold ofLine? at found
  split at found
  · split at found
    · cases found
    next bracketed rest known =>
      obtain ⟨skipped, -, -, found⟩ := exists_of_firstSuffix? found
      rw [id_of_body? found] at named
      subst named
      unfold bracketedId? at known
      split at known
      · obtain ⟨⟨nonempty, -⟩, same⟩ := Option.ite_none_right_eq_some.mp known
        cases same
        exact isId_idAt nonempty
      · cases known
  · cases found

namespace IsId

variable {id : Text} (isId : IsId id)
include isId

/-- No mark of an expression is in an id. -/
theorem not_mem
    {mark : Char}
    (isMark : mark ∈ ['$', '.', '(', '{']) :
    mark ∉ id := by
  have stops : ['$', '.', '(', '{'].all (fun mark =>
      !(Text.isAsciiWordCharacter mark || isLookAlike mark)) = true := by decide
  intro member
  have inside := List.all_eq_true.mp isId.continues mark member
  have outside := List.all_eq_true.mp stops mark isMark
  rw [inside] at outside
  cases outside

theorem exists_lookAlike (foreign : id.all Text.isAsciiWordCharacter = false) :
    ∃ character ∈ id, isLookAlike character = true := by
  obtain ⟨character, member, notAscii⟩ := List.all_eq_false.mp foreign
  have inside := List.all_eq_true.mp isId.continues character member
  exact ⟨character, member, (Bool.or_eq_true_iff.mp inside).resolve_left notAscii⟩

/-- An id of ASCII is a name in an expression. -/
theorem exists_identifier (ascii : id.all Text.isAsciiWordCharacter = true) :
    ∃ name : Expression.Identifier, name.text = id := by
  refine ⟨⟨id, ?_, ascii⟩, rfl⟩
  cases known : id with
  | nil =>
      have starts := isId.starts
      rw [known] at starts
      cases starts
  | cons first rest =>
      have starts := isId.starts
      rw [known, List.all_cons, Bool.and_eq_true] at ascii
      rw [known, Text.startsWith_cons] at starts
      rw [Text.startsWith_cons]
      refine (Bool.or_eq_true_iff.mp starts).resolve_right fun alike => ?_
      have range := Token.toNat_of_isAsciiWordCharacter ascii.1
      have points := List.contains_iff_mem.mp alike
      simp only [lookAlikes, List.mem_cons, List.not_mem_nil, or_false] at points
      omega

end IsId
end Heading

namespace Session

/-- A generated id is of ASCII. -/
theorem all_autoId (count : Nat) : (autoId count).all Text.isAsciiWordCharacter = true := by
  rw [autoId, List.all_cons, Bool.and_eq_true]
  refine ⟨by decide, List.all_eq_true.mpr fun character member => ?_⟩
  have digit := Nat.isDigit_of_mem_toDigits (by decide) (by decide) member
  rw [Text.isAsciiWordCharacter, Char.isAlphanum, digit, Bool.or_true, Bool.true_or]

theorem isId_autoId (count : Nat) : Heading.IsId (autoId count) := by
  refine ⟨by rw [autoId, Text.startsWith_cons]; decide, ?_⟩
  refine List.all_eq_true.mpr fun character member => ?_
  rw [List.all_eq_true.mp (all_autoId count) character member, Bool.true_or]

/-- The id of a board is written in its command or generated. -/
theorem exists_id_of_mem_boards
    {text : Text}
    {operations : List Operation}
    {board : Board Binary64}
    (member : board ∈ ((new text).run operations).boards) :
    ∃ creation ∈ (new text).creations operations, creation.board? = some board ∧
      ∃ heading, Heading.ofLine? creation.text = some heading ∧
        (heading.id = some board.id ∨ board.id = autoId creation.before.boards.length) := by
  rw [boards_run] at member
  obtain ⟨creation, isCreation, placed⟩ := List.mem_filterMap.mp member
  obtain ⟨heading, headed, named, -⟩ := creation.id_and_color placed
  refine ⟨creation, isCreation, placed, heading, headed, ?_⟩
  cases own : heading.id with
  | some id =>
      rw [own] at named
      exact Or.inl (congrArg some named.symm)
  | none =>
      rw [own] at named
      exact Or.inr named

theorem isId_of_mem_boards
    {text : Text}
    {operations : List Operation}
    {board : Board Binary64}
    (member : board ∈ ((new text).run operations).boards) :
    Heading.IsId board.id := by
  obtain ⟨creation, -, -, heading, headed, own | generated⟩ := exists_id_of_mem_boards member
  · exact Heading.isId_of_ofLine? headed own
  · rw [generated]
    exact isId_autoId _

/-- After every run, a reference to a property of a board is the number that the property
is written as, if the id of the board is of ASCII. Otherwise a command gave the board an id
with a letter that is not, and the reference is not recognised. -/
theorem ascii_ids_are_recognised
    {text name : Text}
    {operations : List Operation}
    {board : Board Binary64}
    (member : board ∈ ((new text).run operations).boards)
    (isProperty : (Property.ofName? name).isSome = true) :
    let session := (new text).run operations
    let reference : Text := '{' :: (board.id ++ '.' :: (name ++ ['}']))
    (∃ value, Scope.property board name board.id = .ok value ∧
        (board.id.all Text.isAsciiWordCharacter = true →
          session.evaluate reference =
            (evaluateArithmetic value.plainText).mapError (⟨none, ·⟩))) ∧
      (board.id.all Text.isAsciiWordCharacter = false →
        session.evaluate reference = .error ⟨none, .arithmetic .notArithmetic reference⟩ ∧
          ∃ creation ∈ (new text).creations operations, creation.board? = some board ∧
            ∃ heading, Heading.ofLine? creation.text = some heading ∧
              heading.id = some board.id ∧
              ∃ character ∈ board.id, Heading.isLookAlike character = true) := by
  intro session reference
  have isId := isId_of_mem_boards member
  have found : session.board? board.id = some board :=
    (isRegistered_run text operations).board?_eq member
  have turns := (isSound_run text operations).isSteady board.id board found
  obtain ⟨property, rfl⟩ := Expression.exists_propertyName isProperty
  refine ⟨?_, fun foreign => ⟨?_, ?_⟩⟩
  · obtain ⟨value, measured⟩ := Expression.exists_property isProperty turns board.id
    refine ⟨value, measured, fun ascii => ?_⟩
    obtain ⟨id, same⟩ := isId.exists_identifier ascii
    rw [← same] at found measured
    have read := @Expression.evaluate_reference session.scope _ _ _ _ found measured
    rw [same] at read
    exact congrArg (Except.mapError _) read
  · exact congrArg (Except.mapError _)
      (Expression.evaluate_unrecognised foreign (fun _ => isId.not_mem) property session.scope)
  · obtain ⟨creation, isCreation, placed, heading, headed, own | generated⟩ :=
      exists_id_of_mem_boards member
    · exact ⟨creation, isCreation, placed, heading, headed, own,
        isId.exists_lookAlike foreign⟩
    · rw [generated, all_autoId] at foreign
      cases foreign

/-- A board without an id is referred to by the id that is generated for it. -/
theorem exists_recognised_reference :
    ((new []).run [.draw 1 "board 2.5 x 1 x 1 \"a\"".toList]).evaluate "{b0.w}".toList =
      .ok (5 / 2) := by
  have boards : ((new []).run [.draw 1 "board 2.5 x 1 x 1 \"a\"".toList]).boards.map
      (fun board => (board.id, board.width)) = [("b0".toList, 5 / 2)] := by
    decide +kernel
  obtain ⟨board, member, same⟩ := List.mem_map.mp (boards.symm ▸ List.mem_singleton_self _)
  obtain ⟨id, width⟩ := Prod.mk.inj same
  obtain ⟨⟨value, measured, recognised⟩, -⟩ :=
    @ascii_ids_are_recognised [] ['w'] _ board member (by decide)
  have known : value = 5 / 2 := (Except.ok.inj measured).symm.trans width
  rw [id, known] at recognised
  refine (recognised (by decide)).trans ?_
  decide +kernel

/-- A board whose id has the long s cannot be referred to. -/
theorem exists_unrecognised_reference :
    ¬ ∀ (text name : Text) (operations : List Operation) (board : Board Binary64),
      board ∈ ((new text).run operations).boards → (Property.ofName? name).isSome = true →
        ∃ value, Scope.property board name board.id = .ok value ∧
          ((new text).run operations).evaluate
              ('{' :: (board.id ++ '.' :: (name ++ ['}']))) =
            (evaluateArithmetic value.plainText).mapError (⟨none, ·⟩) := by
  intro always
  have boards : ((new []).run [.draw 1 "board[ſ] 1 x 2 x 3 \"a\"".toList]).boards.map
      (fun board => (board.id, board.width)) = [("ſ".toList, 1)] := by
    decide +kernel
  obtain ⟨board, member, same⟩ := List.mem_map.mp (boards.symm ▸ List.mem_singleton_self _)
  obtain ⟨id, width⟩ := Prod.mk.inj same
  obtain ⟨value, measured, recognised⟩ := always [] ['w'] _ board member (by decide)
  have known : value = 1 := (Except.ok.inj measured).symm.trans width
  rw [id, known] at recognised
  revert recognised
  decide +kernel

end Session
end Joinery
