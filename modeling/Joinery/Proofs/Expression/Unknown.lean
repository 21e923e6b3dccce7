import Joinery.Proofs.Expression.Cause
import Joinery.Proofs.Expression.Foreign
import Joinery.Proofs.Expression.Reference
import Joinery.Proofs.Text.Place

/-!
# Unknown references

An expression is refused because of the first variable in it that is not defined. If there is
none, it is refused because of the first property that no board has, in the text in which the
variables are replaced. Without any of these only arithmetic can refuse it.
-/

namespace Joinery

/-- Whether a cause says that arithmetic is wrong. -/
def Cause.IsArithmetic (cause : Cause) : Prop :=
  ∃ refusal text, cause = .arithmetic refusal text

theorem Cause.isArithmetic_arithmetic (refusal : Arithmetic.Refusal) (text : Text) :
    (Cause.arithmetic refusal text).IsArithmetic :=
  ⟨refusal, text, rfl⟩

/-! ## Names of properties -/

/-- The names of the properties of boards. -/
def Property.spellings : List String :=
  ["x", "y", "z", "w", "h", "d", "back", "angle", "right", "top", "cx", "cy", "x2", "y2"]

theorem Property.isSome_ofName?_iff {name : Text} :
    (ofName? name).isSome = true ↔ name ∈ spellings.map String.toList := by
  have same : spellings = names.map (·.1) := rfl
  rw [ofName?, Option.isSome_map, List.find?_isSome, same, List.map_map, List.mem_map]
  simp only [decide_eq_true_eq, Function.comp_apply]

namespace Scope

variable {board : Board Binary64} (turns : board.turn?.isSome = true)
include turns

/-- The angle of a board does not decide which properties it has. -/
theorem property_eq_error_iff {name id : Text} {cause : Cause} :
    property board name id = .error cause ↔
      name ∉ Property.spellings.map String.toList ∧ cause = .unknownProperty name id := by
  rw [← Property.isSome_ofName?_iff]
  by_cases known : (Property.ofName? name).isSome = true
  · obtain ⟨value, measured⟩ := Expression.exists_property known turns id
    simp [measured, known]
  · obtain ⟨turn, found⟩ := Option.isSome_iff_exists.mp turns
    have unknown : Property.ofName? name = none := by simpa using known
    simp only [property, unknown, found, Option.isNone_some, Option.isSome_none,
      Bool.false_eq_true, and_false, if_false, not_false_eq_true, true_and, Except.error.injEq]
    exact eq_comm

/-- A board has exactly the properties that have a name. -/
theorem property_isOk_iff {name id : Text} :
    (∃ value, property board name id = .ok value) ↔
      name ∈ Property.spellings.map String.toList := by
  constructor
  · rintro ⟨value, measured⟩
    by_contra unknown
    rw [(property_eq_error_iff turns).mpr ⟨unknown, rfl⟩] at measured
    cases measured
  · intro known
    exact Expression.exists_property (Property.isSome_ofName?_iff.mpr known) turns id

end Scope

namespace Expression

/-! ## Places of references -/

/-- A variable stands at an offset of a text: a dollar sign and a name, as long as possible. -/
def IsVariableAt (text : Text) (offset : Nat) (name : Identifier) : Prop :=
  ∃ before after, text = before ++ '$' :: (name.text ++ after) ∧ before.length = offset ∧
    Text.startsWith Text.isAsciiWordCharacter after = false

/-- A property of a board stands at an offset of a text. -/
def IsPropertyAt (text : Text) (offset : Nat) (id : Identifier) (name : PropertyName) : Prop :=
  ∃ before after, text = before ++ '{' :: (id.text ++ '.' :: (name.text ++ '}' :: after)) ∧
    before.length = offset

/-- What is read as a name is a name, as long as possible. -/
theorem exists_text_eq_identifier {text : Text} (nonempty : identifier text ≠ []) :
    ∃ (name : Identifier) (rest : Text), name.text = identifier text ∧
      text = name.text ++ rest ∧ Text.startsWith Text.isAsciiWordCharacter rest = false := by
  unfold identifier at nonempty ⊢
  split at nonempty
  next first others =>
    split at nonempty
    next starts =>
      refine ⟨⟨(first :: others).takeWhile Text.isAsciiWordCharacter, ?_, List.all_takeWhile⟩,
        (first :: others).dropWhile Text.isAsciiWordCharacter, ?_,
        List.takeWhile_append_dropWhile.symm, Text.startsWith_dropWhile _ _⟩
      · rw [List.takeWhile_cons_of_pos (Token.isAsciiWordCharacter_of_isAsciiWordStart starts)]
        exact starts
      · rw [if_pos starts]
    next => exact absurd rfl nonempty
  next => exact absurd rfl nonempty

/-- The names in a property that is read. -/
theorem exists_names_of_readProperty
    {brace : Char}
    {rest : Text}
    {reference : PropertyReference}
    {count : Nat}
    (found : readProperty brace rest = some (reference, count)) :
    ∃ (id : Identifier) (name : PropertyName), reference = ⟨id.text, name.text⟩ ∧
      brace :: rest.take count = (Operand.measured id name).text := by
  obtain ⟨whole, isId, nonempty, named, alphanumeric⟩ := exists_of_readProperty found
  rw [isId] at nonempty
  obtain ⟨id, -, same, -⟩ := exists_text_eq_identifier nonempty
  rw [← same] at isId
  refine ⟨id, ⟨reference.property, named, alphanumeric⟩, by rw [← isId], ?_⟩
  rw [whole, isId]
  rfl

/-- There is no dollar sign in a name. -/
theorem readsApart_readVariable : Text.ReadsApart readVariable := by
  rintro first rest value count found character member further
  obtain ⟨⟨-, nonempty⟩, same⟩ := Option.ite_none_right_eq_some.mp found
  cases same
  obtain ⟨name, after, same, whole, -⟩ := exists_text_eq_identifier nonempty
  rw [← same, whole, List.take_left] at member
  refine readVariable_eq_none ?_ further
  rintro rfl
  exact absurd (List.all_eq_true.mp name.continues _ member) (by decide)

/-- The names in a property have no braces. -/
theorem readsApart_readProperty : Text.ReadsApart readProperty := by
  rintro first rest reference count found character member further
  obtain ⟨id, name, -, whole⟩ := exists_names_of_readProperty found
  refine readProperty_eq_none ?_ further
  rintro rfl
  rw [(List.cons.inj whole).2] at member
  simp only [List.mem_append, List.mem_cons, List.not_mem_nil, or_false] at member
  rcases member with inId | point | inName | brace
  · exact absurd (List.all_eq_true.mp id.continues _ inId) (by decide)
  · exact absurd point (by decide)
  · exact absurd (List.all_eq_true.mp name.alphanumeric _ inName) (by decide)
  · exact absurd brace (by decide)

/-- Variables are read where they stand. -/
theorem isReadAt_readVariable_iff {text value : Text} {offset : Nat} :
    Text.IsReadAt readVariable text offset value ↔
      ∃ name : Identifier, name.text = value ∧ IsVariableAt text offset name := by
  constructor
  · rintro ⟨before, first, rest, count, whole, length, found⟩
    obtain ⟨⟨rfl, nonempty⟩, same⟩ := Option.ite_none_right_eq_some.mp found
    cases same
    obtain ⟨name, after, same, behind, stops⟩ := exists_text_eq_identifier nonempty
    exact ⟨name, same, before, after, by rw [whole, ← behind], length, stops⟩
  · rintro ⟨name, rfl, before, after, whole, length, stops⟩
    exact ⟨before, '$', _, _, whole, length, readVariable_text name stops⟩

/-- Properties are read where they stand. -/
theorem isReadAt_readProperty_iff {text : Text} {reference : PropertyReference} {offset : Nat} :
    Text.IsReadAt readProperty text offset reference ↔
      ∃ id name, reference = ⟨id.text, name.text⟩ ∧ IsPropertyAt text offset id name := by
  constructor
  · rintro ⟨before, first, rest, count, whole, length, found⟩
    obtain ⟨id, name, same, taken⟩ := exists_names_of_readProperty found
    refine ⟨id, name, same, before, rest.drop count, ?_, length⟩
    obtain ⟨rfl, inside⟩ := List.cons.inj taken
    conv_lhs => rw [whole, ← List.take_append_drop count rest, inside]
    simp
  · rintro ⟨id, name, rfl, before, after, whole, length⟩
    exact ⟨before, '{', _, _, whole, length, readProperty_text id name after⟩

/-! ## Unknown references -/

/-- Offsets of the variables in a text that are not defined. -/
def undefinedAt (scope : Scope) (text : Text) : Set Nat :=
  {offset | ∃ name, IsVariableAt text offset name ∧ scope.number? name.text = none}

/-- A reference to a board that is not there, or to a property that no board has. -/
def IsUnknown (scope : Scope) (id : Identifier) (name : PropertyName) : Prop :=
  scope.board? id.text = none ∨ name.text ∉ Property.spellings.map String.toList

/-- Offsets of the unknown properties in a text. -/
def unknownAt (scope : Scope) (text : Text) : Set Nat :=
  {offset | ∃ id name, IsPropertyAt text offset id name ∧ IsUnknown scope id name}

variable {scope : Scope} {text : Text} {offset : Nat}

theorem writeVariable_eq_error_iff {name : Text} {cause : Cause} :
    writeVariable scope name = .error cause ↔
      scope.number? name = none ∧ cause = .unknownVariable name := by
  cases known : scope.number? name with
  | some value => simp [writeVariable, known]
  | none => simp [writeVariable, known, eq_comm]

/-- A reference is refused because of its board, or else because of its property. -/
theorem writeProperty_eq_error_iff
    (steady : scope.IsSteady)
    {reference : PropertyReference}
    {cause : Cause} :
    writeProperty scope reference = .error cause ↔
      (scope.board? reference.id = none ∧ cause = .unknownBoard reference.id) ∨
        ((scope.board? reference.id).isSome = true ∧
          reference.property ∉ Property.spellings.map String.toList ∧
          cause = .unknownProperty reference.property reference.id) := by
  cases found : scope.board? reference.id with
  | none => simp [writeProperty, found, eq_comm]
  | some board =>
      simp only [writeProperty, found, bind_eq_error, reduceCtorEq, false_and, false_or,
        Option.isSome_some, true_and, Scope.property_eq_error_iff (steady _ board found)]
      simp [pure, Except.pure]

theorem undefinedAt_eq (scope : Scope) (text : Text) :
    undefinedAt scope text = Text.refusedAt readVariable (writeVariable scope) text := by
  ext offset
  constructor
  · rintro ⟨name, place, undefined⟩
    exact ⟨name.text, _, isReadAt_readVariable_iff.mpr ⟨name, rfl, place⟩,
      writeVariable_eq_error_iff.mpr ⟨undefined, rfl⟩⟩
  · rintro ⟨_, cause, read, failed⟩
    obtain ⟨name, rfl, place⟩ := isReadAt_readVariable_iff.mp read
    exact ⟨name, place, (writeVariable_eq_error_iff.mp failed).1⟩

theorem unknownAt_eq (steady : scope.IsSteady) (text : Text) :
    unknownAt scope text = Text.refusedAt readProperty (writeProperty scope) text := by
  ext offset
  constructor
  · rintro ⟨id, name, place, unknown⟩
    have read := isReadAt_readProperty_iff.mpr ⟨id, name, rfl, place⟩
    cases found : scope.board? id.text with
    | none =>
        exact ⟨_, _, read, (writeProperty_eq_error_iff steady).mpr (Or.inl ⟨found, rfl⟩)⟩
    | some board =>
        have missing := unknown.resolve_left (by rw [found]; exact Option.some_ne_none board)
        exact ⟨_, _, read, (writeProperty_eq_error_iff steady).mpr
          (Or.inr ⟨by rw [found]; rfl, missing, rfl⟩)⟩
  · rintro ⟨_, cause, read, failed⟩
    obtain ⟨id, name, rfl, place⟩ := isReadAt_readProperty_iff.mp read
    refine ⟨id, name, place, ?_⟩
    rcases (writeProperty_eq_error_iff steady).mp failed with ⟨absent, -⟩ | ⟨-, missing, -⟩
    · exact Or.inl absent
    · exact Or.inr missing

/-! ## Refused expressions -/

theorem withVariables_isOk_iff :
    (∃ plain, withVariables scope text = .ok plain) ↔ undefinedAt scope text = ∅ := by
  rw [undefinedAt_eq]
  exact Text.replace_isOk_iff_refusedAt_eq_empty readsApart_readVariable

/-- The first variable that is not defined ends the pass over the variables. -/
theorem withVariables_eq_error
    {name : Identifier}
    (least : IsLeast (undefinedAt scope text) offset)
    (place : IsVariableAt text offset name) :
    withVariables scope text = .error (.unknownVariable name.text) := by
  rw [undefinedAt_eq] at least
  obtain ⟨cause, failed, stopped⟩ := Text.replace_eq_error_of_isLeast readsApart_readVariable
    least (isReadAt_readVariable_iff.mpr ⟨name, rfl, place⟩)
  rwa [(writeVariable_eq_error_iff.mp failed).2] at stopped

/-- An expression is refused because of its first variable that is not defined. -/
theorem evaluate_of_undefined
    {name : Identifier}
    (least : IsLeast (undefinedAt scope text) offset)
    (place : IsVariableAt text offset name) :
    evaluate scope text = .error (.unknownVariable name.text) :=
  bind_eq_error.mpr (Or.inl (withVariables_eq_error least place))

section Steady

variable (steady : scope.IsSteady)
include steady

theorem withProperties_isOk_iff :
    (∃ plain, withProperties scope text = .ok plain) ↔ unknownAt scope text = ∅ := by
  rw [unknownAt_eq steady]
  exact Text.replace_isOk_iff_refusedAt_eq_empty readsApart_readProperty

/-- The first unknown property ends the pass over the properties. -/
theorem withProperties_eq_error
    {id : Identifier}
    {name : PropertyName}
    (least : IsLeast (unknownAt scope text) offset)
    (place : IsPropertyAt text offset id name) :
    withProperties scope text = .error
      (if (scope.board? id.text).isSome then .unknownProperty name.text id.text
        else .unknownBoard id.text) := by
  rw [unknownAt_eq steady] at least
  obtain ⟨cause, failed, stopped⟩ := Text.replace_eq_error_of_isLeast readsApart_readProperty
    least (isReadAt_readProperty_iff.mpr ⟨id, name, rfl, place⟩)
  refine stopped.trans (congrArg Except.error ?_)
  rcases (writeProperty_eq_error_iff steady).mp failed with ⟨absent, rfl⟩ | ⟨there, -, rfl⟩
  · rw [absent]
    rfl
  · rw [if_pos there]

/-- Without such a variable it is refused because of its first unknown property. -/
theorem evaluate_of_unknown
    {plain : Text}
    {id : Identifier}
    {name : PropertyName}
    (numbered : withVariables scope text = .ok plain)
    (least : IsLeast (unknownAt scope plain) offset)
    (place : IsPropertyAt plain offset id name) :
    evaluate scope text = .error
      (if (scope.board? id.text).isSome then .unknownProperty name.text id.text
        else .unknownBoard id.text) :=
  bind_eq_error.mpr (Or.inr ⟨plain, numbered,
    bind_eq_error.mpr (Or.inl (withProperties_eq_error steady least place))⟩)

/-- Without unknown references it is refused because of arithmetic only. -/
theorem failsWith_evaluate_of_known
    {plain : Text}
    (numbered : withVariables scope text = .ok plain)
    (known : unknownAt scope plain = ∅) :
    FailsWith Cause.IsArithmetic (evaluate scope text) := by
  obtain ⟨replaced, measured⟩ := (withProperties_isOk_iff steady).mpr known
  intro cause failed
  rcases bind_eq_error.mp failed with stopped | ⟨_, same, failed⟩
  · rw [numbered] at stopped
    cases stopped
  · obtain rfl : plain = _ := Except.ok.inj (numbered.symm.trans same)
    rcases bind_eq_error.mp failed with stopped | ⟨_, -, failed⟩
    · rw [measured] at stopped
      cases stopped
    · exact failsWith_withDistances Cause.isArithmetic_arithmetic _ cause failed

end Steady

end Expression
end Joinery
