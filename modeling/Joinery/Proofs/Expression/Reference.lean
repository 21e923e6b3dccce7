import Joinery.Proofs.Expression.Substitution

/-!
# References to properties

An expression that is nothing but a property in braces. It is recognised if the id is a name
of ASCII. Any other id leaves the braces in the text, and arithmetic has none.
-/

namespace Joinery
namespace Expression

/-- The characters of a reference to a property. -/
def PropertyReference.text (reference : PropertyReference) : Text :=
  '{' :: (reference.id ++ '.' :: (reference.property ++ ['}']))

/-! ## Texts without references -/

/-- A text is kept by a pass that reads nothing in it. -/
theorem replace_of_unread
    {α : Type}
    {read : Text.Reader α}
    {text : Text}
    (unread : ∀ character rest, character :: rest <:+ text → read character rest = none)
    (write : α → Except Cause Text) :
    Text.replace write (Text.pieces read text) = .ok text := by
  induction text with
  | nil => rfl
  | cons character rest inductionHypothesis =>
      rw [Text.pieces_of_read_eq_none (unread _ _ (List.suffix_refl _)), Text.replace,
        inductionHypothesis fun other further isSuffix =>
          unread other further (isSuffix.trans (List.suffix_cons _ _))]
      rfl

theorem withVariables_of_not_mem
    {text : Text}
    (plain : '$' ∉ text)
    (scope : Scope) :
    withVariables scope text = .ok text :=
  replace_of_unread (fun _ rest isSuffix => readVariable_eq_none
    (fun same => plain (isSuffix.subset (same ▸ List.mem_cons_self))) rest) _

theorem withProperties_of_not_mem
    {text : Text}
    (plain : '{' ∉ text)
    (scope : Scope) :
    withProperties scope text = .ok text :=
  replace_of_unread (fun _ rest isSuffix => readProperty_eq_none
    (fun same => plain (isSuffix.subset (same ▸ List.mem_cons_self))) rest) _

/-- Without a parenthesis there is no distance. -/
theorem withDistances_of_not_mem {text : Text} (plain : '(' ∉ text) :
    withDistances text = .ok text := by
  refine replace_of_unread (fun character rest isSuffix => ?_) _
  unfold readDistance
  split
  next second third arguments _ =>
    exact absurd (isSuffix.subset (by simp)) plain
  next => rfl

/-- A number has no distance in its text. -/
theorem withDistances_plainText (value : Binary64) :
    withDistances value.plainText = .ok value.plainText :=
  replace_of_unread (fun _ rest isSuffix => readDistance_eq_none
    (Binary64.toLower_ne_of_mem_plainText (isSuffix.subset List.mem_cons_self)) rest) _

/-! ## Recognised references -/

/-- The name of a property can stand in a reference. -/
theorem exists_propertyName {name : Text} (known : (Property.ofName? name).isSome = true) :
    ∃ property : PropertyName, property.text = name := by
  have plain : Property.names.all (fun entry =>
      entry.1.toList != [] && entry.1.toList.all Char.isAlphanum) = true := by
    decide
  rw [Property.ofName?, Option.isSome_map, List.find?_isSome] at known
  obtain ⟨entry, member, same⟩ := known
  have isName := List.all_eq_true.mp plain entry member
  rw [of_decide_eq_true same, Bool.and_eq_true, bne_iff_ne] at isName
  exact ⟨⟨name, isName.1, isName.2⟩, rfl⟩

/-- A board that can be turned has every property. -/
theorem exists_property
    {board : Board Binary64}
    {name : Text}
    (known : (Property.ofName? name).isSome = true)
    (turns : board.turn?.isSome = true)
    (id : Text) :
    ∃ value, Scope.property board name id = .ok value := by
  obtain ⟨property, known⟩ := Option.isSome_iff_exists.mp known
  obtain ⟨turn, found⟩ := Option.isSome_iff_exists.mp turns
  simp only [Scope.property, known, found]
  split
  · exact ⟨_, rfl⟩
  · exact ⟨_, rfl⟩

/-- A reference to a known property of a board has the value of the property. -/
theorem evaluate_reference
    {scope : Scope}
    {id : Identifier}
    {name : PropertyName}
    {board : Board Binary64}
    {value : Binary64}
    (found : scope.board? id.text = some board)
    (measured : Scope.property board name.text id.text = .ok value) :
    evaluate scope (PropertyReference.text ⟨id.text, name.text⟩) =
      evaluateArithmetic value.plainText := by
  have known : (Operand.measured id name).value? scope = some value := by
    rw [Operand.value?, found, Option.bind_eq_bind, Option.bind_some, measured]
    rfl
  have numbered : withVariables scope (PropertyReference.text ⟨id.text, name.text⟩) =
      .ok (PropertyReference.text ⟨id.text, name.text⟩) := by
    refine withVariables_of_not_mem (fun member => ?_) scope
    exact absurd (@Operand.mem_text_measured id name _ member) (by decide)
  have replaced : withProperties scope (PropertyReference.text ⟨id.text, name.text⟩) =
      .ok value.plainText := by
    have pass := replaces_measured known [] (Text.startsWith_nil _)
    rw [List.append_nil] at pass
    exact pass.trans (congrArg Except.ok (List.append_nil _))
  rw [evaluate, numbered]
  change withProperties scope _ >>= _ = _
  rw [replaced]
  change withDistances _ >>= _ = _
  rw [withDistances_plainText]
  rfl

/-! ## References that are not recognised -/

theorem identifier_cases (text : Text) :
    identifier text = [] ∨ identifier text = text.takeWhile Text.isAsciiWordCharacter := by
  unfold identifier
  split
  · split
    · exact Or.inr rfl
    · exact Or.inl rfl
  · exact Or.inl rfl

/-- A reference is not read if its id does not end in front of a point. -/
theorem readProperty_eq_none_of_head?
    {rest : Text}
    (pointless : (rest.drop (identifier rest).length).head? ≠ some '.') :
    readProperty '{' rest = none := by
  unfold readProperty
  dsimp only
  split
  · split
    next after behind =>
      rw [behind] at pointless
      exact absurd rfl pointless
    next => rfl
  · rfl

section Unrecognised

variable {id : Text} (foreign : id.all Text.isAsciiWordCharacter = false)
include foreign

/-- A reference is not read if its id has a character that no name has. -/
theorem readProperty_eq_none_of_foreign (pointless : '.' ∉ id) (rest : Text) :
    readProperty '{' (id ++ rest) = none := by
  obtain ⟨name, others, rfl, isName, stops⟩ :=
    Text.exists_append_of_all Text.isAsciiWordCharacter id
  cases others with
  | nil =>
      rw [List.append_nil, isName] at foreign
      cases foreign
  | cons first further =>
      -- The name ends inside the id, in front of a character that is no point.
      have taken := Text.takeWhile_append_eq isName
        (show Text.startsWith Text.isAsciiWordCharacter (first :: further ++ rest) = false from
          stops)
      refine readProperty_eq_none_of_head? ?_
      rw [List.append_assoc]
      rcases identifier_cases (name ++ (first :: further ++ rest)) with none | whole
      · rw [none]
        intro found
        refine pointless (List.mem_of_mem_head? ?_)
        rwa [List.length_nil, List.drop_zero, ← List.append_assoc,
          List.head?_append_of_ne_nil _ (by simp)] at found
      · rw [whole, taken, List.drop_left]
        rintro found
        cases found
        exact pointless (by simp)

/-- A reference whose id has a character that no name has is left to arithmetic, which
refuses it. -/
theorem evaluate_unrecognised
    (marks : ∀ mark ∈ ['$', '.', '(', '{'], mark ∉ id)
    (name : PropertyName)
    (scope : Scope) :
    evaluate scope (PropertyReference.text ⟨id, name.text⟩) =
      .error (.arithmetic .notArithmetic (PropertyReference.text ⟨id, name.text⟩)) := by
  have alphanumeric {mark : Char} (isMark : mark.isAlphanum = false) : mark ∉ name.text := by
    intro member
    rw [List.all_eq_true.mp name.alphanumeric mark member] at isMark
    cases isMark
  have absent {mark : Char} (isMark : mark ∈ ['$', '.', '(', '{'])
      (different : mark ∉ ['{', '.', '}'] ∧ mark.isAlphanum = false) :
      mark ∉ PropertyReference.text ⟨id, name.text⟩ := by
    have outside := marks mark isMark
    have outsideName := alphanumeric different.2
    simp only [List.mem_cons, List.not_mem_nil, or_false, not_or] at different
    simp [PropertyReference.text, outside, outsideName, different]
  have unread : withProperties scope (PropertyReference.text ⟨id, name.text⟩) =
      .ok (PropertyReference.text ⟨id, name.text⟩) := by
    have inside : '{' ∉ id ++ '.' :: (name.text ++ ['}']) := by
      have outside := marks '{' (by decide)
      have outsideName := @alphanumeric '{' (by decide)
      simp [outside, outsideName]
    refine replace_of_unread (fun character rest isSuffix => ?_) _
    rcases List.suffix_cons_iff.mp isSuffix with whole | further
    · cases whole
      exact readProperty_eq_none_of_foreign foreign (marks '.' (by decide)) _
    · refine readProperty_eq_none ?_ rest
      rintro rfl
      exact inside (further.subset List.mem_cons_self)
  have trimmed : Text.strip (PropertyReference.text ⟨id, name.text⟩) =
      PropertyReference.text ⟨id, name.text⟩ := by
    refine Text.strip_eq_self ⟨rfl, ?_⟩
    simp [PropertyReference.text, Text.startsWith]
    decide
  rw [evaluate, withVariables_of_not_mem (absent (by decide) (by decide))]
  change withProperties scope _ >>= _ = _
  rw [unread]
  change withDistances _ >>= _ = _
  rw [withDistances_of_not_mem (absent (by decide) (by decide))]
  change evaluateArithmetic _ = _
  have braced : (PropertyReference.text ⟨id, name.text⟩).all Arithmetic.isAllowed = false := by
    rw [PropertyReference.text, List.all_cons, show Arithmetic.isAllowed '{' = false by decide,
      Bool.false_and]
  simp only [evaluateArithmetic, trimmed, Arithmetic.evaluate, Arithmetic.rawValue, braced,
    Bool.not_false, or_true, if_true]
  rfl

end Unrecognised

end Expression
end Joinery
