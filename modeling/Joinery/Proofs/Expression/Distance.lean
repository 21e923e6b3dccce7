import Joinery.Proofs.Arithmetic.Parenthesis
import Joinery.Proofs.Expression.Reference
import Joinery.Proofs.Text.Spelling

/-!
# Distances of arithmetic

A distance whose arguments are plain arithmetic. Arguments are separated by the next comma,
and arithmetic has none. But the last argument ends at the next closing parenthesis, and
arithmetic may have one of its own: then what is left of the argument is not complete, and the
expression is refused.
-/

namespace Joinery
namespace Expression

/-- The characters of a distance. -/
def DistanceReference.text (name : Text) (reference : DistanceReference) : Text :=
  name ++ '(' :: (reference.x1 ++ ',' :: (reference.y1 ++ ',' :: (reference.x2 ++ ',' ::
    (reference.y2 ++ [')']))))

/-- The arguments of a distance have values as plain arithmetic. -/
structure DistanceReference.Measures
    (reference : DistanceReference)
    (x1 y1 x2 y2 : Binary64) : Prop where
  x1 : evaluateArithmetic reference.x1 = .ok x1
  y1 : evaluateArithmetic reference.y1 = .ok y1
  x2 : evaluateArithmetic reference.x2 = .ok x2
  y2 : evaluateArithmetic reference.y2 = .ok y2

/-! ## Reading arguments -/

theorem partBefore?_append
    {mark : Char}
    {part : Text}
    (absent : mark ∉ part)
    (nonempty : part ≠ [])
    (rest : Text) :
    partBefore? mark (part ++ mark :: rest) = some (part, rest) := by
  have all : part.all (· != mark) = true := by
    refine List.all_eq_true.mpr fun character member => bne_iff_ne.mpr ?_
    rintro rfl
    exact absent member
  have stops : Text.startsWith (· != mark) (mark :: rest) = false := by simp
  have parts : (part ++ mark :: rest).span (· != mark) = (part, mark :: rest) := by
    rw [List.span_eq_takeWhile_dropWhile, Text.takeWhile_append_eq all stops,
      Text.dropWhile_append_eq all stops]
  rw [partBefore?, parts]
  cases part with
  | nil => exact absurd rfl nonempty
  | cons first others => rfl

/-- A text that is read as a whole in front of the next mark. -/
structure IsArgument (mark : Char) (text : Text) : Prop where
  absent : mark ∉ text
  nonempty : text ≠ []

theorem IsArgument.partBefore?_eq
    {mark : Char}
    {part : Text}
    (isArgument : IsArgument mark part)
    (rest : Text) :
    partBefore? mark (part ++ mark :: rest) = some (part, rest) :=
  partBefore?_append isArgument.absent isArgument.nonempty rest

/-- The letters of the name of the distance. -/
theorem exists_letters (name : Text.Spelling "len".toList) :
    ∃ first second third : Char, name.text = [first, second, third] ∧ first.toLower = 'l' ∧
      second.toLower = 'e' ∧ third.toLower = 'n' := by
  obtain ⟨first, others, whole, isFirst, behind⟩ := List.map_eq_cons_iff.mp name.spells
  obtain ⟨second, further, rfl, isSecond, behind⟩ := List.map_eq_cons_iff.mp behind
  obtain ⟨third, last, rfl, isThird, behind⟩ := List.map_eq_cons_iff.mp behind
  rw [List.map_eq_nil_iff.mp behind] at whole
  exact ⟨first, second, third, whole, isFirst, isSecond, isThird⟩

/-- A distance is read as a whole. -/
theorem pieces_distance
    (name : Text.Spelling "len".toList)
    {reference : DistanceReference}
    (x1 : IsArgument ',' reference.x1)
    (y1 : IsArgument ',' reference.y1)
    (x2 : IsArgument ',' reference.x2)
    (y2 : IsArgument ')' reference.y2)
    (rest : Text) :
    Text.pieces readDistance (reference.text name.text ++ rest) =
      .found reference (reference.text name.text) :: Text.pieces readDistance rest := by
  obtain ⟨first, second, third, letters, isFirst, isSecond, isThird⟩ := exists_letters name
  have text : reference.text name.text = first :: second :: third :: '(' :: (reference.x1 ++
      ',' :: (reference.y1 ++ ',' :: (reference.x2 ++ ',' :: (reference.y2 ++ [')'])))) := by
    rw [DistanceReference.text, letters]
    rfl
  generalize behind : second :: third :: '(' :: (reference.x1 ++ ',' :: (reference.y1 ++ ',' ::
    (reference.x2 ++ ',' :: (reference.y2 ++ [')'])))) = others at text
  have found : readDistance first (others ++ rest) = some (reference, others.length) := by
    simp only [← behind, List.cons_append, List.append_assoc, List.nil_append, readDistance,
      isFirst, isSecond, isThird, guard, and_self, if_true, x1.partBefore?_eq,
      y1.partBefore?_eq, x2.partBefore?_eq, y2.partBefore?_eq, Option.bind_eq_bind,
      Option.bind_some, Option.pure_def]
    congr 2
    simp
    omega
  rw [text, List.cons_append, Text.pieces_of_read_eq_some found, List.take_left, List.drop_left]

/-! ## Values of distances -/

section Values

variable {reference : DistanceReference} {x1 y1 x2 y2 : Binary64}
  (measures : reference.Measures x1 y1 x2 y2)

/-- Arithmetic with a value is an argument in front of a comma. -/
theorem isArgument_of_evaluateArithmetic
    {text : Text}
    {value : Binary64}
    (evaluated : evaluateArithmetic text = .ok value) :
    IsArgument ',' text := by
  obtain ⟨nonempty, allowed⟩ := Arithmetic.isAllowed_of_evaluateArithmetic evaluated
  exact ⟨fun member => absurd (allowed ',' member) (by decide), nonempty⟩

include measures

/-- The characters of a distance of arithmetic. -/
theorem mem_text
    (name : Text.Spelling "len".toList)
    {character : Char}
    (member : character ∈ reference.text name.text) :
    Text.isAsciiWordCharacter character = true ∨ Arithmetic.isAllowed character = true ∨
      character = ',' := by
  have argument {part : Text} {value : Binary64} (evaluated : evaluateArithmetic part = .ok value)
      (inside : character ∈ part) : Text.isAsciiWordCharacter character = true ∨
        Arithmetic.isAllowed character = true ∨ character = ',' :=
    Or.inr (Or.inl ((Arithmetic.isAllowed_of_evaluateArithmetic evaluated).2 character inside))
  simp only [DistanceReference.text, List.mem_append, List.mem_cons, List.not_mem_nil, or_false]
    at member
  rcases member with inName | rfl | inX1 | rfl | inY1 | rfl | inX2 | rfl | inY2 | rfl
  · exact Or.inl (List.all_eq_true.mp (name.all_isAsciiWordCharacter (by decide)) _ inName)
  · exact Or.inr (Or.inl (by decide))
  · exact argument measures.x1 inX1
  · exact Or.inr (Or.inr rfl)
  · exact argument measures.y1 inY1
  · exact Or.inr (Or.inr rfl)
  · exact argument measures.x2 inX2
  · exact Or.inr (Or.inr rfl)
  · exact argument measures.y2 inY2
  · exact Or.inr (Or.inl (by decide))

/-- There are no references in a distance of arithmetic. -/
theorem evaluate_text (name : Text.Spelling "len".toList) (scope : Scope) :
    evaluate scope (reference.text name.text) =
      withDistances (reference.text name.text) >>= evaluateArithmetic := by
  have plain : '$' ∉ reference.text name.text := fun member =>
    absurd (mem_text measures name member) (by decide)
  have flat : '{' ∉ reference.text name.text := fun member =>
    absurd (mem_text measures name member) (by decide)
  rw [evaluate, withVariables_of_not_mem plain]
  change withProperties scope _ >>= _ = _
  rw [withProperties_of_not_mem flat]
  rfl

/-- A distance of arithmetic without parentheses at its end has the value of the distance. -/
theorem withDistances_text
    (name : Text.Spelling "len".toList)
    (absent : ')' ∉ reference.y2) :
    withDistances (reference.text name.text) = .ok ((x2 - x1).hypot (y2 - y1)).plainText := by
  have pieces := pieces_distance name (isArgument_of_evaluateArithmetic measures.x1)
    (isArgument_of_evaluateArithmetic measures.y1) (isArgument_of_evaluateArithmetic measures.x2)
    ⟨absent, (Arithmetic.isAllowed_of_evaluateArithmetic measures.y2).1⟩ []
  have written : writeDistance reference = .ok ((x2 - x1).hypot (y2 - y1)).plainText := by
    simp only [writeDistance, measures.x1, measures.y1, measures.x2, measures.y2]
    rfl
  rw [List.append_nil] at pieces
  rw [withDistances, pieces, Text.replace, written]
  exact congrArg Except.ok (List.append_nil _)

/-- The last argument of a distance is cut off at its first closing parenthesis. -/
theorem withDistances_text_of_mem
    (name : Text.Spelling "len".toList)
    (member : ')' ∈ reference.y2) :
    let part := reference.y2.takeWhile (· != ')')
    withDistances (reference.text name.text) =
      .error (.arithmetic .failed (Text.strip part)) := by
  intro part
  have refused : evaluateArithmetic part = .error (.arithmetic .failed (Text.strip part)) :=
    Arithmetic.evaluateArithmetic_takeWhile measures.y2 member
  have nonempty : part ≠ [] := by
    intro empty
    rw [empty] at refused
    cases refused
  have closes := Text.startsWith_dropWhile (· != ')') reference.y2
  obtain ⟨stop, rest, behind⟩ : ∃ stop rest, reference.y2.dropWhile (· != ')') = stop :: rest := by
    refine List.exists_cons_of_ne_nil fun nothing => ?_
    have inside := List.dropWhile_eq_nil_iff.mp nothing ')' member
    cases inside
  rw [behind, Text.startsWith_cons, bne_eq_false_iff_eq] at closes
  subst closes
  have whole : reference.text name.text =
      DistanceReference.text name.text { reference with y2 := part } ++ (rest ++ [')']) := by
    have split : reference.y2 = part ++ ')' :: rest := by
      rw [← behind, List.takeWhile_append_dropWhile]
    simp [DistanceReference.text, split]
  have absent : ')' ∉ part := by
    intro inside
    have passed := List.all_eq_true.mp List.all_takeWhile _ inside
    cases passed
  have pieces := @pieces_distance name { reference with y2 := part }
    (isArgument_of_evaluateArithmetic measures.x1) (isArgument_of_evaluateArithmetic measures.y1)
    (isArgument_of_evaluateArithmetic measures.x2) ⟨absent, nonempty⟩ (rest ++ [')'])
  have written : writeDistance { reference with y2 := part } =
      .error (.arithmetic .failed (Text.strip part)) := by
    simp only [writeDistance, measures.x1, measures.y1, measures.x2, refused]
    rfl
  rw [withDistances, whole, pieces, Text.replace, written]
  rfl

end Values

/-- The distance of four arguments of plain arithmetic has the value of the distance between
their values, if there is no parenthesis in the last argument. Otherwise the last argument is
read only up to its first closing parenthesis, and it is always refused. -/
theorem evaluate_distance_of_arithmetic
    (name : Text.Spelling "len".toList)
    {a b c d : Text}
    {x1 y1 x2 y2 : Binary64}
    (first : evaluateArithmetic a = .ok x1)
    (second : evaluateArithmetic b = .ok y1)
    (third : evaluateArithmetic c = .ok x2)
    (fourth : evaluateArithmetic d = .ok y2)
    (scope : Scope) :
    evaluate scope (name.text ++ '(' :: (a ++ ',' :: (b ++ ',' :: (c ++ ',' ::
        (d ++ [')']))))) =
      if ')' ∈ d then .error (.arithmetic .failed (Text.strip (d.takeWhile (· != ')'))))
      else evaluateArithmetic ((x2 - x1).hypot (y2 - y1)).plainText := by
  have measures : DistanceReference.Measures ⟨a, b, c, d⟩ x1 y1 x2 y2 :=
    ⟨first, second, third, fourth⟩
  refine (evaluate_text measures name scope).trans ?_
  split
  next member =>
    rw [withDistances_text_of_mem measures name member]
    rfl
  next absent =>
    rw [withDistances_text measures name absent]
    rfl

/-- Parentheses in the first arguments stay with them. -/
theorem exists_distance_of_arithmetic :
    evaluate ⟨fun _ => none, fun _ => none⟩ "LEN(((1)-1),(2)*0,3,4)".toList = .ok 5 := by
  have value := @evaluate_distance_of_arithmetic ⟨"LEN".toList, rfl⟩ "((1)-1)".toList
    "(2)*0".toList "3".toList "4".toList 0 0 3 4 (by decide +kernel) (by decide +kernel)
    (by decide +kernel) (by decide +kernel) ⟨fun _ => none, fun _ => none⟩
  refine value.trans ?_
  decide +kernel

/-- An argument in parentheses at the end of a distance is refused. -/
theorem exists_distance_cut_short :
    ¬ ∀ (a b c d : Text) (x1 y1 x2 y2 : Binary64) (scope : Scope),
      evaluateArithmetic a = .ok x1 → evaluateArithmetic b = .ok y1 →
      evaluateArithmetic c = .ok x2 → evaluateArithmetic d = .ok y2 →
        evaluate scope ("LEN(".toList ++ a ++ ",".toList ++ b ++ ",".toList ++ c ++
            ",".toList ++ d ++ ")".toList) =
          evaluateArithmetic ((x2 - x1).hypot (y2 - y1)).plainText := by
  intro always
  have wrong := always ['0'] ['0'] ['3'] "(4)".toList 0 0 3 4 ⟨fun _ => none, fun _ => none⟩
    (by decide +kernel) (by decide +kernel) (by decide +kernel) (by decide +kernel)
  revert wrong
  decide +kernel

end Expression
end Joinery
