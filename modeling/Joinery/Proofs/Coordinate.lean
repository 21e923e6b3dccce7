import Joinery.Coordinate
import Joinery.Proofs.Text.Spelling
import Joinery.Proofs.Token.Depth

/-!
# Coordinates

A coordinate is single if all of its commas stand where brackets are open. A text is split
into single coordinates, which give the text again with commas between them. Coordinates
with commas between them are split there, if each but the last one closes what it opens.
-/

namespace Joinery

/-- A text in which no comma stands behind as many opening as closing brackets. -/
def IsSingle (text : Text) : Prop :=
  ∀ before after, text = before ++ ',' :: after → ¬Text.IsLevel before

theorem IsSingle.of_not_mem {text : Text} (absent : ',' ∉ text) : IsSingle text := by
  rintro before after rfl
  exact absurd (List.mem_append_right before List.mem_cons_self) absent

theorem isSingle_nil : IsSingle [] := .of_not_mem List.not_mem_nil

/-- A character behind a single text keeps it single, if it does not separate. -/
theorem IsSingle.concat
    {text : Text}
    (single : IsSingle text)
    {character : Char}
    (different : ¬(character = ',' ∧ Token.depthOf text = 0)) :
    IsSingle (text ++ [character]) := by
  intro before after whole level
  rcases List.eq_nil_or_concat after with rfl | ⟨front, last, rfl⟩
  · obtain ⟨rfl, same⟩ := List.append_inj' whole rfl
    exact different ⟨List.singleton_inj.mp same, (Token.depthOf_eq_zero_iff text).mpr level⟩
  · rw [List.concat_eq_append, ← List.cons_append, ← List.append_assoc] at whole
    exact single before front (List.append_inj_left' whole rfl) level

/-! ## Passing a coordinate -/

/-- A text is taken as a whole, if brackets are open in front of all of its commas. -/
theorem splitCoordinatesFrom_append
    {text : Text}
    {depth : Int}
    (deep : ∀ before after, text = before ++ ',' :: after → depth + Token.depthOf before ≠ 0)
    (part rest : Text) :
    splitCoordinatesFrom depth part (text ++ rest) =
      splitCoordinatesFrom (depth + Token.depthOf text) (text.reverse ++ part) rest := by
  induction text generalizing depth part with
  | nil => rw [List.nil_append, Token.depthOf, Int.add_zero]; rfl
  | cons character others inductionHypothesis =>
      have different : ¬(character = ',' ∧ depth = 0) := by
        rintro ⟨rfl, rfl⟩
        exact deep [] others rfl rfl
      have behind (before after : Text) (whole : others = before ++ ',' :: after) :
          depth + Token.depthChange character + Token.depthOf before ≠ 0 := by
        rw [Int.add_assoc]
        exact deep (character :: before) after (by rw [whole, List.cons_append])
      rw [List.cons_append, splitCoordinatesFrom, if_neg different, inductionHypothesis behind,
        Token.depthOf, List.reverse_cons, List.append_assoc, Int.add_assoc]
      rfl

/-- A single text is taken as a whole. -/
theorem splitCoordinates_append
    {text : Text}
    (single : IsSingle text)
    (rest : Text) :
    splitCoordinates (text ++ rest) =
      splitCoordinatesFrom (Token.depthOf text) text.reverse rest := by
  have deep (before after : Text) (whole : text = before ++ ',' :: after) :
      0 + Token.depthOf before ≠ 0 := by
    rw [Int.zero_add, Ne, Token.depthOf_eq_zero_iff]
    exact single before after whole
  rw [splitCoordinates, splitCoordinatesFrom_append deep, Int.zero_add, List.append_nil]

theorem splitCoordinates_of_isSingle {text : Text} (single : IsSingle text) :
    splitCoordinates text = [text] := by
  have taken := splitCoordinates_append single []
  rwa [List.append_nil, splitCoordinatesFrom, List.reverse_reverse] at taken

/-- Coordinates with commas between them are split there. -/
theorem splitCoordinates_joined
    {parts : List Text}
    (nonempty : parts ≠ [])
    (single : ∀ part ∈ parts, IsSingle part)
    (level : ∀ part ∈ parts.dropLast, Text.IsLevel part) :
    splitCoordinates (Text.joined ',' parts) = parts := by
  induction parts with
  | nil => exact absurd rfl nonempty
  | cons part others inductionHypothesis =>
      obtain ⟨first, rest⟩ := List.forall_mem_cons.mp single
      cases others with
      | nil => rw [Text.joined_singleton, splitCoordinates_of_isSingle first]
      | cons next further =>
          obtain ⟨firstLevel, restLevel⟩ := List.forall_mem_cons.mp level
          have behind := inductionHypothesis (List.cons_ne_nil _ _) rest restLevel
          rw [Text.joined_cons part (List.cons_ne_nil _ _), splitCoordinates_append first,
            (Token.depthOf_eq_zero_iff part).mpr firstLevel, splitCoordinatesFrom,
            if_pos ⟨rfl, rfl⟩, List.reverse_reverse]
          rw [splitCoordinates] at behind
          rw [behind]

/-! ## The parts of a text -/

theorem splitCoordinatesFrom_ne_nil (depth : Int) (part text : Text) :
    splitCoordinatesFrom depth part text ≠ [] := by
  induction text generalizing depth part with
  | nil => exact List.cons_ne_nil _ _
  | cons character others inductionHypothesis =>
      rw [splitCoordinatesFrom]
      split
      · exact List.cons_ne_nil _ _
      · exact inductionHypothesis _ _

/-- Nothing is lost but the commas between the parts. -/
theorem joined_splitCoordinatesFrom (depth : Int) (part text : Text) :
    Text.joined ',' (splitCoordinatesFrom depth part text) = part.reverse ++ text := by
  induction text generalizing depth part with
  | nil => rw [splitCoordinatesFrom, Text.joined_singleton, List.append_nil]
  | cons character others inductionHypothesis =>
      rw [splitCoordinatesFrom]
      split
      next separates =>
        rw [Text.joined_cons _ (splitCoordinatesFrom_ne_nil _ _ _), inductionHypothesis,
          List.reverse_nil, List.nil_append, separates.1]
      next => rw [inductionHypothesis, List.reverse_cons, List.append_assoc, List.singleton_append]

/-- The part that has begun stays single, and its depth is that of the text before the next
character. -/
theorem isSingle_of_mem_splitCoordinatesFrom
    {begun text : Text}
    (single : IsSingle begun.reverse) :
    ∀ part ∈ splitCoordinatesFrom (Token.depthOf begun.reverse) begun text, IsSingle part := by
  induction text generalizing begun with
  | nil =>
      rw [splitCoordinatesFrom]
      exact List.forall_mem_singleton.mpr single
  | cons character others inductionHypothesis =>
      rw [splitCoordinatesFrom]
      split
      next separates =>
        rw [separates.2]
        exact List.forall_mem_cons.mpr ⟨single, @inductionHypothesis [] isSingle_nil⟩
      next different =>
        have further : IsSingle (character :: begun).reverse := by
          rw [List.reverse_cons]
          exact single.concat different
        have behind := inductionHypothesis further
        rwa [List.reverse_cons, Token.depthOf_append, Token.depthOf, Token.depthOf,
          Int.add_zero] at behind

/-- The single texts are those that are not split. -/
theorem isSingle_iff {text : Text} : IsSingle text ↔ splitCoordinates text = [text] := by
  refine ⟨splitCoordinates_of_isSingle, fun alone => ?_⟩
  have member : text ∈ splitCoordinates text := by rw [alone]; exact List.mem_singleton_self text
  exact @isSingle_of_mem_splitCoordinatesFrom [] text isSingle_nil text member

instance (text : Text) : Decidable (IsSingle text) := decidable_of_iff _ isSingle_iff.symm

/-- Splitting at commas and joining with commas undo each other. The parts of a text give
it again, and none of them is split further. Single texts with commas between them are
their own parts, if each but the last closes the brackets that it opens. -/
theorem splitCoordinates_inverts_joined (text : Text) :
    Text.joined ',' (splitCoordinates text) = text ∧
      (∀ part ∈ splitCoordinates text, splitCoordinates part = [part]) ∧
      ∀ parts : List Text, parts ≠ [] → (∀ part ∈ parts, IsSingle part) →
        (∀ part ∈ parts.dropLast, Text.IsLevel part) →
        splitCoordinates (Text.joined ',' parts) = parts := by
  refine ⟨joined_splitCoordinatesFrom 0 [] text, fun part member => ?_, fun parts => ?_⟩
  · exact isSingle_iff.mp (@isSingle_of_mem_splitCoordinatesFrom [] text isSingle_nil part member)
  · exact splitCoordinates_joined

/-- Commas in the brackets of a distance do not separate, and a last part may close what it
does not open. -/
theorem splitCoordinates_distance :
    splitCoordinates "LEN(0,0,3,4), {a.x},),($y".toList =
      ["LEN(0,0,3,4)".toList, " {a.x}".toList, "),($y".toList] :=
  (splitCoordinates_inverts_joined []).2.2
    ["LEN(0,0,3,4)".toList, " {a.x}".toList, "),($y".toList] (by decide) (by decide) (by decide)

end Joinery
