import Joinery.Proofs.Keyword.Section
import Joinery.Proofs.Text.Respaced

/-!
# White space around keywords

No token has white space in it. So respaced texts have the same tokens with white space at
the same places between them, and a keyword that is found in one of them is found in the
other one between respaced parts.
-/

namespace Joinery

open Text

namespace Token

/-- White space is no token, and no token has white space in it. -/
theorem respects_read : Respects read Eq := by
  refine .of_common (fun _ rest blank => read_of_isBlank blank rest) ?_
  intro character first second kind count respaced found
  obtain ⟨run, rest, others, rfl, rfl, left, taken, otherTaken⟩ :=
    respaced.exists_takeWhile fun _ => isAsciiWordCharacter_of_isBlank
  simp only [read, taken, otherTaken] at found ⊢
  rw [found]
  split at found
  · cases found
  · split at found
    · cases found
      exact ⟨run, rest, others, rfl, rfl, left, rfl, rfl⟩
    · split at found
      · cases found
        exact ⟨run, rest, others, rfl, rfl, left, rfl, rfl⟩
      · cases found
        exact ⟨[], _, _, rfl, rfl, respaced, rfl, rfl⟩

theorem ofPieces_append_gap
    {gap : Text}
    (blank : gap.all isBlank = true)
    (position : Nat)
    (depth : Int)
    (rest : Text) :
    ofPieces position depth (pieces read (gap ++ rest)) =
      ofPieces (position + gap.length) depth (pieces read rest) := by
  induction gap generalizing position with
  | nil => rfl
  | cons character others inductionHypothesis =>
      obtain ⟨first, further⟩ := Bool.and_eq_true_iff.mp (List.all_cons.symm.trans blank)
      rw [List.cons_append, ofPieces_of_read_eq_none (read_of_isBlank first _),
        inductionHypothesis further, List.length_cons, Nat.add_right_comm, Nat.add_assoc]

/-- A token of each of two texts: the same one, between respaced parts of the texts. -/
def AreAlikeIn
    (first second : Text)
    (position otherPosition : Nat)
    (token other : Token) : Prop :=
  token.content = other.content ∧
    ∃ front rest otherFront others,
      first = front ++ (token.text ++ rest) ∧ token.position = position + front.length ∧
      second = otherFront ++ (other.text ++ others) ∧
      other.position = otherPosition + otherFront.length ∧
      Respaced front otherFront ∧ Respaced rest others

/-- Tokens are alike behind respaced texts. -/
theorem AreAlikeIn.append
    {first second left right : Text}
    {position otherPosition : Nat}
    {token other : Token}
    (respaced : Respaced left right)
    (alike : AreAlikeIn first second (position + left.length) (otherPosition + right.length)
      token other) :
    AreAlikeIn (left ++ first) (right ++ second) position otherPosition token other := by
  obtain ⟨same, front, rest, otherFront, others, cut, place, otherCut, otherPlace, fronts, rests⟩ :=
    alike
  refine ⟨same, left ++ front, rest, right ++ otherFront, others, ?_, ?_, ?_, ?_,
    respaced.append fronts, rests⟩
  · rw [cut, List.append_assoc]
  · rw [place, List.length_append, Nat.add_assoc]
  · rw [otherCut, List.append_assoc]
  · rw [otherPlace, List.length_append, Nat.add_assoc]

/-- The first token of a kind is found in both of two respaced texts or in neither, between
respaced parts. -/
theorem exists_find?_of_respaced
    {stops : Token → Bool}
    (byContent : ∀ token other, token.content = other.content → stops token = stops other)
    {first second : Text}
    (respaced : Respaced first second)
    (position otherPosition : Nat)
    (depth : Int) :
    ((ofPieces position depth (pieces read first)).find? stops = none ∧
        (ofPieces otherPosition depth (pieces read second)).find? stops = none) ∨
      ∃ token other,
        (ofPieces position depth (pieces read first)).find? stops = some token ∧
        (ofPieces otherPosition depth (pieces read second)).find? stops = some other ∧
        AreAlikeIn first second position otherPosition token other := by
  revert position otherPosition depth
  refine respects_read.induction respaced ?nil ?gap ?other ?found
  case nil => exact fun position otherPosition depth => Or.inl ⟨rfl, rfl⟩
  case gap =>
    intro left right first second leftGap rightGap inductionHypothesis position otherPosition depth
    rw [ofPieces_append_gap leftGap.blank, ofPieces_append_gap rightGap.blank]
    refine (inductionHypothesis _ _ depth).imp_right ?_
    rintro ⟨token, other, found, otherFound, alike⟩
    exact ⟨token, other, found, otherFound, alike.append (.of_gaps leftGap rightGap)⟩
  case other =>
    intro character first second isSolid absent
    rw [read_eq_none_iff.mp absent] at isSolid
    cases isSolid
  case found =>
    rintro character first second kind _ count otherCount isSolid known otherKnown rfl taken left
      inductionHypothesis position otherPosition depth
    have whole : character :: first = character :: first.take count ++ first.drop count := by
      rw [List.cons_append, List.take_append_drop]
    have otherWhole : character :: second =
        character :: second.take otherCount ++ second.drop otherCount := by
      rw [List.cons_append, List.take_append_drop]
    have sameText := taken.eq_of_solid (List.forall_mem_cons.mp (isBlank_of_mem_read known)).2
    rw [ofPieces_of_read_eq_some known, ofPieces_of_read_eq_some otherKnown, whole, otherWhole,
      ← sameText]
    generalize character :: first.take count = text
    have sameStop :
        stops ⟨kind, text, position, depth⟩ = stops ⟨kind, text, otherPosition, depth⟩ :=
      byContent _ _ rfl
    cases here : stops ⟨kind, text, position, depth⟩ with
    | true =>
        exact Or.inr ⟨_, _, List.find?_cons_of_pos here, List.find?_cons_of_pos (sameStop ▸ here),
          rfl, [], _, [], _, rfl, rfl, rfl, rfl, .nil, left⟩
    | false =>
        rw [List.find?_cons_of_neg (by simp [here]),
          List.find?_cons_of_neg (by simp [← sameStop, here])]
        refine (inductionHypothesis _ _ _).imp_right ?_
        rintro ⟨token, other, found, otherFound, alike⟩
        exact ⟨token, other, found, otherFound, alike.append (.refl text)⟩

end Token

namespace Keyword

theorem isAt_of_content_eq
    (keyword : Text)
    {first second : Token}
    (same : first.content = second.content) :
    isAt keyword first = isAt keyword second := by
  simp only [Token.content, Prod.mk.injEq] at same
  simp only [isAt, same]

/-- A keyword is found in both of two respaced texts or in neither, between respaced parts. -/
theorem exists_find?_of_respaced
    {first second : Text}
    (keyword : Text)
    (plain : 'İ' ∉ keyword)
    (respaced : Respaced first second) :
    (find? first keyword = none ∧ find? second keyword = none) ∨
      ∃ position other, find? first keyword = some position ∧
        find? second keyword = some other ∧ (position = 0 ↔ other = 0) ∧
        Respaced (first.take position) (second.take other) ∧
        Respaced (first.drop (position + keyword.length))
          (second.drop (other + keyword.length)) := by
  obtain ⟨none, otherNone⟩ | ⟨token, other, found, otherFound, same, front, rest,
      otherFront, others, rfl, place, rfl, otherPlace, fronts, rests⟩ :=
    Token.exists_find?_of_respaced (fun _ _ => isAt_of_content_eq keyword) respaced 0 0 0
  · exact Or.inl ⟨by rw [find?, tokens, none]; rfl, by rw [find?, tokens, otherNone]; rfl⟩
  · have length := length_of_isAt plain (List.mem_of_find?_eq_some found) (List.find?_some found)
    have otherLength := length_of_isAt plain (List.mem_of_find?_eq_some otherFound)
      (List.find?_some otherFound)
    rw [Nat.zero_add] at place otherPlace
    have empty : front = [] ↔ otherFront = [] :=
      ⟨fun same => (same ▸ fronts).eq_nil, fun same => (same ▸ fronts.symm).eq_nil⟩
    refine Or.inr ⟨front.length, otherFront.length, ?_, ?_, ?_, ?_, ?_⟩
    · rw [find?, tokens, found, Option.map_some, place]
    · rw [find?, tokens, otherFound, Option.map_some, otherPlace]
    · rw [List.length_eq_zero_iff, List.length_eq_zero_iff, empty]
    · rwa [List.take_left, List.take_left]
    · rw [← List.drop_drop, ← List.drop_drop, List.drop_left, List.drop_left, List.drop_left' length,
        List.drop_left' otherLength]
      exact rests

/-- The texts behind a keyword in respaced texts. -/
theorem rel_behind?
    {first second : Text}
    (keyword : Text)
    (plain : 'İ' ∉ keyword)
    (respaced : Respaced first second) :
    Option.Rel Respaced (behind? first keyword) (behind? second keyword) := by
  unfold behind?
  obtain ⟨none, otherNone⟩ | ⟨position, other, found, otherFound, -, -, rests⟩ :=
    exists_find?_of_respaced keyword plain respaced
  · rw [none, otherNone]
    exact .none
  · rw [found, otherFound]
    exact .some rests

/-- A section ends in front of the first token that may follow it. -/
theorem takeSection_eq (text : Text) (stops : List Text) :
    takeSection text stops =
      match (tokens text).find? (endsAt stops) with
      | none => (strip text, [])
      | some token => (strip (text.take token.position), strip (text.drop token.position)) := by
  rcases exists_split_or_forall stops text with none | ⟨before, token, behind, whole, none, ends⟩
  · rw [takeSection, findNext?_of_forall none, List.find?_eq_none.mpr (by simpa using none)]
  · obtain ⟨keyword, found⟩ := findNext?_of_split whole none ends
    have first : (tokens text).find? (endsAt stops) = some token :=
      List.find?_eq_some_iff_append.mpr ⟨ends, before, behind, whole, by simpa using none⟩
    rw [takeSection, found, first]

/-- Sections of respaced texts, and what is left behind them. -/
theorem respaced_takeSection
    {first second : Text}
    (respaced : Respaced first second)
    (stops : List Text) :
    Respaced (takeSection first stops).1 (takeSection second stops).1 ∧
      Respaced (takeSection first stops).2 (takeSection second stops).2 := by
  have byContent (token other : Token) (same : token.content = other.content) :
      endsAt stops token = endsAt stops other :=
    endsAt_of_content_eq same
  rw [takeSection_eq, takeSection_eq, tokens, tokens]
  obtain ⟨none, otherNone⟩ | ⟨token, other, found, otherFound, same, front, rest,
      otherFront, others, rfl, place, rfl, otherPlace, fronts, rests⟩ :=
    Token.exists_find?_of_respaced byContent respaced 0 0 0
  · rw [none, otherNone]
    exact ⟨respaced.strip, .nil⟩
  · rw [Nat.zero_add] at place otherPlace
    have sameText : token.text = other.text := (Prod.mk.inj (Prod.mk.inj same).2).1
    simp only [found, otherFound, place, otherPlace, List.take_left, List.drop_left]
    rw [sameText]
    exact ⟨fronts.strip, ((Respaced.refl _).append rests).strip⟩

end Keyword
end Joinery
