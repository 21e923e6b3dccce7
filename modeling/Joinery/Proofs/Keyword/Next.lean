import Joinery.Keyword

/-!
# The next of some keywords

The next of some keywords is the one that is found first, and of those that are found at one
place the first in the list.
-/

namespace Joinery
namespace Keyword

variable {text : Text} {keywords : List Text} {position : Nat} {keyword : Text}

@[simp] theorem earlier_none (best : Option (Nat × Text)) : earlier best none = best := by
  cases best <;> rfl

@[simp] theorem none_earlier (next : Option (Nat × Text)) : earlier none next = next := rfl

theorem earlier_eq_none_iff (best next : Option (Nat × Text)) :
    earlier best next = none ↔ best = none ∧ next = none := by
  cases best with
  | none => simp
  | some best =>
      cases next with
      | none => simp
      | some next =>
          rw [earlier]
          split <;> simp

theorem earlier_assoc (first second third : Option (Nat × Text)) :
    earlier (earlier first second) third = earlier first (earlier second third) := by
  cases first with
  | none => rfl
  | some first =>
      cases second with
      | none => rfl
      | some second =>
          cases third with
          | none => rw [earlier_none, earlier_none]
          | some third => grind [earlier]

/-- The next of some keywords is the first of them, or the next of the others. -/
theorem findNext?_cons (text keyword : Text) (others : List Text) :
    findNext? text (keyword :: others) =
      earlier ((find? text keyword).map (·, keyword)) (findNext? text others) := by
  let step := fun (best : Option (Nat × Text)) (other : Text) =>
    earlier best ((find? text other).map (·, other))
  have fold (best : Option (Nat × Text)) :
      others.foldl step best = earlier best (others.foldl step none) := by
    induction others generalizing best with
    | nil => rw [List.foldl_nil, List.foldl_nil, earlier_none]
    | cons first rest inductionHypothesis =>
        rw [List.foldl_cons, List.foldl_cons, inductionHypothesis (step best first),
          inductionHypothesis (step none first)]
        exact earlier_assoc _ _ _
  exact fold _

theorem findNext?_eq_none_iff :
    findNext? text keywords = none ↔ ∀ keyword ∈ keywords, find? text keyword = none := by
  induction keywords with
  | nil => simp [findNext?]
  | cons first others inductionHypothesis =>
      rw [findNext?_cons, earlier_eq_none_iff, Option.map_eq_none_iff, inductionHypothesis,
        List.forall_mem_cons]

/-- The next keyword is the first one in the list that is found at its offset, and none is
found before that. -/
theorem find?_of_findNext?_eq_some
    (found : findNext? text keywords = some (position, keyword)) :
    keywords.find? (fun other => find? text other = some position) = some keyword ∧
      ∀ other ∈ keywords, ∀ place, find? text other = some place → position ≤ place := by
  induction keywords generalizing position keyword with
  | nil => cases found
  | cons first others inductionHypothesis =>
      rw [findNext?_cons] at found
      rw [List.forall_mem_cons]
      cases here : find? text first with
      | none =>
          rw [here, Option.map_none, none_earlier] at found
          obtain ⟨isFirst, behind⟩ := inductionHypothesis found
          refine ⟨?_, by simp, behind⟩
          rw [List.find?_cons_of_neg (by simp [here]), isFirst]
      | some place =>
          rw [here, Option.map_some] at found
          cases rest : findNext? text others with
          | none =>
              rw [rest] at found
              cases found
              refine ⟨List.find?_cons_of_pos (by simp [here]), by simp, fun other member => ?_⟩
              simp [findNext?_eq_none_iff.mp rest other member]
          | some next =>
              obtain ⟨isFirst, behind⟩ := inductionHypothesis rest
              rw [rest, earlier] at found
              split at found
              next closer =>
                cases found
                have different : place ≠ position := by omega
                refine ⟨?_, ?_, behind⟩
                · rw [List.find?_cons_of_neg (by simp [here, different]), isFirst]
                · rintro _ ⟨⟩
                  exact Nat.le_of_lt closer
              next farther =>
                cases found
                refine ⟨List.find?_cons_of_pos (by simp [here]), by simp, ?_⟩
                intro other member found known
                have order := behind other member found known
                omega

/-- The next keyword is at the least offset at which any is found, and it is the first one
in the list that is found there. -/
theorem findNext?_eq_some_iff :
    findNext? text keywords = some (position, keyword) ↔
      keywords.find? (fun other => find? text other = some position) = some keyword ∧
        ∀ other ∈ keywords, ∀ place, find? text other = some place → position ≤ place := by
  refine ⟨find?_of_findNext?_eq_some, fun ⟨isFirst, behind⟩ => ?_⟩
  have member := List.mem_of_find?_eq_some isFirst
  have known : find? text keyword = some position := by simpa using List.find?_some isFirst
  cases found : findNext? text keywords with
  | none =>
      rw [findNext?_eq_none_iff.mp found keyword member] at known
      cases known
  | some next =>
      obtain ⟨isNext, nextBehind⟩ := find?_of_findNext?_eq_some found
      have same : next.1 = position := by
        apply Nat.le_antisymm
        · exact nextBehind keyword member position known
        · apply behind next.2 (List.mem_of_find?_eq_some isNext)
          simpa using List.find?_some isNext
      rw [same, isFirst] at isNext
      rw [← same, Option.some.inj isNext]

/-- The next of some keywords stands where that keyword is found. -/
theorem find?_of_findNext?
    (found : findNext? text keywords = some (position, keyword)) :
    find? text keyword = some position := by
  simpa using List.find?_some (find?_of_findNext?_eq_some found).1

/-- The next of some keywords stands at an offset, if one of them is found there and none
before it. -/
theorem exists_findNext?
    (behind : ∀ keyword ∈ keywords, ∀ found, find? text keyword = some found →
      position ≤ found)
    (here : ∃ keyword ∈ keywords, find? text keyword = some position) :
    ∃ keyword, findNext? text keywords = some (position, keyword) := by
  have isSome : (keywords.find? fun other => find? text other = some position).isSome = true := by
    simpa using here
  obtain ⟨keyword, isFirst⟩ := Option.isSome_iff_exists.mp isSome
  exact ⟨keyword, findNext?_eq_some_iff.mpr ⟨isFirst, behind⟩⟩

end Keyword
end Joinery
