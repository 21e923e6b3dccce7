import Joinery.Proofs.Keyword.Passage
import Joinery.Proofs.Token.Cut

/-!
# Sections without loss and without leftover

A section ends in front of the first token that is one of the keywords. Only what the
tokens of a text are decides this, not where they stand, so the section and what is left
behind it can be searched again as texts of their own.
-/

namespace Joinery
namespace Keyword

variable {stops : List Text}

/-- Whether a section ends at a token. -/
def endsAt (stops : List Text) (token : Token) : Bool := stops.any (isAt · token)

theorem endsAt_eq_false_iff {token : Token} :
    endsAt stops token = false ↔ ∀ keyword ∈ stops, isAt keyword token = false := by
  simp [endsAt]

/-- Where a token stands does not matter for the end of a section. -/
theorem endsAt_of_content_eq
    {first second : Token}
    (same : first.content = second.content) :
    endsAt stops first = endsAt stops second := by
  simp only [Token.content, Prod.mk.injEq] at same
  simp only [endsAt, isAt, same]

theorem forall_endsAt_eq_false_of_map_content
    {first second : List Token}
    (same : first.map Token.content = second.map Token.content)
    (none : ∀ token ∈ first, endsAt stops token = false) :
    ∀ token ∈ second, endsAt stops token = false := by
  intro token member
  obtain ⟨other, known, content⟩ :=
    List.mem_map.mp (same ▸ List.mem_map_of_mem (f := Token.content) member)
  rw [← endsAt_of_content_eq content, none other known]

/-! ## Searches for several keywords -/

/-- Nothing is found in a text that has no section's end. -/
theorem findNext?_of_forall
    {text : Text}
    (absent : ∀ token ∈ tokens text, endsAt stops token = false) :
    findNext? text stops = none := by
  refine findNext?_eq_none_iff.mpr fun keyword known => ?_
  rw [find?, Option.map_eq_none_iff, List.find?_eq_none]
  intro token member
  simp [endsAt_eq_false_iff.mp (absent token member) keyword known]

/-- The first end of a section is found. -/
theorem findNext?_of_split
    {text : Text}
    {before behind : List Token}
    {token : Token}
    (whole : tokens text = before ++ token :: behind)
    (none : ∀ other ∈ before, endsAt stops other = false)
    (ends : endsAt stops token = true) :
    ∃ keyword, findNext? text stops = some (token.position, keyword) := by
  obtain ⟨keyword, known, here⟩ := List.any_eq_true.mp ends
  refine exists_findNext? (fun other member position found => ?_) ⟨keyword, known, ?_⟩
  · -- Another keyword is at this token or at a later one.
    obtain ⟨place, first, rfl⟩ := Option.map_eq_some_iff.mp found
    have order := Token.pairwise_position 0 0 text
    rw [← tokens, whole, List.pairwise_append, List.pairwise_cons] at order
    have member' := List.mem_of_find?_eq_some first
    rw [whole, List.mem_append, List.mem_cons] at member'
    rcases member' with earlier | rfl | later
    · have contradiction := endsAt_eq_false_iff.mp (none place earlier) other member
      rw [List.find?_some first] at contradiction
      cases contradiction
    · exact Nat.le_refl _
    · exact (order.2.1.1 place later).le
  · rw [find?, whole, List.find?_append, List.find?_eq_none.mpr, Option.none_or,
      List.find?_cons_of_pos here]
    · rfl
    · intro other member
      simp [endsAt_eq_false_iff.mp (none other member) keyword known]

/-- A text has no section's end, or it is split at its first one. -/
theorem exists_split_or_forall (stops : List Text) (text : Text) :
    (∀ token ∈ tokens text, endsAt stops token = false) ∨
      ∃ before token behind, tokens text = before ++ token :: behind ∧
        (∀ other ∈ before, endsAt stops other = false) ∧ endsAt stops token = true := by
  cases found : (tokens text).find? (endsAt stops) with
  | none =>
      refine Or.inl fun token member => ?_
      simpa using List.find?_eq_none.mp found token member
  | some token =>
      obtain ⟨ends, before, behind, whole, none⟩ := List.find?_eq_some_iff_append.mp found
      exact Or.inr ⟨before, token, behind, whole, by simpa using none, ends⟩

/-! ## Sections -/

/-- A text in which no section ends is a section, or it is cut in front of the first end
of a section, which is the first thing that is found in the rest. -/
theorem exists_cut_of_takeSection (text : Text) (stops : List Text) :
    (takeSection text stops = (Text.strip text, []) ∧
        ∀ token ∈ tokens text, endsAt stops token = false) ∨
      ∃ front rear, text = front ++ rear ∧
        takeSection text stops = (Text.strip front, Text.strip rear) ∧
        (∀ token ∈ tokens front, endsAt stops token = false) ∧
        Text.startsWith Text.isBlank rear = false ∧
        (∃ first others, tokens rear = first :: others ∧ endsAt stops first = true) ∧
        (tokens text).map Token.content =
          (tokens front).map Token.content ++ (tokens rear).map Token.content := by
  rcases exists_split_or_forall stops text with none | ⟨before, token, behind, whole, none, ends⟩
  · exact Or.inl ⟨by rw [takeSection, findNext?_of_forall none], none⟩
  · obtain ⟨keyword, found⟩ := findNext?_of_split whole none ends
    obtain ⟨offset, position, front, rear, solid⟩ := Token.exists_cut whole
    rw [Nat.zero_add] at position
    have outside : token.depth = 0 := by
      obtain ⟨_, _, here⟩ := List.any_eq_true.mp ends
      simp only [isAt, Bool.and_eq_true, decide_eq_true_eq] at here
      exact here.1.2
    -- The rest has the tokens from the end of the section on when it is read on its own.
    have contents : (tokens (text.drop offset)).map Token.content =
        Token.content token :: behind.map Token.content := by
      rw [tokens, Token.map_content_ofPieces 0 token.position, ← outside, rear, List.map_cons]
    obtain ⟨first, others, isFirst, same, -⟩ := List.map_eq_cons_iff.mp contents
    refine Or.inr ⟨text.take offset, text.drop offset, (List.take_append_drop offset text).symm,
      ?_, ?_, solid, ⟨first, others, isFirst, (endsAt_of_content_eq same).trans ends⟩, ?_⟩
    · rw [takeSection, found, position]
    · rwa [tokens, front]
    · rw [contents, whole, List.map_append, List.map_cons, tokens, front]

/-- A text that starts with the end of a section is found to do so, also when it is
stripped. -/
theorem exists_findNext?_strip
    {text : Text}
    {first : Token}
    {others : List Token}
    (isFirst : tokens text = first :: others)
    (ends : endsAt stops first = true) :
    ∃ keyword, findNext? (Text.strip text) stops = some (0, keyword) := by
  have contents := Token.map_content_strip text
  rw [isFirst] at contents
  obtain ⟨next, further, isNext, same, -⟩ := List.map_eq_cons_iff.mp contents
  rw [← List.nil_append (next :: further)] at isNext
  obtain ⟨keyword, found⟩ := findNext?_of_split isNext (by simp)
    ((endsAt_of_content_eq same).trans ends)
  have start := Token.position_of_startsWith (Text.isTrimmed_strip text).start isNext
  exact ⟨keyword, by rw [found, start]⟩

/-- A text whose second part starts without white space is stripped at its ends, with
white space between what its parts are stripped to. -/
theorem exists_strip_append_eq
    {front rear : Text}
    (nonempty : rear ≠ [])
    (solid : Text.startsWith Text.isBlank rear = false) :
    ∃ gap : Text, gap.all Text.isBlank = true ∧
      Text.strip (front ++ rear) = Text.strip front ++ (gap ++ Text.strip rear) := by
  have rearPhrase : Text.IsPhrase (Text.strip rear) := by
    refine ⟨fun nothing => ?_, Text.isTrimmed_strip rear⟩
    have blank := Text.strip_eq_nil_iff.mp nothing
    rw [← List.append_nil rear] at solid
    exact nonempty (Text.startsWith_of_all blank solid)
  by_cases nothing : Text.strip front = []
  · exact ⟨[], rfl, by rw [Text.strip_append_left (Text.strip_eq_nil_iff.mp nothing), nothing]; rfl⟩
  · obtain ⟨lead, gap, frontWhole, leadBlank, gapBlank⟩ := Text.exists_strip_append front
    obtain ⟨more, trail, rearWhole, moreBlank, trailBlank⟩ := Text.exists_strip_append rear
    have frontPhrase : Text.IsPhrase (Text.strip front) := ⟨nothing, Text.isTrimmed_strip front⟩
    have both := frontPhrase.append (gap ++ more) rearPhrase
    have whole : front ++ rear =
        lead ++ ((Text.strip front ++ ((gap ++ more) ++ Text.strip rear)) ++ trail) := by
      conv => lhs; rw [frontWhole, rearWhole]
      simp only [List.append_assoc]
    refine ⟨gap ++ more, by rw [List.all_append, gapBlank, moreBlank, Bool.and_self], ?_⟩
    rw [whole, Text.strip_append_append both.trimmed both.nonempty leadBlank trailBlank]

/-- Sections are carved without loss and without leftover: no keyword is left in the
section, and what is left of the text starts with one or is nothing. The text is the
section, white space, and the rest, and they have the words of the text at the depths at
which the text has them. -/
theorem takeSection_carves (text : Text) (stops : List Text) :
    findNext? (takeSection text stops).1 stops = none ∧
      ((takeSection text stops).2 ≠ [] →
        ∃ keyword, findNext? (takeSection text stops).2 stops = some (0, keyword)) ∧
      ((takeSection text stops).2 = [] →
        ∀ token ∈ tokens text, ∀ keyword ∈ stops, isAt keyword token = false) ∧
      (∃ gap : Text, gap.all Text.isBlank = true ∧
        Text.strip text = (takeSection text stops).1 ++ (gap ++ (takeSection text stops).2)) ∧
      (tokens text).map Token.content =
        (tokens (takeSection text stops).1).map Token.content ++
          (tokens (takeSection text stops).2).map Token.content := by
  rcases exists_cut_of_takeSection text stops with
    ⟨taken, none⟩ | ⟨front, rear, rfl, taken, none, solid, ⟨first, others, isFirst, ends⟩, same⟩
  · have contents := Token.map_content_strip text
    rw [taken]
    refine ⟨findNext?_of_forall (forall_endsAt_eq_false_of_map_content contents.symm none),
      fun some => absurd rfl some, fun _ token member => endsAt_eq_false_iff.mp (none token member),
      ⟨[], rfl, by simp⟩, ?_⟩
    rw [contents]
    exact (List.append_nil _).symm
  · have nonempty : rear ≠ [] := by
      rintro rfl
      cases isFirst
    have left : Text.strip rear ≠ [] := by
      intro nothing
      have contents := Token.map_content_strip rear
      rw [nothing, isFirst] at contents
      cases contents
    have contents := Token.map_content_strip front
    rw [taken]
    refine ⟨findNext?_of_forall (forall_endsAt_eq_false_of_map_content contents.symm none),
      fun _ => exists_findNext?_strip isFirst ends, fun nothing => absurd nothing left,
      exists_strip_append_eq nonempty solid, ?_⟩
    rw [same, contents, Token.map_content_strip]

end Keyword
end Joinery
