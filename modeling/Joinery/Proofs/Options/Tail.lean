import Joinery.Options
import Joinery.Proofs.Keyword.Next
import Joinery.Proofs.Recovery
import Joinery.Proofs.Token.Tail

/-!
# Options that are left

The options of a board are read from the front, and every section leaves a tail of the
text. So a keyword that the options do not have is not found in what is left of them
either.
-/

namespace Joinery

theorem Text.length_lower
    {text : Text}
    (plain : 'İ' ∉ text) :
    (Text.lower text).length = text.length := by
  unfold Text.lower
  generalize [] = before
  induction text generalizing before with
  | nil => rfl
  | cons character rest inductionHypothesis =>
      rw [List.mem_cons, not_or] at plain
      have first : (character == 'İ') = false := by simpa using fun same => plain.1 same.symm
      rw [Text.lowerAfter, List.length_append, inductionHypothesis plain.2, first]
      simp only [Bool.false_eq_true, if_false, List.length_cons, Nat.add_comm]
      split
      · split <;> rfl
      · rfl

/-! ## Keywords -/

namespace Keyword

/-- A keyword is found as a word outside brackets. -/
theorem exists_token_of_find?
    {text keyword : Text}
    {position : Nat}
    (found : find? text keyword = some position) :
    ∃ token ∈ tokens text, token.position = position ∧ token.kind = .word ∧
      token.depth = 0 ∧ Text.lower token.text = Text.lower keyword := by
  obtain ⟨token, first, rfl⟩ := Option.map_eq_some_iff.mp found
  have isAt := List.find?_some first
  simp only [Keyword.isAt, Bool.and_eq_true, decide_eq_true_eq] at isAt
  exact ⟨token, List.mem_of_find?_eq_some first, rfl, isAt.1.1, isAt.1.2, isAt.2⟩

/-- A keyword that a text does not have is not in a tail of it. -/
theorem find?_eq_none_of_isTail
    {tail text keyword : Text}
    (isTail : IsTail tail text)
    (absent : find? text keyword = none) :
    find? tail keyword = none := by
  simp only [find?, Option.map_eq_none_iff, List.find?_eq_none] at absent ⊢
  intro token member
  obtain ⟨other, known, same⟩ :=
    List.mem_map.mp (isTail.subset (List.mem_map_of_mem (f := Token.content) member))
  obtain ⟨kind, text, depth⟩ : other.kind = token.kind ∧ other.text = token.text ∧
      other.depth = token.depth := by
    simpa [Token.content] using same
  have elsewhere := absent other known
  unfold isAt at elsewhere ⊢
  rw [← kind, ← text, ← depth]
  exact elsewhere

/-- A token is as long as the keyword that it is. -/
theorem length_of_isAt
    {text keyword : Text}
    {token : Token}
    (plain : 'İ' ∉ keyword)
    (member : token ∈ tokens text)
    (here : isAt keyword token = true) :
    token.text.length = keyword.length := by
  simp only [isAt, Bool.and_eq_true, decide_eq_true_eq] at here
  -- Only the capital I with a dot gets longer in small letters, and no word has it.
  have ascii : 'İ' ∉ token.text := by
    intro inside
    have isWordCharacter := Token.isAsciiWordCharacter_of_mem member here.1.1 _ inside
    exact absurd isWordCharacter (by decide)
  rw [← Text.length_lower ascii, here.2, Text.length_lower plain]

/-- The text behind a keyword. -/
theorem isTail_of_find?
    {text keyword : Text}
    {position : Nat}
    (plain : 'İ' ∉ keyword)
    (found : find? text keyword = some position) :
    IsTail (text.drop (position + keyword.length)) text := by
  obtain ⟨token, first, rfl⟩ := Option.map_eq_some_iff.mp found
  have here := List.find?_some first
  have member := List.mem_of_find?_eq_some first
  rw [← length_of_isAt plain member here]
  simp only [isAt, Bool.and_eq_true, decide_eq_true_eq] at here
  exact IsTail.drop_word member here.1.1 here.1.2

theorem isTail_of_behind?
    {text keyword rest : Text}
    (plain : 'İ' ∉ keyword)
    (found : behind? text keyword = some rest) :
    IsTail rest text := by
  obtain ⟨position, known, rfl⟩ := Option.map_eq_some_iff.mp found
  exact isTail_of_find? plain known

/-- What a section leaves of a text. -/
theorem isTail_takeSection (text : Text) (stops : List Text) :
    IsTail (takeSection text stops).2 text := by
  unfold takeSection
  split
  next => exact IsTail.nil text
  next position keyword found =>
    obtain ⟨token, member, rfl, -, outside, -⟩ :=
      exists_token_of_find? (find?_of_findNext? found)
    exact (IsTail.strip _).trans (IsTail.drop_position member outside)

/-- What a section leaves of a text that is a tail itself. -/
theorem isTail_takeSection_strip
    {text whole : Text}
    (isTail : IsTail text whole)
    (stops : List Text) :
    IsTail (takeSection (Text.strip text) stops).2 whole :=
  (isTail_takeSection _ stops).trans ((IsTail.strip text).trans isTail)

end Keyword

/-! ## Options -/

namespace Options

variable {scope : Scope} {options rest : Text}

theorem isTail_readSegment
    {position : Position}
    (found : readSegment scope options = .ok (position, rest)) :
    IsTail rest options := by
  unfold readSegment at found
  split at found
  · cases found
  next place known =>
    have behind : IsTail (options.drop (place + 2)) options :=
      Keyword.isTail_of_find? (by decide) known
    split at found
    · split at found
      next last remaining section_ =>
        have isTail := Keyword.isTail_takeSection_strip behind behindSegment
        rw [section_] at isTail
        split at found
        · obtain ⟨_, -, found⟩ := bind_eq_ok.mp found
          obtain ⟨_, -, found⟩ := bind_eq_ok.mp found
          obtain ⟨_, -, found⟩ := bind_eq_ok.mp found
          obtain ⟨_, -, found⟩ := bind_eq_ok.mp found
          cases found
          exact isTail
        · cases found
    · cases found

/-- What is left behind the position. -/
theorem isTail_readPosition
    {position : Position}
    (found : readPosition scope options = .ok (position, rest)) :
    IsTail rest options := by
  unfold readPosition at found
  split at found
  next text _ known =>
    exact (isTail_readSegment found).trans (Keyword.isTail_of_behind? (by decide) known)
  next text _ known =>
    obtain ⟨_, -, same⟩ := bind_eq_ok.mp found
    cases same
    exact Keyword.isTail_takeSection_strip (Keyword.isTail_of_behind? (by decide) known) _
  next =>
    cases found
    exact IsTail.refl _

/-- What is left behind the level. -/
theorem isTail_readLevel
    {level : Option Binary64}
    (found : readLevel scope options = .ok (level, rest)) :
    IsTail rest options := by
  unfold readLevel at found
  split at found
  next known =>
    have behind : IsTail (options.drop 1) options := Keyword.isTail_of_find? (by decide) known
    obtain ⟨_, -, same⟩ := bind_eq_ok.mp found
    cases same
    exact Keyword.isTail_takeSection_strip behind _
  next =>
    cases found
    exact IsTail.refl _

/-- What is left behind the cuts. -/
theorem isTail_takeCuts
    {cuts : Option (Cuts Binary64)}
    (found : takeCuts scope options = .ok (cuts, rest)) :
    IsTail rest options := by
  unfold takeCuts at found
  split at found
  next =>
    cases found
    exact IsTail.refl _
  next text known =>
    obtain ⟨_, -, same⟩ := bind_eq_ok.mp found
    cases same
    exact Keyword.isTail_takeSection_strip (Keyword.isTail_of_behind? (by decide) known) _

/-- What is left behind the view. -/
theorem isTail_takeView
    {view : Option Text}
    (found : takeView options = .ok (view, rest)) :
    IsTail rest options := by
  unfold takeView at found
  split at found
  next =>
    cases found
    exact IsTail.refl _
  next text known =>
    obtain ⟨_, -, same⟩ := bind_eq_ok.mp found
    cases same
    exact Keyword.isTail_takeSection_strip (Keyword.isTail_of_behind? (by decide) known) _

/-- Options without the keyword have no colour. -/
theorem color?_eq_none
    (absent : Keyword.find? options "color".toList = none) :
    color? options = none := by
  rw [color?, Keyword.behind?, absent]
  rfl

end Options
end Joinery
