import Mathlib.Data.List.DropRight
import Joinery.Proofs.Text.Piece

/-!
# White space between words

A text is trimmed if it has no white space at its ends. A text is spaced if it has some
words in their order and nothing but white space between them. Stripping trims every text,
and leaves trimmed ones alone.
-/

namespace Joinery
namespace Text

/-- Whether a text starts with a character of a kind. -/
def startsWith (holds : Char → Bool) (text : Text) : Bool := text.head?.any holds

@[simp] theorem startsWith_nil (holds : Char → Bool) : startsWith holds [] = false := rfl

@[simp] theorem startsWith_cons (holds : Char → Bool) (first : Char) (rest : Text) :
    startsWith holds (first :: rest) = holds first := rfl

theorem forall_mem_of_all_not
    {holds : Char → Bool}
    {text : Text}
    (all : text.all (!holds ·) = true) :
    ∀ character ∈ text, holds character = false := by
  simpa using all

/-- A text does not start with a character that it does not have. -/
theorem startsWith_of_forall
    {holds : Char → Bool}
    {text : Text}
    (none : ∀ character ∈ text, holds character = false) :
    startsWith holds text = false := by
  cases text with
  | nil => rfl
  | cons first rest => exact none first List.mem_cons_self

theorem startsWith_append_eq_false
    {holds : Char → Bool}
    {first second : Text}
    (firstStops : startsWith holds first = false)
    (secondStops : startsWith holds second = false) :
    startsWith holds (first ++ second) = false := by
  cases first with
  | nil => exact secondStops
  | cons character others => exact firstStops

theorem takeWhile_eq_nil
    {holds : Char → Bool}
    {text : Text}
    (stops : startsWith holds text = false) :
    text.takeWhile holds = [] := by
  cases text with
  | nil => rfl
  | cons first rest =>
      apply List.takeWhile_cons_of_neg
      simpa using stops

theorem dropWhile_eq_self
    {holds : Char → Bool}
    {text : Text}
    (stops : startsWith holds text = false) :
    text.dropWhile holds = text := by
  cases text with
  | nil => rfl
  | cons first rest =>
      apply List.dropWhile_cons_of_neg
      simpa using stops

/-- What is taken from a text ends where the characters of the kind end. -/
theorem takeWhile_append_eq
    {holds : Char → Bool}
    {text rest : Text}
    (all : text.all holds = true)
    (stops : startsWith holds rest = false) :
    (text ++ rest).takeWhile holds = text := by
  rw [List.takeWhile_append_of_pos (List.all_eq_true.mp all), takeWhile_eq_nil stops,
    List.append_nil]

theorem dropWhile_append_eq
    {holds : Char → Bool}
    {text rest : Text}
    (all : text.all holds = true)
    (stops : startsWith holds rest = false) :
    (text ++ rest).dropWhile holds = rest := by
  rw [List.dropWhile_append_of_pos (List.all_eq_true.mp all), dropWhile_eq_self stops]

/-- What is taken from a text does not reach a place where the kind of characters ends. -/
theorem length_takeWhile_append_le
    {holds : Char → Bool}
    {rest : Text}
    (stops : startsWith holds rest = false)
    (text : Text) :
    ((text ++ rest).takeWhile holds).length ≤ text.length := by
  rw [List.takeWhile_append]
  split
  · rw [takeWhile_eq_nil stops, List.append_nil]
  · exact (List.takeWhile_prefix holds).length_le

theorem startsWith_dropWhile (holds : Char → Bool) (text : Text) :
    startsWith holds (text.dropWhile holds) = false := by
  have found := List.head?_dropWhile_not holds text
  unfold startsWith
  cases first : (text.dropWhile holds).head? with
  | none => rfl
  | some character =>
      rw [first] at found
      exact found

/-- Behind the characters of a kind that a text starts with there are no more of them. -/
theorem startsWith_drop_takeWhile (holds : Char → Bool) (text : Text) :
    startsWith holds (text.drop (text.takeWhile holds).length) = false := by
  have left : text.drop (text.takeWhile holds).length = text.dropWhile holds := by
    apply List.append_cancel_left
    exact (List.prefix_iff_eq_append.mp (List.takeWhile_prefix _)).trans
      List.takeWhile_append_dropWhile.symm
  rw [left]
  exact startsWith_dropWhile holds text

/-- A text starts with the characters of a kind that it starts with. -/
theorem exists_append_of_all (holds : Char → Bool) (text : Text) :
    ∃ part rest, text = part ++ rest ∧ part.all holds = true ∧
      startsWith holds rest = false :=
  ⟨text.takeWhile holds, text.dropWhile holds, List.takeWhile_append_dropWhile.symm,
    List.all_takeWhile, startsWith_dropWhile holds text⟩

/-- A text starts with its characters of a kind in one way. -/
theorem append_inj_of_stops
    {holds : Char → Bool}
    {first rest second others : Text}
    (same : first ++ rest = second ++ others)
    (firstAll : first.all holds = true)
    (restStops : startsWith holds rest = false)
    (secondAll : second.all holds = true)
    (othersStops : startsWith holds others = false) :
    first = second ∧ rest = others := by
  have taken := congrArg (List.takeWhile holds) same
  have left := congrArg (List.dropWhile holds) same
  rw [takeWhile_append_eq firstAll restStops, takeWhile_append_eq secondAll othersStops] at taken
  rw [dropWhile_append_eq firstAll restStops, dropWhile_append_eq secondAll othersStops] at left
  exact ⟨taken, left⟩

/-! ## Trimmed texts -/

/-- A text without white space at its ends. -/
structure IsTrimmed (text : Text) : Prop where
  start : startsWith isBlank text = false
  ending : startsWith isBlank text.reverse = false

theorem strip_eq_self {text : Text} (trimmed : IsTrimmed text) : strip text = text := by
  rw [strip, stripStart, dropWhile_eq_self trimmed.start, stripEnd,
    dropWhile_eq_self trimmed.ending, List.reverse_reverse]

theorem isTrimmed_strip (text : Text) : IsTrimmed (strip text) := by
  have started := startsWith_dropWhile isBlank text
  refine ⟨?_, ?_⟩
  · unfold strip
    rw [← stripStart] at started
    obtain ⟨blanks, whole, -⟩ := exists_stripEnd_append (stripStart text)
    -- What is left is nothing, or it starts as the text without white space at its start.
    cases left : stripEnd (stripStart text) with
    | nil => rfl
    | cons first rest =>
        rw [left] at whole
        rw [← whole] at started
        exact started
  · rw [strip, stripEnd, List.reverse_reverse]
    exact startsWith_dropWhile isBlank _

theorem startsWith_of_all
    {holds : Char → Bool}
    {text rest : Text}
    (all : text.all holds = true)
    (stops : startsWith holds (text ++ rest) = false) :
    text = [] := by
  cases text with
  | nil => rfl
  | cons first others =>
      rw [List.all_cons, Bool.and_eq_true] at all
      rw [List.cons_append, startsWith_cons, all.1] at stops
      cases stops

/-- A trimmed text has no white space around any part of it. -/
theorem IsTrimmed.eq_nil
    {lead core trail : Text}
    (trimmed : IsTrimmed (lead ++ (core ++ trail)))
    (leadBlank : lead.all isBlank = true)
    (trailBlank : trail.all isBlank = true) :
    lead = [] ∧ trail = [] := by
  refine ⟨startsWith_of_all leadBlank trimmed.start, ?_⟩
  have ending := trimmed.ending
  rw [List.reverse_append, List.reverse_append, List.append_assoc] at ending
  have none := startsWith_of_all (by rwa [List.all_reverse]) ending
  rwa [List.reverse_eq_nil_iff] at none

/-- A text is what stripping leaves of it, with white space around that. -/
theorem exists_strip_append (text : Text) :
    ∃ lead trail : Text, text = lead ++ (strip text ++ trail) ∧ lead.all isBlank = true ∧
      trail.all isBlank = true := by
  obtain ⟨trail, whole, blank⟩ := exists_stripEnd_append (stripStart text)
  refine ⟨text.takeWhile isBlank, trail, ?_, List.all_takeWhile, List.all_eq_true.mpr blank⟩
  rw [strip, whole, stripStart, List.takeWhile_append_dropWhile]

/-- Stripping leaves all other characters than white space. -/
theorem count_strip {character : Char} (solid : isBlank character = false) (text : Text) :
    (strip text).count character = text.count character := by
  obtain ⟨lead, trail, whole, leadBlank, trailBlank⟩ := exists_strip_append text
  have foreign {gap : Text} (blank : gap.all isBlank = true) : gap.count character = 0 :=
    List.count_eq_zero.mpr fun member => by
      have isBlankToo := List.all_eq_true.mp blank character member
      rw [solid] at isBlankToo
      cases isBlankToo
  conv_rhs => rw [whole]
  rw [List.count_append, List.count_append, foreign leadBlank, foreign trailBlank, Nat.zero_add,
    Nat.add_zero]

/-- White space around a trimmed text is stripped. -/
theorem strip_append_append
    {lead core trail : Text}
    (trimmed : IsTrimmed core)
    (nonempty : core ≠ [])
    (leadBlank : lead.all isBlank = true)
    (trailBlank : trail.all isBlank = true) :
    strip (lead ++ (core ++ trail)) = core := by
  have start : startsWith isBlank (core ++ trail) = false := by
    cases core with
    | nil => exact absurd rfl nonempty
    | cons first rest => exact trimmed.start
  rw [strip, stripStart, dropWhile_append_eq leadBlank start, stripEnd, List.reverse_append,
    dropWhile_append_eq (by rwa [List.all_reverse]) trimmed.ending, List.reverse_reverse]

/-- Nothing is left of white space. -/
theorem strip_eq_nil_iff {text : Text} : strip text = [] ↔ text.all isBlank = true := by
  constructor
  · intro empty
    obtain ⟨lead, trail, whole, leadBlank, trailBlank⟩ := exists_strip_append text
    rw [whole, empty, List.nil_append, List.all_append, leadBlank, trailBlank, Bool.and_self]
  · intro blank
    have nothing : stripStart text = [] :=
      List.dropWhile_eq_nil_iff.mpr (List.all_eq_true.mp blank)
    rw [strip, nothing]
    rfl

theorem strip_append_left {lead : Text} (blank : lead.all isBlank = true) (text : Text) :
    strip (lead ++ text) = strip text := by
  rw [strip, stripStart, List.dropWhile_append_of_pos (List.all_eq_true.mp blank)]
  rfl

theorem strip_append_right {trail : Text} (blank : trail.all isBlank = true) (text : Text) :
    strip (text ++ trail) = strip text := by
  by_cases empty : strip text = []
  · have nothing : strip (text ++ trail) = [] := by
      rw [strip_eq_nil_iff, List.all_append, strip_eq_nil_iff.mp empty, blank, Bool.and_self]
    rw [nothing, empty]
  · obtain ⟨lead, gap, whole, leadBlank, gapBlank⟩ := exists_strip_append text
    have longer : text ++ trail = lead ++ (strip text ++ (gap ++ trail)) := by
      conv => lhs; rw [whole]
      simp
    rw [longer]
    refine strip_append_append (isTrimmed_strip text) empty leadBlank ?_
    rw [List.all_append, gapBlank, blank, Bool.and_self]

/-! ## Spaced texts -/

/-- A text that has some words in their order, and white space between them. -/
inductive IsSpaced : List Text → Text → Prop
  | last (word : Text) : IsSpaced [word] word
  | next
      {words : List Text}
      {rest : Text}
      (word gap : Text)
      (blank : gap.all isBlank = true)
      (spaced : IsSpaced words rest) :
      IsSpaced (word :: words) (word ++ (gap ++ rest))

namespace IsSpaced

/-- Two spaced texts with white space between them are a spaced text. -/
theorem append
    {first second : List Text}
    {left right gap : Text}
    (leftSpaced : IsSpaced first left)
    (blank : gap.all isBlank = true)
    (rightSpaced : IsSpaced second right) :
    IsSpaced (first ++ second) (left ++ (gap ++ right)) := by
  induction leftSpaced with
  | last word => exact .next word gap blank rightSpaced
  | next word inner innerBlank spaced inductionHypothesis =>
      rw [List.append_assoc, List.append_assoc, List.cons_append]
      exact .next word inner innerBlank inductionHypothesis

/-- A text of spaced texts is spaced. -/
theorem flatMap
    {α : Type}
    {items : List α}
    {textOf : α → Text}
    {wordsOf : α → List Text}
    {text : Text}
    (spaced : IsSpaced (items.map textOf) text)
    (each : ∀ item ∈ items, IsSpaced (wordsOf item) (textOf item)) :
    IsSpaced (items.flatMap wordsOf) text := by
  induction items generalizing text with
  | nil => cases spaced
  | cons item rest inductionHypothesis =>
      obtain ⟨first, others⟩ := List.forall_mem_cons.mp each
      rw [List.map_cons] at spaced
      generalize words : rest.map textOf = following at spaced
      rw [List.flatMap_cons]
      cases spaced with
      | last =>
          rw [List.map_eq_nil_iff.mp words, List.flatMap_nil, List.append_nil]
          exact first
      | next _ gap blank spaced =>
          subst words
          exact first.append blank (inductionHypothesis spaced others)

/-- What holds of white space and of all characters of the words holds of all characters
of the text. -/
theorem forall_mem
    {holds : Char → Prop}
    {words : List Text}
    {text : Text}
    (spaced : IsSpaced words text)
    (blank : ∀ character, isBlank character = true → holds character)
    (inside : ∀ word ∈ words, ∀ character ∈ word, holds character) :
    ∀ character ∈ text, holds character := by
  induction spaced with
  | last word => exact inside word (List.mem_singleton_self word)
  | next word gap gapBlank spaced inductionHypothesis =>
      obtain ⟨first, others⟩ := List.forall_mem_cons.mp inside
      intro character member
      rw [List.mem_append, List.mem_append] at member
      rcases member with member | member | member
      · exact first character member
      · exact blank character (List.all_eq_true.mp gapBlank character member)
      · exact inductionHypothesis others character member

/-- A word that can stand in a spaced text: it has characters, and no white space. -/
def IsWord (word : Text) : Prop := word ≠ [] ∧ ∀ character ∈ word, isBlank character = false

theorem IsWord.isTrimmed {word : Text} (isWord : IsWord word) : IsTrimmed word :=
  ⟨startsWith_of_forall isWord.2,
    startsWith_of_forall fun character member =>
      isWord.2 character (List.mem_reverse.mp member)⟩

theorem startsWith_append
    {holds : Char → Bool}
    {text rest : Text}
    (nonempty : text ≠ []) :
    startsWith holds (text ++ rest) = startsWith holds text := by
  cases text with
  | nil => exact absurd rfl nonempty
  | cons first others => rfl

theorem ne_nil
    {words : List Text}
    {text : Text}
    (spaced : IsSpaced words text)
    (areWords : ∀ word ∈ words, IsWord word) :
    text ≠ [] := by
  cases spaced with
  | last => exact (areWords text (List.mem_singleton_self text)).1
  | next word gap blank spaced =>
      have nonempty := (areWords word List.mem_cons_self).1
      simp [nonempty]

/-- A text of words is trimmed. -/
theorem isTrimmed
    {words : List Text}
    {text : Text}
    (spaced : IsSpaced words text)
    (areWords : ∀ word ∈ words, IsWord word) :
    IsTrimmed text := by
  induction spaced with
  | last word => exact (areWords word (List.mem_singleton_self word)).isTrimmed
  | next word gap blank spaced inductionHypothesis =>
      obtain ⟨first, others⟩ := List.forall_mem_cons.mp areWords
      refine ⟨?_, ?_⟩
      · rw [startsWith_append first.1]
        exact first.isTrimmed.start
      · have nonempty := spaced.ne_nil others
        rw [List.reverse_append, List.reverse_append, List.append_assoc,
          startsWith_append (by simpa using nonempty)]
        exact (inductionHypothesis others).ending

end IsSpaced
end Text
end Joinery
