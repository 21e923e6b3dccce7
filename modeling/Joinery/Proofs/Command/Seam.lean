import Mathlib.Data.List.Basic
import Joinery.Command

/-!
# Commands across a seam

Where a line cannot continue the command above it, a text falls into two parts, and its
commands are those of the first part and those of the second one further down. Silent
lines in between only move the second part.
-/

namespace Joinery
namespace Command

/-- The command some lines further down. -/
def shift (count : Nat) (command : Command) : Command :=
  { command with line := command.line + count }

/-- A line that cannot continue a command: nothing is on it but a comment, or it is not
indented. -/
def StartsAnew (line : Text) : Prop :=
  isSilent (Text.strip line) = true ∨ isIndented line = false

/-- A single line with nothing on it but white space or a comment. -/
def IsSilentLine (line : Text) : Prop :=
  '\n' ∉ line ∧ isSilent (Text.strip line) = true

/-! ## Lines -/

theorem lines_ne_nil (text : Text) : lines text ≠ [] := by
  cases text with
  | nil => simp [lines]
  | cons character rest =>
      unfold lines
      split
      · exact List.cons_ne_nil _ _
      · split
        · exact List.cons_ne_nil _ _
        · exact List.cons_ne_nil _ _

theorem lines_cons_of_ne
    {character : Char}
    (different : character ≠ '\n')
    {rest line : Text}
    {others : List Text}
    (known : lines rest = line :: others) :
    lines (character :: rest) = (character :: line) :: others := by
  rw [lines, if_neg different, known]

/-- A line break separates the lines in front of it from those behind it. -/
theorem lines_append_break (before after : Text) :
    lines (before ++ '\n' :: after) = lines before ++ lines after := by
  induction before with
  | nil => simp [lines]
  | cons character rest inductionHypothesis =>
      rw [List.cons_append]
      by_cases isBreak : character = '\n'
      · rw [lines, lines, if_pos isBreak, if_pos isBreak, inductionHypothesis, List.cons_append]
      · obtain ⟨line, others, known⟩ := List.exists_cons_of_ne_nil (lines_ne_nil rest)
        rw [known, List.cons_append] at inductionHypothesis
        rw [lines_cons_of_ne isBreak inductionHypothesis, lines_cons_of_ne isBreak known,
          List.cons_append]

theorem lines_of_not_mem {line : Text} (single : '\n' ∉ line) : lines line = [line] := by
  induction line with
  | nil => rfl
  | cons character rest inductionHypothesis =>
      rw [List.mem_cons, not_or] at single
      exact lines_cons_of_ne (Ne.symm single.1) (inductionHypothesis single.2)

/-- A text with some lines in front of it. -/
def below : List Text → Text → Text
  | [], text => text
  | line :: rest, text => line ++ '\n' :: below rest text

theorem lines_below
    {above : List Text}
    (single : ∀ line ∈ above, '\n' ∉ line)
    (text : Text) :
    lines (below above text) = above ++ lines text := by
  induction above with
  | nil => rfl
  | cons line rest inductionHypothesis =>
      obtain ⟨first, others⟩ := List.forall_mem_cons.mp single
      rw [below, lines_append_break, lines_of_not_mem first, inductionHypothesis others]
      rfl

/-! ## Commands -/

/-- Numbers of lines are counted on from the first one. -/
theorem gather_add (count number : Nat) (isOpen : Bool) (rows : List Text) :
    gather (number + count) isOpen rows =
      ((gather number isOpen rows).1, (gather number isOpen rows).2.map (shift count)) := by
  induction rows generalizing number isOpen with
  | nil => rfl
  | cons line rest inductionHypothesis =>
      have further (isOpen : Bool) := inductionHypothesis (number + 1) isOpen
      rw [Nat.add_right_comm] at further
      unfold gather
      simp only [further]
      split
      · rfl
      · split
        · rfl
        · rfl

/-- A command that is open does not go on in a row of lines that starts anew. -/
theorem gather_of_startsAnew
    {rows : List Text}
    (anew : ∀ line ∈ rows.head?, StartsAnew line)
    (number : Nat)
    (isOpen : Bool) :
    gather number isOpen rows = ([], (gather number false rows).2) := by
  cases rows with
  | nil => rfl
  | cons line rest =>
      unfold gather
      rcases anew line rfl with silent | plain
      · simp only [silent, if_true]
      · simp only [plain, Bool.and_false, Bool.false_eq_true, if_false]
        split
        · rfl
        · rfl

/-- Commands of two rows of lines, when the second row starts anew. -/
theorem gather_append
    {second : List Text}
    (anew : ∀ line ∈ second.head?, StartsAnew line)
    (number : Nat)
    (isOpen : Bool)
    (first : List Text) :
    gather number isOpen (first ++ second) =
      ((gather number isOpen first).1,
        (gather number isOpen first).2 ++ (gather (number + first.length) false second).2) := by
  induction first generalizing number isOpen with
  | nil => exact gather_of_startsAnew anew number isOpen
  | cons line rest inductionHypothesis =>
      have further (isOpen : Bool) := inductionHypothesis (number + 1) isOpen
      rw [Nat.add_assoc, Nat.add_comm 1] at further
      rw [List.cons_append, List.length_cons]
      generalize gather (number + (rest.length + 1)) false second = later at further ⊢
      unfold gather
      simp only [further]
      split
      · rfl
      · split
        · rfl
        · rfl

theorem gather_of_silent
    {rows : List Text}
    (silent : ∀ line ∈ rows, isSilent (Text.strip line) = true)
    (number : Nat) :
    gather number false rows = ([], []) := by
  induction rows generalizing number with
  | nil => rfl
  | cons line rest inductionHypothesis =>
      obtain ⟨first, others⟩ := List.forall_mem_cons.mp silent
      rw [gather]
      simp only [first, if_true, inductionHypothesis others]

/-- Commands of two texts with silent lines between them, when the second text starts
anew. -/
theorem commands_append
    {after : Text}
    (anew : ∀ line ∈ (lines after).head?, StartsAnew line)
    (before : Text)
    {silent : List Text}
    (areSilent : ∀ line ∈ silent, IsSilentLine line) :
    commands (before ++ '\n' :: below silent after) =
      commands before ++
        (commands after).map (shift ((lines before).length + silent.length)) := by
  have rows := lines_below (fun line member => (areSilent line member).1) after
  have quiet : ∀ line ∈ silent, isSilent (Text.strip line) = true :=
    fun line member => (areSilent line member).2
  -- The first line behind the break is silent, or it is the first one of the second text.
  have startsAnew : ∀ line ∈ (silent ++ lines after).head?, StartsAnew line := by
    cases silent with
    | nil => exact anew
    | cons first rest =>
        intro line member
        cases member
        exact Or.inl (quiet first List.mem_cons_self)
  unfold commands
  rw [lines_append_break, rows, gather_append startsAnew, gather_append anew,
    gather_of_silent quiet, List.nil_append, Nat.add_assoc, gather_add]

end Command
end Joinery
