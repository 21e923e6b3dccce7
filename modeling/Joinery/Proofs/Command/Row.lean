import Joinery.Proofs.Command.Part
import Joinery.Proofs.Text.Spacing

/-!
# Commands of rows of lines

The commands of two rows of lines are those of the first row and those of the second one.
A board command that is open behind the first row goes on with the continuations that the
second one starts with. So a line decides the text of one command, and whether the lines
below it go on with that command.
-/

namespace Joinery
namespace Command

/-- What some continuations add to the text of a command. -/
def tailText (continuations : List Text) : Text := continuations.flatMap (' ' :: ·)

/-- The command with further continuations. -/
def extend (continuations : List Text) (command : Command) : Command :=
  { command with text := command.text ++ tailText continuations }

/-- Commands of which the last one goes on. -/
def extendLast (continuations : List Text) : List Command → List Command
  | [] => []
  | [command] => [command.extend continuations]
  | command :: rest => command :: extendLast continuations rest

/-- What two rows of lines start with and hold, from what each of them does. -/
def joinRows : List Text × List Command → List Text × List Command → List Text × List Command
  | (first, []), (second, commands) => (first ++ second, commands)
  | (first, command :: rest), (second, commands) =>
      (first, extendLast second (command :: rest) ++ commands)

/-- Whether a board command is open behind a line. -/
def isOpenBehind (isOpen : Bool) (line : Text) : Bool :=
  !isSilent (Text.strip line) &&
    (isOpen && isIndented line || decide (kindOf (Text.strip line) = .board))

/-- Whether a board command is open behind a row of lines. -/
def isOpenAfter (isOpen : Bool) (rows : List Text) : Bool := rows.foldl isOpenBehind isOpen

/-- A row of lines with the continuations that it starts with made blank. -/
def withoutContinuations : (isOpen : Bool) → List Text → List Text
  | _, [] => []
  | isOpen, line :: rest =>
      if isOpen && !isSilent (Text.strip line) && isIndented line then
        [] :: withoutContinuations true rest
      else line :: rest

/-- A text of lines. -/
def unlines (rows : List Text) : Text := ['\n'].intercalate rows

theorem intercalate_cons (first : Text) (others : List Text) :
    [' '].intercalate (first :: others) = first ++ tailText others := by
  induction others generalizing first with
  | nil => simp [tailText]
  | cons second others inductionHypothesis =>
      rw [List.intercalate_cons_cons, inductionHypothesis]
      simp [tailText]

theorem extendLast_append_singleton
    (continuations : List Text)
    (commands : List Command)
    (last : Command) :
    extendLast continuations (commands ++ [last]) =
      commands ++ [last.extend continuations] := by
  induction commands with
  | nil => rfl
  | cons command rest inductionHypothesis =>
      rw [List.cons_append, extendLast, inductionHypothesis]
      · rfl
      · simp

theorem extendLast_nil (commands : List Command) : extendLast [] commands = commands := by
  induction commands with
  | nil => rfl
  | cons command rest inductionHypothesis =>
      cases rest with
      | nil => simp [extendLast, extend, tailText]
      | cons next further => rw [extendLast, inductionHypothesis]; simp

theorem joinRows_nil (first : List Text) (earlier commands : List Command) :
    joinRows (first, earlier) ([], commands) = (first, earlier ++ commands) := by
  cases earlier with
  | nil => rw [joinRows, List.append_nil, List.nil_append]
  | cons command rest => rw [joinRows, extendLast_nil]

theorem joinRows_concat
    (first second : List Text)
    (earlier commands : List Command)
    (last : Command) :
    joinRows (first, earlier ++ [last]) (second, commands) =
      (first, earlier ++ last.extend second :: commands) := by
  have extended := extendLast_append_singleton second earlier last
  cases earlier with
  | nil => rfl
  | cons command rest =>
      rw [List.cons_append] at extended ⊢
      rw [joinRows, extended]
      simp

/-! ## Lines of a text -/

theorem lines_unlines
    {rows : List Text}
    (nonempty : rows ≠ [])
    (single : ∀ row ∈ rows, '\n' ∉ row) :
    lines (unlines rows) = rows := by
  induction rows with
  | nil => exact absurd rfl nonempty
  | cons row rest inductionHypothesis =>
      obtain ⟨first, others⟩ := List.forall_mem_cons.mp single
      cases rest with
      | nil =>
          rw [unlines, List.intercalate_singleton]
          exact lines_of_not_mem first
      | cons next further =>
          rw [unlines, List.intercalate_cons_cons, ← unlines, List.append_assoc,
            List.singleton_append, lines_append_break, lines_of_not_mem first,
            inductionHypothesis (List.cons_ne_nil _ _) others]
          rfl

/-- The lines of a text make up the text again. -/
theorem unlines_lines (text : Text) : unlines (lines text) = text := by
  induction text with
  | nil => rfl
  | cons character rest inductionHypothesis =>
      obtain ⟨first, others, known⟩ := List.exists_cons_of_ne_nil (lines_ne_nil rest)
      rw [known] at inductionHypothesis
      by_cases isBreak : character = '\n'
      · rw [lines, if_pos isBreak, known, unlines, List.intercalate_cons_cons, ← unlines,
          inductionHypothesis, isBreak]
        rfl
      · rw [lines_cons_of_ne isBreak known, ← inductionHypothesis]
        cases others with
        | nil => rfl
        | cons next further => rfl

theorem commands_unlines
    {rows : List Text}
    (nonempty : rows ≠ [])
    (single : ∀ row ∈ rows, '\n' ∉ row) :
    commands (unlines rows) = (gather 1 false rows).2 := by
  rw [commands, lines_unlines nonempty single]

theorem not_mem_of_mem_lines {text line : Text} (member : line ∈ lines text) : '\n' ∉ line := by
  induction text generalizing line with
  | nil =>
      rw [List.mem_singleton.mp member]
      exact List.not_mem_nil
  | cons character rest inductionHypothesis =>
      by_cases isBreak : character = '\n'
      · rw [lines, if_pos isBreak] at member
        rcases List.mem_cons.mp member with rfl | later
        · exact List.not_mem_nil
        · exact inductionHypothesis later
      · obtain ⟨first, others, known⟩ := List.exists_cons_of_ne_nil (lines_ne_nil rest)
        rw [lines_cons_of_ne isBreak known] at member
        rw [known] at inductionHypothesis
        rcases List.mem_cons.mp member with rfl | later
        · rw [List.mem_cons, not_or]
          exact ⟨Ne.symm isBreak, inductionHypothesis List.mem_cons_self⟩
        · exact inductionHypothesis (List.mem_cons_of_mem _ later)

theorem isIndented_cons (first : Char) (rest : Text) :
    isIndented (first :: rest) = (first == ' ' || first == '\t') := by
  unfold isIndented
  split
  next same =>
    cases same
    rfl
  next same =>
    cases same
    rfl
  next notSpace notTab =>
    have other : first ≠ ' ' := fun same => notSpace rest (by rw [same])
    have another : first ≠ '\t' := fun same => notTab rest (by rw [same])
    rw [beq_false_of_ne other, beq_false_of_ne another, Bool.or_self]

theorem isIndented_append {line : Text} (nonempty : line ≠ []) (rest : Text) :
    isIndented (line ++ rest) = isIndented line := by
  cases line with
  | nil => exact absurd rfl nonempty
  | cons first others => rw [List.cons_append, isIndented_cons, isIndented_cons]

/-- A command has no line break. -/
theorem not_mem_of_mem_commands
    {text : Text}
    {command : Command}
    (member : command ∈ commands text) :
    '\n' ∉ command.text := by
  intro broken
  obtain ⟨before, after, same⟩ := List.append_of_mem broken
  have inside : ['\n'] <:+: command.text := ⟨before, after, by simp [same]⟩
  obtain ⟨row, isRow, part⟩ := (exists_infix_of_gather (List.cons_ne_nil _ _) (by decide) 1 false
    (lines text)).2 command member inside
  exact not_mem_of_mem_lines isRow (part.subset List.mem_cons_self)

/-! ## Rows put together -/

/-- Nothing goes on if no command is open. -/
theorem gather_false (number : Nat) (rows : List Text) :
    gather number false rows = ([], (gather number false rows).2) := by
  cases rows with
  | nil => rfl
  | cons line rest =>
      unfold gather
      dsimp only
      split
      · rfl
      · rfl

section Line

variable {line : Text} (rest : List Text) (number : Nat) (isOpen : Bool)

theorem gather_cons_of_isSilent (silent : isSilent (Text.strip line) = true) :
    gather number isOpen (line :: rest) = gather (number + 1) false rest := by
  rw [gather_false (number + 1) rest]
  simp only [gather, silent, if_true]

variable (spoken : isSilent (Text.strip line) = false)
include spoken

theorem gather_cons_of_continues (continues : (isOpen && isIndented line) = true) :
    gather number isOpen (line :: rest) =
      (Text.strip line :: (gather (number + 1) true rest).1,
        (gather (number + 1) true rest).2) := by
  simp only [gather, spoken, continues, if_true, Bool.false_eq_true, if_false]

theorem gather_cons_of_starts (starts : (isOpen && isIndented line) = false) :
    gather number isOpen (line :: rest) =
      let below := gather (number + 1) (kindOf (Text.strip line) = .board) rest
      ([], ⟨number, kindOf (Text.strip line), Text.strip line ++ tailText below.1⟩ ::
        below.2) := by
  simp only [gather, spoken, starts, Bool.false_eq_true, if_false, intercalate_cons]

end Line

/-- The commands of two rows of lines. -/
theorem gather_append_rows
    (number : Nat)
    (isOpen : Bool)
    (first second : List Text) :
    gather number isOpen (first ++ second) =
      joinRows (gather number isOpen first)
        (gather (number + first.length) (isOpenAfter isOpen first) second) := by
  induction first generalizing number isOpen with
  | nil => rfl
  | cons line rest inductionHypothesis =>
      have further (isOpen : Bool) := inductionHypothesis (number + 1) isOpen
      rw [Nat.add_assoc, Nat.add_comm 1] at further
      rw [List.cons_append, List.length_cons, isOpenAfter, List.foldl_cons, ← isOpenAfter]
      cases silent : isSilent (Text.strip line) with
      | true =>
          have closed : isOpenBehind isOpen line = false := by simp [isOpenBehind, silent]
          rw [gather_cons_of_isSilent _ _ _ silent, gather_cons_of_isSilent _ _ _ silent, closed]
          exact further false
      | false =>
          cases continues : isOpen && isIndented line with
          | true =>
              have isOpenStill : isOpenBehind isOpen line = true := by
                simp [isOpenBehind, silent, continues]
              rw [gather_cons_of_continues _ _ _ silent continues,
                gather_cons_of_continues _ _ _ silent continues, isOpenStill, further]
              obtain ⟨continuations, _ | ⟨command, commands⟩⟩ := gather (number + 1) true rest
              · rfl
              · rfl
          | false =>
              have opens : isOpenBehind isOpen line =
                  decide (kindOf (Text.strip line) = .board) := by
                simp [isOpenBehind, silent, continues]
              rw [gather_cons_of_starts _ _ _ silent continues,
                gather_cons_of_starts _ _ _ silent continues, opens, further]
              obtain ⟨continuations, _ | ⟨command, commands⟩⟩ :=
                gather (number + 1) (kindOf (Text.strip line) = .board) rest
              · simp [joinRows, extendLast, extend, tailText]
              · rfl

/-- Continuations are stripped lines that are not silent. -/
theorem isSilent_of_mem_fst_gather
    {number : Nat}
    {isOpen : Bool}
    {rows : List Text}
    {part : Text}
    (member : part ∈ (gather number isOpen rows).1) :
    Text.IsTrimmed part ∧ isSilent part = false := by
  induction rows generalizing number isOpen with
  | nil => cases member
  | cons row rest inductionHypothesis =>
      cases silent : isSilent (Text.strip row) with
      | true =>
          rw [gather_cons_of_isSilent _ _ _ silent, gather_false] at member
          cases member
      | false =>
          cases continues : isOpen && isIndented row with
          | true =>
              rw [gather_cons_of_continues _ _ _ silent continues] at member
              rcases List.mem_cons.mp member with rfl | later
              · exact ⟨Text.isTrimmed_strip row, silent⟩
              · exact inductionHypothesis later
          | false =>
              rw [gather_cons_of_starts _ _ _ silent continues] at member
              cases member

/-- What continuations add to a command is nothing, or it starts with a space and a character
that is no white space and no number sign. -/
theorem exists_tailText_gather (number : Nat) (isOpen : Bool) (rows : List Text) :
    tailText (gather number isOpen rows).1 = [] ∨
      ∃ solid more, tailText (gather number isOpen rows).1 = ' ' :: solid :: more ∧
        Text.isBlank solid = false ∧ solid ≠ '#' := by
  cases known : (gather number isOpen rows).1 with
  | nil => exact Or.inl rfl
  | cons part others =>
      have member : part ∈ (gather number isOpen rows).1 := by simp [known]
      obtain ⟨trimmed, spoken⟩ := isSilent_of_mem_fst_gather member
      cases part with
      | nil => cases spoken
      | cons solid more =>
          refine Or.inr ⟨solid, more ++ tailText others, rfl, trimmed.start, ?_⟩
          rintro rfl
          cases spoken

/-! ## Rows without continuations -/

theorem withoutContinuations_false (rows : List Text) :
    withoutContinuations false rows = rows := by
  cases rows with
  | nil => rfl
  | cons line rest => simp [withoutContinuations]

theorem mem_withoutContinuations
    {isOpen : Bool}
    {rows : List Text}
    {row : Text}
    (member : row ∈ withoutContinuations isOpen rows) :
    row = [] ∨ row ∈ rows := by
  induction rows generalizing isOpen with
  | nil => exact Or.inr member
  | cons line rest inductionHypothesis =>
      unfold withoutContinuations at member
      split at member
      · rcases List.mem_cons.mp member with rfl | later
        · exact Or.inl rfl
        · exact (inductionHypothesis later).imp_right (List.mem_cons_of_mem line)
      · exact Or.inr member

theorem startsAnew_of_not_continues
    {line : Text}
    (anew : ¬ (true && !isSilent (Text.strip line) && isIndented line) = true) :
    StartsAnew line := by
  unfold StartsAnew
  cases silent : isSilent (Text.strip line) with
  | true => exact Or.inl rfl
  | false =>
      rw [silent] at anew
      simpa using anew

theorem startsAnew_withoutContinuations (rows : List Text) :
    ∀ line ∈ (withoutContinuations true rows).head?, StartsAnew line := by
  intro line member
  cases rows with
  | nil => cases member
  | cons first rest =>
      unfold withoutContinuations at member
      split at member
      · cases member
        exact Or.inl rfl
      next anew =>
        cases member
        exact startsAnew_of_not_continues anew

/-- The commands below an open one stay when its continuations are made blank. -/
theorem snd_gather_withoutContinuations (number : Nat) (rows : List Text) :
    (gather number false (withoutContinuations true rows)).2 =
      (gather number true rows).2 := by
  induction rows generalizing number with
  | nil => rfl
  | cons line rest inductionHypothesis =>
      unfold withoutContinuations
      split
      next continues =>
        simp only [Bool.true_and, Bool.and_eq_true, Bool.not_eq_true'] at continues
        rw [gather_cons_of_isSilent _ _ _ rfl, inductionHypothesis,
          gather_cons_of_continues _ _ _ continues.1]
        exact continues.2
      next anew =>
        have startsAnew := startsAnew_of_not_continues anew
        rw [gather_of_startsAnew (by simpa using startsAnew) number true]

/-- Continuations that are made blank belong to no command. -/
theorem gather_withoutContinuations
    (number : Nat)
    (isOpen : Bool)
    (rows : List Text) :
    gather number isOpen (withoutContinuations isOpen rows) =
      ([], (gather number isOpen rows).2) := by
  cases isOpen with
  | false => rw [withoutContinuations_false, ← gather_false]
  | true =>
      rw [gather_of_startsAnew (startsAnew_withoutContinuations rows),
        snd_gather_withoutContinuations]

/-! ## The place of a line -/

/-- A second line of a command that is indented as the first one is, and would start a command
of the same kind. -/
structure AreAlike (first second : Text) : Prop where
  spoken : isSilent (Text.strip second) = false
  indented : isIndented second = isIndented first
  kind : kindOf (Text.strip second) = kindOf (Text.strip first)

/-- An open command is the last one of a row, if the row starts with no open command. -/
theorem exists_last_of_isOpenAfter
    {rows : List Text}
    {isOpen : Bool}
    (open_ : isOpenAfter isOpen rows = true)
    (number : Nat) :
    (∃ earlier last, (gather number isOpen rows).2 = earlier ++ [last] ∧ last.kind = .board) ∨
      isOpen = true ∧ (gather number isOpen rows).2 = [] := by
  induction rows generalizing number isOpen with
  | nil => exact Or.inr ⟨open_, rfl⟩
  | cons line rest inductionHypothesis =>
      rw [isOpenAfter, List.foldl_cons, ← isOpenAfter] at open_
      have further := inductionHypothesis open_ (number + 1)
      cases silent : isSilent (Text.strip line) with
      | true =>
          have closed : isOpenBehind isOpen line = false := by simp [isOpenBehind, silent]
          rw [closed] at further
          rw [gather_cons_of_isSilent _ _ _ silent]
          exact Or.inl (further.resolve_right (by simp))
      | false =>
          cases continues : isOpen && isIndented line with
          | true =>
              have isOpenStill : isOpenBehind isOpen line = true := by
                simp [isOpenBehind, silent, continues]
              rw [isOpenStill] at further
              rw [gather_cons_of_continues _ _ _ silent continues]
              exact further.imp_right fun none => ⟨(Bool.and_eq_true_iff.mp continues).1, none.2⟩
          | false =>
              have opens : isOpenBehind isOpen line =
                  decide (kindOf (Text.strip line) = .board) := by
                simp [isOpenBehind, silent, continues]
              rw [opens] at further
              rw [gather_cons_of_starts _ _ _ silent continues]
              rcases further with ⟨earlier, last, same, kind⟩ | ⟨isBoard, none⟩
              · exact Or.inl ⟨_ :: earlier, last, congrArg (_ :: ·) same, kind⟩
              · exact Or.inl ⟨[], _, congrArg (_ :: ·) none, of_decide_eq_true isBoard⟩

/-- A line belongs to one command: it starts the command or goes on with a board command.
Lines that are like it do the same in its place, and the command goes on with the
continuations below. -/
theorem exists_place_of_line
    (above : List Text)
    {line : Text}
    (spoken : isSilent (Text.strip line) = false) :
    ∃ earlier number kind start,
      isOpenAfter false (above ++ [line]) = decide (kind = .board) ∧
      (kind ≠ .board → start = []) ∧
      ∀ other, AreAlike line other → ∀ below,
        (gather 1 false (above ++ other :: below)).2 =
          earlier ++
            ⟨number, kind, start ++ (Text.strip other ++
              tailText (gather (above.length + 2) (kind = .board) below).1)⟩ ::
              (gather (above.length + 2) (kind = .board) below).2 := by
  have next : 1 + above.length + 1 = above.length + 2 := by omega
  have behind : isOpenAfter false (above ++ [line]) =
      isOpenBehind (isOpenAfter false above) line := by
    simp [isOpenAfter]
  cases continues : isOpenAfter false above && isIndented line with
  | true =>
      -- The line is a continuation of the last command above it.
      obtain ⟨open_, indented⟩ := Bool.and_eq_true_iff.mp continues
      obtain ⟨earlier, last, same, kind⟩ :=
        (exists_last_of_isOpenAfter open_ 1).resolve_right (by simp)
      refine ⟨earlier, last.line, .board, last.text ++ [' '], ?_, by simp, ?_⟩
      · simp [behind, isOpenBehind, spoken, continues]
      · intro other alike below
        rw [gather_append_rows, gather_false, same,
          gather_cons_of_continues _ _ _ alike.spoken (by rw [alike.indented, continues]), next,
          joinRows_concat]
        simp [extend, tailText, kind]
  | false =>
      refine ⟨(gather 1 false above).2, 1 + above.length, kindOf (Text.strip line), [], ?_,
        fun _ => rfl, ?_⟩
      · simp [behind, isOpenBehind, spoken, continues]
      · intro other alike below
        rw [gather_append_rows, gather_false,
          gather_cons_of_starts _ _ _ alike.spoken (by rw [alike.indented, continues]), next,
          alike.kind, joinRows_nil]
        rfl

end Command
end Joinery
