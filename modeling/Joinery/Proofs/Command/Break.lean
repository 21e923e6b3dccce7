import Joinery.Proofs.Command.Heading
import Joinery.Proofs.Command.Order
import Joinery.Proofs.Command.Row
import Joinery.Proofs.Text.Respaced

/-!
# Board commands broken in two

A board command may be broken at white space behind the name of its board. The part in front
of the break has a heading already, and what stands behind it only makes the options longer.
The second line goes on with the command, unless it is silent: then the command ends at the
break. The commands below it are one line further down.
-/

namespace Joinery

namespace Heading

/-! ## Quotes in front of the break -/

theorem ne_quote_of_startsWith
    {word line : Text}
    (starts : Command.startsWith word line = true)
    (plain : '"' ∉ word) :
    '"' ∉ line.take word.length := by
  induction word generalizing line with
  | nil => simp
  | cons letter others inductionHypothesis =>
      cases line with
      | nil => cases starts
      | cons character rest =>
          rw [Command.startsWith, Bool.and_eq_true, beq_iff_eq] at starts
          rw [List.mem_cons, not_or] at plain
          rw [List.length_cons, List.take_succ_cons, List.mem_cons, not_or]
          refine ⟨?_, inductionHypothesis starts.2 plain.2⟩
          rintro rfl
          exact plain.1 starts.1

theorem not_mem_idAt (text : Text) : '"' ∉ idAt text := by
  intro member
  unfold idAt at member
  split at member
  · cases member
  · split at member
    next starts =>
      rcases List.mem_cons.mp member with rfl | later
      · exact absurd starts (by decide)
      · exact absurd (List.mem_takeWhile_imp later) (by decide)
    next => cases member

/-- An id in brackets has no quote. -/
theorem exists_opening_of_bracketedId?
    {text rest : Text}
    {id : Option Text}
    (found : bracketedId? text = some (id, rest)) :
    ∃ opening, text = opening ++ rest ∧ '"' ∉ opening := by
  by_cases opens : text.head? = some '['
  · obtain ⟨inside, rfl⟩ := List.head?_eq_some_iff.mp opens
    obtain ⟨⟨nonempty, closing⟩, same⟩ := Option.ite_none_right_eq_some.mp found
    cases same
    obtain ⟨others, behind⟩ := List.head?_eq_some_iff.mp closing
    have whole : inside = idAt inside ++ ']' :: others := by
      rw [← behind]
      exact (List.prefix_iff_eq_append.mp (idAt_isPrefix inside)).symm
    refine ⟨'[' :: (idAt inside ++ [']']), ?_, ?_⟩
    · rw [← List.drop_drop, behind, List.drop_one, List.tail_cons, List.cons_append,
        List.append_assoc, List.singleton_append, ← whole]
    · simp [not_mem_idAt inside]
  · rw [bracketedId?_of_head?_ne opens] at found
    cases found
    exact ⟨[], rfl, List.not_mem_nil⟩

/-- Dimensions that are longer than a text with two quotes in it have a quote in them. -/
theorem quote_mem_dimensions
    {id : Option Text}
    {before text tail : Text}
    {heading : Heading}
    (single : '\n' ∉ text ++ tail)
    (quotes : 2 ≤ text.count '"')
    (headless : body? id before text = none)
    (found : body? id before (text ++ tail) = some heading) :
    '"' ∈ heading.dimensions := by
  induction text generalizing before with
  | nil => simp at quotes
  | cons character rest inductionHypothesis =>
      obtain ⟨part, others, nonempty, whole, dimensions⟩ := exists_dimensions_of_body? found
      by_cases isQuote : character = '"'
      · cases part with
        | nil => exact absurd rfl nonempty
        | cons first more =>
            have isFirst : first = '"' := by
              rw [← isQuote]
              exact (List.cons.inj whole).1.symm
            rw [dimensions, isFirst]
            simp
      · rw [List.cons_append, List.mem_cons, not_or] at single
        rw [List.count_cons_of_ne isQuote] at quotes
        rw [body?, if_neg (Ne.symm single.1)] at headless
        rw [List.cons_append, body?, if_neg (Ne.symm single.1)] at found
        split at headless
        · cases headless
        next unnamed =>
          rw [nameAndOptions?_append_eq_none single.2 quotes unnamed] at found
          exact inductionHypothesis single.2 quotes headless found

/-- A part of a board command with two quotes in it has a heading. -/
theorem exists_ofLine?_of_quotes
    {line tail : Text}
    {heading : Heading}
    (spaced : Text.startsWith Text.isBlank tail = true)
    (single : '\n' ∉ line ++ tail)
    (quotes : 2 ≤ line.count '"')
    (found : ofLine? (line ++ tail) = some heading ∧ heading.IsSolid)
    (unquoted : '"' ∉ heading.dimensions) :
    ∃ shorter, ofLine? line = some shorter ∧ shorter.IsSolid := by
  obtain ⟨starts, id, rest, bracketed, gap, text, behind, blank, solid, nonempty, known⟩ :=
    exists_body?_of_append spaced found
  obtain ⟨opening, whole, unquotedOpening⟩ := exists_opening_of_bracketedId? bracketed
  have inRest : rest.count '"' = line.count '"' := by
    have word := ne_quote_of_startsWith starts (by decide)
    conv_rhs => rw [← List.take_append_drop Command.boardWord.length line, whole]
    rw [List.count_append, List.count_append, List.count_eq_zero.mpr word,
      List.count_eq_zero.mpr unquotedOpening, Nat.zero_add, Nat.zero_add]
  have inGap : gap.count '"' = 0 :=
    List.count_eq_zero.mpr fun member =>
      absurd (List.all_eq_true.mp blank _ member) (by decide)
  obtain ⟨more, same, -⟩ | ⟨core, rfl, rfl⟩ := List.append_eq_append_iff.mp behind
  · rw [same, List.count_append] at inGap
    omega
  · rw [List.count_append, inGap, Nat.zero_add] at inRest
    have singleCore : '\n' ∉ core ++ tail := by
      rw [List.mem_append, not_or] at single ⊢
      have inside : core <:+ line := (List.suffix_append gap core).trans
        ((bracketedId?_isSuffix bracketed).trans (List.drop_suffix _ line))
      exact ⟨fun member => single.1 (inside.subset member), single.2⟩
    have nonemptyCore : core ≠ [] := by
      rintro rfl
      simp at inRest
      omega
    cases headed : body? id [] core with
    | none =>
        exact absurd (quote_mem_dimensions singleCore (inRest ▸ quotes) headed known) unquoted
    | some shorter =>
        exact ⟨shorter, ofLine?_isSolid_iff.mpr ⟨starts, id, gap, core, bracketed, blank,
          (Text.IsSpaced.startsWith_append nonemptyCore).symm.trans solid, nonempty, headed⟩⟩

/-- Two commands that differ in white space only, behind a part with two quotes in it, have
headings that differ in the white space of their options only. -/
theorem exists_ofLine?_of_respaced
    {line left right : Text}
    {heading : Heading}
    (leftSpaced : Text.startsWith Text.isBlank left = true)
    (single : '\n' ∉ line ++ left)
    (otherSingle : '\n' ∉ line ++ right)
    (quotes : 2 ≤ line.count '"')
    (found : ofLine? (line ++ left) = some heading ∧ heading.IsSolid)
    (unquoted : '"' ∉ heading.dimensions)
    (respaced : Text.Respaced left right) :
    ∃ options, ofLine? (line ++ right) = some { heading with options := options } ∧
      Text.Respaced heading.options options := by
  obtain ⟨shorter, headed, isSolid⟩ :=
    exists_ofLine?_of_quotes leftSpaced single quotes found unquoted
  have rightSpaced := respaced.startsWith_isBlank_eq.symm.trans leftSpaced
  obtain ⟨after, -, options, longer⟩ := exists_ofLine?_append leftSpaced single headed isSolid
  obtain ⟨otherAfter, -, otherOptions, otherLonger⟩ :=
    exists_ofLine?_append rightSpaced otherSingle headed isSolid
  have same : Text.stripStart (otherAfter ++ right) = Text.stripStart (after ++ right) := by
    unfold Text.stripStart at options otherOptions ⊢
    rw [List.dropWhile_append, List.dropWhile_append, ← options, ← otherOptions]
  cases longer.symm.trans found.1
  exact ⟨_, otherLonger, same ▸ ((Text.Respaced.refl after).append respaced).stripStart⟩

end Heading

namespace Command

/-! ## Lines of a command -/

theorem line_lt_of_mem_gather
    {number : Nat}
    {isOpen : Bool}
    {rows : List Text}
    {command : Command}
    (member : command ∈ (gather number isOpen rows).2) :
    command.line < number + rows.length := by
  induction rows generalizing number isOpen with
  | nil => cases member
  | cons line rest inductionHypothesis =>
      rw [List.length_cons]
      have later {isOpen : Bool} (member : command ∈ (gather (number + 1) isOpen rest).2) :
          command.line < number + (rest.length + 1) := by
        have bound := inductionHypothesis member
        omega
      cases silent : isSilent (Text.strip line) with
      | true =>
          rw [gather_cons_of_isSilent _ _ _ silent] at member
          exact later member
      | false =>
          cases continues : isOpen && isIndented line with
          | true =>
              rw [gather_cons_of_continues _ _ _ silent continues] at member
              exact later member
          | false =>
              rw [gather_cons_of_starts _ _ _ silent continues] at member
              rcases List.mem_cons.mp member with rfl | member
              · dsimp only
                omega
              · exact later member

theorem eq_nil_of_tailText {continuations : List Text} (empty : tailText continuations = []) :
    continuations = [] := by
  cases continuations with
  | nil => rfl
  | cons first rest => cases empty

/-- The line behind some others starts a board command. -/
structure Starts (above : List Text) (line : Text) : Prop where
  spoken : isSilent (Text.strip line) = false
  starts : (isOpenAfter false above && isIndented line) = false
  isBoard : kindOf (Text.strip line) = .board

/-- The commands of a text with a line that starts a board command. -/
theorem Starts.gather
    {above : List Text}
    {line : Text}
    (starts : Starts above line)
    (below : List Text) :
    (gather 1 false (above ++ line :: below)).2 =
      (Command.gather 1 false above).2 ++
        ⟨above.length + 1, .board,
          Text.strip line ++ tailText (Command.gather (above.length + 2) true below).1⟩ ::
          (Command.gather (above.length + 2) true below).2 := by
  have behind := gather_cons_of_starts below (1 + above.length) _ starts.spoken starts.starts
  have next : 1 + above.length + 1 = above.length + 2 := by omega
  have kind : decide (kindOf (Text.strip line) = .board) = true := decide_eq_true starts.isBoard
  rw [kind, next] at behind
  rw [gather_append_rows, behind, gather_false, joinRows_nil, starts.isBoard, Nat.add_comm 1]

/-- A command that is nothing but a line of a text starts there and does not go on below. -/
theorem starts_of_mem_commands
    {text line : Text}
    {above below : List Text}
    (rows : lines text = above ++ line :: below)
    (isCommand : ⟨above.length + 1, .board, Text.strip line⟩ ∈ commands text) :
    Starts above line ∧ (gather (above.length + 2) true below).1 = [] := by
  have next : 1 + above.length + 1 = above.length + 2 := by omega
  have notAbove {command : Command} (member : command ∈ (gather 1 false above).2) :
      command.line < above.length + 1 := by
    have bound := line_lt_of_mem_gather member
    omega
  have notBelow (isOpen : Bool) (text : Text) :
      ⟨above.length + 1, .board, text⟩ ∉ (gather (above.length + 2) isOpen below).2 := by
    intro member
    have bound := le_line_of_mem_gather member
    dsimp only at bound
    omega
  rw [commands, rows, gather_append_rows, gather_false] at isCommand
  cases silent : isSilent (Text.strip line) with
  | true =>
      rw [gather_cons_of_isSilent _ _ _ silent, next, gather_false _ below, joinRows_nil]
        at isCommand
      rcases List.mem_append.mp isCommand with earlier | later
      · exact absurd (notAbove earlier) (Nat.lt_irrefl _)
      · exact absurd later (notBelow _ _)
  | false =>
      cases continues : isOpenAfter false above && isIndented line with
      | true =>
          obtain ⟨isOpen, -⟩ := Bool.and_eq_true_iff.mp continues
          obtain ⟨earlier, last, whole, -⟩ :=
            (exists_last_of_isOpenAfter isOpen 1).resolve_right (by simp)
          have inside {command : Command} (member : command ∈ earlier ++ [last]) :=
            notAbove (whole ▸ member)
          rw [gather_cons_of_continues _ _ _ silent continues, next, whole, joinRows_concat]
            at isCommand
          rcases List.mem_append.mp isCommand with member | member
          · exact absurd (inside (List.mem_append_left _ member)) (Nat.lt_irrefl _)
          · rcases List.mem_cons.mp member with same | later
            · have bound := inside (List.mem_append_right _ List.mem_cons_self)
              have sameLine : above.length + 1 = last.line := congrArg Command.line same
              omega
            · exact absurd later (notBelow _ _)
      | false =>
          rw [gather_cons_of_starts _ _ _ silent continues, next, joinRows_nil] at isCommand
          rcases List.mem_append.mp isCommand with earlier | member
          · exact absurd (notAbove earlier) (Nat.lt_irrefl _)
          · rcases List.mem_cons.mp member with same | later
            · obtain ⟨-, kind, text⟩ := Command.mk.inj same
              rw [decide_eq_true kind.symm, List.self_eq_append_right] at text
              exact ⟨⟨silent, continues, kind.symm⟩, eq_nil_of_tailText text⟩
            · exact absurd later (notBelow _ _)

/-! ## The break -/

/-- What stripping leaves of a line that is broken at white space. -/
theorem strip_break
    {opening : Text}
    {blank : Char}
    (isBlank : Text.isBlank blank = true)
    (nonempty : Text.strip opening ≠ [])
    (after : Text) :
    (Text.strip after = [] ∧ Text.strip (opening ++ blank :: after) = Text.strip opening) ∨
      Text.strip after ≠ [] ∧ ∃ gap, Text.IsGap gap ∧
        Text.strip (opening ++ blank :: after) =
          Text.strip opening ++ (gap ++ Text.strip after) := by
  by_cases empty : Text.strip after = []
  · refine Or.inl ⟨empty, Text.strip_append_right ?_ opening⟩
    rw [List.all_cons, isBlank, Text.strip_eq_nil_iff.mp empty, Bool.and_self]
  · obtain ⟨lead, trail, whole, leadBlank, trailBlank⟩ := Text.exists_strip_append opening
    obtain ⟨inner, rest, wholeAfter, innerBlank, restBlank⟩ := Text.exists_strip_append after
    have trimmed := Text.isTrimmed_strip opening
    have afterTrimmed := Text.isTrimmed_strip after
    generalize Text.strip opening = content at *
    generalize Text.strip after = addition at *
    refine Or.inr ⟨empty, trail ++ blank :: inner, ⟨by simp, ?_⟩, ?_⟩
    · rw [List.all_append, trailBlank, List.all_cons, isBlank, innerBlank]
      rfl
    · have longer : opening ++ blank :: after =
          lead ++ ((content ++ ((trail ++ blank :: inner) ++ addition)) ++ rest) := by
        rw [whole, wholeAfter]
        simp
      rw [longer]
      refine Text.strip_append_append ⟨?_, ?_⟩ (by simp [nonempty]) leadBlank restBlank
      · rw [Text.IsSpaced.startsWith_append nonempty]
        exact trimmed.start
      · rw [List.reverse_append, List.reverse_append, List.append_assoc,
          Text.IsSpaced.startsWith_append (by simpa using empty)]
        exact afterTrimmed.ending

theorem isSilent_of_kindOf {text : Text} (isBoard : kindOf text = .board) :
    isSilent text = false := by
  unfold kindOf at isBoard
  split at isBoard
  · cases isBoard
  · split at isBoard
    next starts =>
      cases text with
      | nil => cases starts
      | cons first rest =>
          have letter : first.toLower = 'b' := eq_of_beq (Bool.and_eq_true_iff.mp starts).1
          have notSign : first ≠ '#' := by
            rintro rfl
            cases letter
          have notSlash : first ≠ '/' := by
            rintro rfl
            cases letter
          rw [isSilent_cons, beq_false_of_ne notSign, beq_false_of_ne notSlash]
          rfl
    next => cases isBoard

/-- The first part of a line that starts a board command starts one in its place. -/
theorem Starts.of_break
    {above : List Text}
    {opening after : Text}
    {blank : Char}
    (isBlank : Text.isBlank blank = true)
    (nonempty : Text.strip opening ≠ [])
    (starts : Starts above (opening ++ blank :: after)) :
    Starts above opening := by
  have openingNonempty : opening ≠ [] := by
    rintro rfl
    exact nonempty rfl
  have isBoard : kindOf (Text.strip opening) = .board := by
    obtain ⟨-, same⟩ | ⟨-, gap, isGap, same⟩ := strip_break isBlank nonempty after
    · rw [← same, starts.isBoard]
    · rw [← kindOf_append_blank (isGap.startsWith_isBlank _) nonempty, ← same, starts.isBoard]
  have indented := starts.starts
  rw [isIndented_append openingNonempty] at indented
  exact ⟨isSilent_of_kindOf isBoard, indented, isBoard⟩

/-- A command that does not go on below may as well be closed. -/
theorem gather_of_ends
    {number : Nat}
    {rows : List Text}
    (ends : (gather number true rows).1 = []) :
    gather number true rows = gather number false rows := by
  cases rows with
  | nil => rfl
  | cons line rest =>
      cases silent : isSilent (Text.strip line) with
      | true => rw [gather_cons_of_isSilent _ _ _ silent, gather_cons_of_isSilent _ _ _ silent]
      | false =>
          cases continues : true && isIndented line with
          | true =>
              rw [gather_cons_of_continues _ _ _ silent continues] at ends
              cases ends
          | false =>
              rw [gather_cons_of_starts _ _ _ silent continues,
                gather_cons_of_starts _ _ false silent rfl]

theorem strip_indented (text : Text) : Text.strip (' ' :: ' ' :: text) = Text.strip text := rfl

/-- The commands of a text with a line that is broken in two. -/
theorem gather_broken
    {above below : List Text}
    {opening after : Text}
    (starts : Starts above opening)
    (ends : (Command.gather (above.length + 2) true below).1 = []) :
    (Command.gather 1 false (above ++ opening :: (' ' :: ' ' :: after) :: below)).2 =
      (Command.gather 1 false above).2 ++
        ⟨above.length + 1, .board, Text.strip opening ++
          if isSilent (Text.strip after) then [] else ' ' :: Text.strip after⟩ ::
          ((Command.gather (above.length + 2) true below).2).map (shift 1) := by
  have further (isOpen : Bool) := gather_add 1 (above.length + 2) isOpen below
  have stripped := strip_indented after
  rw [starts.gather]
  cases silent : isSilent (Text.strip after) with
  | true =>
      -- A silent line closes the command; it was not going on anyway.
      have closed := gather_of_ends ends
      rw [closed] at ends
      rw [gather_cons_of_isSilent _ _ _ (stripped ▸ silent), further, closed, ends]
      rfl
  | false =>
      rw [gather_cons_of_continues _ _ _ (stripped ▸ silent) rfl, further, ends, stripped]
      simp [tailText]

/-! ## Texts with a break -/

/-- The lines of a text with one that is broken in two. -/
def breakRows (above : List Text) (opening after : Text) (below : List Text) : List Text :=
  above ++ opening :: (' ' :: ' ' :: after) :: below

/-- What stands behind a break in a line of its own still belongs to the command, or it is
nothing but white space or a comment of the command anyway. -/
inductive MayBreak (opening after : Text) : Prop
  | spoken (spoken : isSilent (Text.strip after) = false)
  | blank (empty : Text.strip after = [])
  | comment
      {blank : Char}
      {comment : Text}
      (isBlank : Text.isBlank blank = true)
      (noSign : (Text.strip opening).getLast? ≠ some '#')
      (commented : Text.strip after = '#' :: blank :: comment)

section Break

variable
  {text opening after : Text}
  {blank : Char}
  {above below : List Text}
  (rows : lines text = above ++ (opening ++ blank :: after) :: below)
include rows

theorem not_mem_of_lines : '\n' ∉ opening ++ blank :: after :=
  not_mem_of_mem_lines (rows ▸ List.mem_append_right _ List.mem_cons_self)

theorem commands_breakRows {part : Text} (isSuffix : part <:+ after) :
    commands (unlines (breakRows above opening part below)) =
      (gather 1 false (breakRows above opening part below)).2 := by
  refine commands_unlines (by simp [breakRows]) fun row member => ?_
  have single {row : Text} (known : row ∈ above ++ (opening ++ blank :: after) :: below) :
      '\n' ∉ row :=
    not_mem_of_mem_lines (rows ▸ known)
  have whole := not_mem_of_lines rows
  rw [List.mem_append, not_or] at whole
  rcases List.mem_append.mp member with isAbove | member
  · exact single (List.mem_append_left _ isAbove)
  · rcases List.mem_cons.mp member with rfl | member
    · exact whole.1
    · rcases List.mem_cons.mp member with rfl | isBelow
      · intro broken
        have inside : '\n' ∈ part := by simpa using broken
        exact whole.2 (List.mem_cons_of_mem _ (isSuffix.subset inside))
      · exact single (List.mem_append_right _ (List.mem_cons_of_mem _ isBelow))

/-- Behind a break, a comment is as good as nothing. -/
theorem commands_breakRows_of_isSilent (silent : isSilent (Text.strip after) = true) :
    commands (unlines (breakRows above opening after below)) =
      commands (unlines (breakRows above opening [] below)) := by
  have silenced {part : Text} (silent : isSilent (Text.strip part) = true) :
      gather 1 false (breakRows above opening part below) =
        joinRows (gather 1 false (above ++ [opening]))
          (gather (1 + (above ++ [opening]).length + 1) false below) := by
    rw [← strip_indented] at silent
    rw [breakRows, List.append_cons, gather_append_rows, gather_cons_of_isSilent _ _ _ silent]
  rw [commands_breakRows rows List.suffix_rfl, commands_breakRows rows List.nil_suffix,
    silenced silent, silenced rfl]

/-- A board command on one line, among the other commands of the text, and what becomes of
it and of them when the line is broken. -/
theorem exists_commands_of_break
    (isBlank : Text.isBlank blank = true)
    (nonempty : Text.strip opening ≠ [])
    (isCommand :
      ⟨above.length + 1, .board, Text.strip (opening ++ blank :: after)⟩ ∈ commands text) :
    ∃ earlier later,
      commands text = earlier ++
        ⟨above.length + 1, .board, Text.strip (opening ++ blank :: after)⟩ :: later ∧
      commands (unlines (breakRows above opening after below)) = earlier ++
        ⟨above.length + 1, .board, Text.strip opening ++
          if isSilent (Text.strip after) then [] else ' ' :: Text.strip after⟩ ::
          later.map (shift 1) ∧
      (∀ first ∈ earlier, first.line ≤ above.length + 1) ∧
      ∀ last ∈ later, above.length + 1 < last.line := by
  obtain ⟨starts, ends⟩ := starts_of_mem_commands rows isCommand
  refine ⟨_, _, ?_, (commands_breakRows rows List.suffix_rfl).trans
    (gather_broken (starts.of_break isBlank nonempty) ends), fun first member => ?_,
    fun last member => le_line_of_mem_gather member⟩
  · rw [commands, rows, starts.gather, ends]
    simp [tailText]
  · have bound := line_lt_of_mem_gather member
    omega

end Break

end Command
end Joinery
