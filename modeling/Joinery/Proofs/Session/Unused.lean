import Joinery.Proofs.Assembly.Agreement
import Joinery.Proofs.Command.Part
import Joinery.Proofs.Dictionary
import Joinery.Proofs.Expression.Operand
import Joinery.Proofs.Session.Seam

/-!
# Variables that are not used

A variable is read only where its name stands behind a dollar sign. So commands without
that word do the same in two sessions that differ in the value of the variable, and they
leave two such sessions: `obeyAll_of_agreeBut`. A definition can therefore be put in front
of commands that do not use it, or taken away.
-/

namespace Joinery

/-- The line of a definition. -/
def Definition.line (name expression : Text) : Text :=
  '$' :: (name ++ ' ' :: '=' :: ' ' :: expression)

namespace Definition

/-- White space that is stripped from the line of a definition does not reach the sign
behind the name. -/
theorem exists_strip_line (name expression : Text) :
    ∃ rest, Text.strip (line name expression) = '$' :: (name ++ ' ' :: rest) := by
  have started : Text.stripStart (line name expression) = line name expression :=
    Text.dropWhile_eq_self rfl
  obtain ⟨blanks, whole, areBlank⟩ := Text.exists_stripEnd_append (line name expression)
  rw [Text.strip, started]
  generalize Text.stripEnd (line name expression) = kept at whole ⊢
  have split : kept ++ blanks = ('$' :: (name ++ [' '])) ++ '=' :: ' ' :: expression := by
    simp [whole, line]
  rcases List.append_eq_append_iff.mp split with ⟨middle, -, behind⟩ | ⟨rest, front, -⟩
  · have blank := areBlank '=' (by simp [behind])
    cases blank
  · exact ⟨rest, by simp [front]⟩

section Line

variable (name : Expression.Identifier) {expression : Text} (oneLine : '\n' ∉ expression)

include oneLine

theorem lines_line : Command.lines (line name.text expression) = [line name.text expression] := by
  have noBreak : '\n' ∉ name.text := fun member =>
    absurd (List.all_eq_true.mp name.continues _ member) (by decide)
  exact Command.lines_of_not_mem (by simp [line, noBreak, oneLine])

/-- The command of a line with a definition. -/
theorem exists_commands_line :
    ∃ content, commands (line name.text expression) = [⟨1, .definition, content⟩] ∧
      Expression.identifier content.tail = name.text := by
  obtain ⟨rest, stripped⟩ := exists_strip_line name.text expression
  refine ⟨Text.strip (line name.text expression), ?_, ?_⟩
  · simp [commands, lines_line name oneLine, Command.gather, stripped,
      Command.isSilent, Command.kindOf]
  · rw [stripped, List.tail_cons]
    exact name.identifier_append rfl

/-- Behind the command of such a line, the commands of the lines below it follow. -/
theorem exists_commands_below
    {after : Text}
    (anew : ∀ line ∈ (Command.lines after).head?, Command.StartsAnew line) :
    ∃ content,
      commands (line name.text expression ++ '\n' :: after) =
        ⟨1, .definition, content⟩ :: (commands after).map (Command.shift 1) ∧
      Expression.identifier content.tail = name.text := by
  obtain ⟨content, alone, named⟩ := exists_commands_line name oneLine
  refine ⟨content, ?_, named⟩
  have apart := @Command.commands_append after anew (line name.text expression) [] (by simp)
  rw [Command.below, alone, lines_line name oneLine] at apart
  exact apart

theorem startsAnew_line (after : Text) :
    ∀ first ∈ (Command.lines (line name.text expression ++ '\n' :: after)).head?,
      Command.StartsAnew first := by
  rw [Command.lines_append_break, lines_line name oneLine]
  intro first member
  cases member
  exact Or.inr rfl

end Line
end Definition

/-- A variable that a text does not use is not used by its commands. -/
theorem Command.unnamed_of_mem_commands
    {name : Expression.Identifier}
    {text : Text}
    {command : Command}
    (unnamed : ¬ '$' :: name.text <:+: text)
    (member : command ∈ commands text) :
    ¬ '$' :: name.text <:+: command.text := by
  intro inside
  refine unnamed (infix_of_mem_commands (List.cons_ne_nil _ _) ?_ member inside)
  intro space
  rcases List.mem_cons.mp space with first | later
  · cases first
  · exact absurd (List.all_eq_true.mp name.continues _ later) (by decide)

namespace Session

/-- Two sessions that differ in the value of a variable, in their texts, and by a number of
definitions. -/
structure AgreeBut (name : Text) (extra : Nat) (left right : Session) : Prop where
  numbers : ∀ other, other ≠ name → left.number? other = right.number? other
  registry : left.registry = right.registry
  boards : left.boards = right.boards
  events : left.events = right.events
  definitionCount : right.definitionCount = left.definitionCount + extra

section AgreeBut

variable {name : Text} {extra : Nat} {left right : Session}

/-- The scopes of such sessions agree on a text without the variable. -/
theorem AgreeBut.agreeOn
    (agree : left.AgreeBut name extra right)
    {text : Text}
    (unnamed : ¬ '$' :: name <:+: text) :
    left.scope.AgreeOn right.scope text := by
  refine ⟨funext fun id => ?_, fun other named => agree.numbers other ?_⟩
  · exact congrArg (Dictionary.get? · id) agree.registry
  · rintro rfl
    exact unnamed named

theorem AgreeBut.note (agree : left.AgreeBut name extra right) (event : Event) :
    (left.note event).AgreeBut name extra (right.note event) :=
  { agree with events := congrArg (· ++ [event]) agree.events }

theorem AgreeBut.notify
    (agree : left.AgreeBut name extra right)
    (line : Int)
    (subject : Text)
    (notice : Option WidthNotice) :
    (left.notify line subject notice).AgreeBut name extra
      (right.notify line subject notice) := by
  cases notice with
  | none => exact agree
  | some notice => exact agree.note _

theorem AgreeBut.add
    (agree : left.AgreeBut name extra right)
    (line : Int)
    (id : Text)
    (board : Board Binary64) :
    (left.add line id board).AgreeBut name extra (right.add line id board) := by
  have added : AgreeBut name extra
      { left with
        boards := left.boards ++ [board]
        registry := left.registry.insert id board }
      { right with
        boards := right.boards ++ [board]
        registry := right.registry.insert id board } :=
    { agree with
      boards := congrArg (· ++ [board]) agree.boards
      registry := congrArg (Dictionary.insert · id board) agree.registry }
  exact added.note _

/-- A board is read in the same way if its heading does not use the variable. -/
theorem place_of_agreeBut
    (agree : left.AgreeBut name extra right)
    (line : Int)
    (id : Text)
    {heading : Heading}
    (dimensions : ¬ '$' :: name <:+: heading.dimensions)
    (options : ¬ '$' :: name <:+: heading.options) :
    (left.place line id heading).1.AgreeBut name extra (right.place line id heading).1 ∧
      (left.place line id heading).2 = (right.place line id heading).2 := by
  unfold place
  rw [Draft.ofHeading_eq_of_agreeOn (agree.agreeOn dimensions) (agree.agreeOn options)]
  cases drafted : Draft.ofHeading right.scope heading with
  | error cause => exact ⟨agree, rfl⟩
  | ok draft =>
      have inside : draft.options <:+: heading.options :=
        (Options.readPosition_isInfix (Draft.readPosition_of_ofHeading drafted)).trans
          (Options.withoutComment_isInfix heading.options)
      have unnamed : ¬ '$' :: name <:+: draft.options :=
        fun named => options (named.trans inside)
      dsimp only
      rw [agree.boards, Draft.board_eq_of_agreeOn (agree.agreeOn unnamed)]
      cases draft.notice? with
      | error cause => exact ⟨agree, rfl⟩
      | ok notice =>
          have noted := agree.notify line heading.name notice
          cases draft.board right.scope id heading.name right.boards.length with
          | error cause => exact ⟨noted, rfl⟩
          | ok board => exact ⟨noted.add line id board, rfl⟩

theorem draw_of_agreeBut
    (agree : left.AgreeBut name extra right)
    (line : Int)
    {text : Text}
    (unnamed : ¬ '$' :: name <:+: text) :
    (left.draw line text).1.AgreeBut name extra (right.draw line text).1 ∧
      (left.draw line text).2 = (right.draw line text).2 := by
  unfold draw
  cases found : Heading.ofLine? text with
  | none => exact ⟨agree, rfl⟩
  | some heading =>
      obtain ⟨dimensions, options⟩ := Heading.ofLine?_isInfix found
      have sameId : left.idFor heading = right.idFor heading := by
        rw [idFor, idFor, agree.boards]
      have sameBoard (id : Text) : left.board? id = right.board? id :=
        congrArg (Dictionary.get? · id) agree.registry
      obtain ⟨placed, outcome⟩ := place_of_agreeBut agree line (right.idFor heading)
        (fun named => unnamed (named.trans dimensions))
        (fun named => unnamed (named.trans options))
      simp only [sameId, sameBoard, outcome]
      split
      · exact ⟨agree, rfl⟩
      · exact ⟨placed, rfl⟩

/-- A definition that does not use the variable gives the same value in both sessions. -/
theorem define_of_agreeBut
    (agree : left.AgreeBut name extra right)
    {line : Text}
    (unnamed : ¬ '$' :: name <:+: line) :
    (∃ leftAfter rightAfter, left.define line = .ok leftAfter ∧
        right.define line = .ok rightAfter ∧ leftAfter.AgreeBut name extra rightAfter) ∨
      ∃ failure, left.define line = .error failure ∧ right.define line = .error failure := by
  unfold define
  cases found : Definition.ofLine? line with
  | none => exact Or.inr ⟨_, rfl, rfl⟩
  | some definition =>
      obtain ⟨-, inside⟩ := Definition.ofLine?_isInfix found
      have same := evaluate_eq_of_agreeOn
        (agree.agreeOn fun named => unnamed (named.trans inside))
      dsimp only
      rw [same]
      cases Joinery.evaluate right.scope definition.expression with
      | error cause => exact Or.inr ⟨_, rfl, rfl⟩
      | ok value =>
          refine Or.inl ⟨_, _, rfl, rfl, { agree with numbers := ?_, definitionCount := ?_ }⟩
          · intro other different
            simp only [number?, Dictionary.get?_insert]
            split
            · rfl
            · exact agree.numbers other different
          · dsimp only
            rw [agree.definitionCount, Nat.add_right_comm]

/-- A command that does not use the variable does the same in both sessions. -/
theorem obey_of_agreeBut
    (agree : left.AgreeBut name extra right)
    {command : Command}
    (unnamed : ¬ '$' :: name <:+: command.text) :
    (left.obey command).1.AgreeBut name extra (right.obey command).1 ∧
      (left.obey command).2 = (right.obey command).2 := by
  unfold obey
  cases command.kind with
  | definition =>
      rcases define_of_agreeBut agree unnamed with
        ⟨leftAfter, rightAfter, leftDefined, rightDefined, after⟩ |
        ⟨failure, leftRefused, rightRefused⟩
      · simp only [leftDefined, rightDefined]
        exact ⟨after, trivial⟩
      · simp only [leftRefused, rightRefused]
        exact ⟨agree, trivial⟩
  | board => exact draw_of_agreeBut agree command.line unnamed
  | unknown => exact ⟨agree, rfl⟩

/-- Commands that do not use the variable do the same in both sessions. -/
theorem obeyAll_of_agreeBut
    {commands : List Command}
    (agree : left.AgreeBut name extra right)
    (unnamed : ∀ command ∈ commands, ¬ '$' :: name <:+: command.text) :
    (left.obeyAll commands).1.AgreeBut name extra (right.obeyAll commands).1 ∧
      (left.obeyAll commands).2 = (right.obeyAll commands).2 := by
  induction commands generalizing left right with
  | nil => exact ⟨agree, rfl⟩
  | cons command rest inductionHypothesis =>
      obtain ⟨first, later⟩ := List.forall_mem_cons.mp unnamed
      obtain ⟨after, outcome⟩ := obey_of_agreeBut agree first
      rw [obeyAll, obeyAll]
      generalize left.obey command = leftStep at after outcome ⊢
      generalize right.obey command = rightStep at after outcome ⊢
      obtain ⟨leftAfter, leftOutcome⟩ := leftStep
      obtain ⟨rightAfter, rightOutcome⟩ := rightStep
      cases outcome
      cases leftOutcome with
      | ok done => exact inductionHypothesis after later
      | error failure =>
          dsimp only
          split
          · exact ⟨after, rfl⟩
          · exact inductionHypothesis (after.note _) later

end AgreeBut

/-- A definition changes its own variable and the number of definitions. -/
theorem agreeBut_define
    {session after : Session}
    {line : Text}
    (defined : session.define line = .ok after) :
    session.AgreeBut (Expression.identifier line.tail) 1 after := by
  unfold define at defined
  split at defined
  · cases defined
  next definition found =>
    obtain ⟨named, -⟩ := Definition.ofLine?_isInfix found
    split at defined
    · cases defined
      refine ⟨fun other different => ?_, rfl, rfl, rfl, rfl⟩
      rw [number?, number?, Dictionary.get?_insert, if_neg (named ▸ different)]
    · cases defined

/-- Behind the command of a definition, commands are read in a session that differs in its
variable. The definition counts, or its refusal is noted. -/
theorem exists_obeyAll_definition
    {session : Session}
    (sound : session.IsSound)
    (line : Nat)
    (content : Text)
    (rest : List Command) :
    ∃ (after : Session) (own : List Event) (extra : Nat),
      session.obeyAll (⟨line, .definition, content⟩ :: rest) = after.obeyAll rest ∧
      session.AgreeBut (Expression.identifier content.tail) extra
        { after with events := session.events } ∧
      after.events = session.events ++ own ∧
      (own = [] ∧ extra = 1 ∨ ∃ failure, own = [.refused line failure] ∧ extra = 0) := by
  cases defined : session.define content with
  | ok after =>
      have agree := agreeBut_define defined
      refine ⟨after, [], 1, ?_, { agree with events := rfl }, ?_, Or.inl ⟨rfl, rfl⟩⟩
      · simp only [obeyAll, obey, defined]
      · rw [List.append_nil, agree.events]
  | error failure =>
      have mild := define_eq_error sound.isSteady defined
      refine ⟨session.note (.refused line failure), [.refused line failure], 0, ?_,
        ⟨fun _ _ => rfl, rfl, rfl, rfl, rfl⟩, rfl, Or.inr ⟨failure, rfl, rfl⟩⟩
      simp only [obeyAll, obey, defined, mild, Bool.false_eq_true, if_false]

/-- Commands that do not use a variable do the same below its definition, one line
further down. -/
theorem exists_obeyAll_below
    {session last : Session}
    {content : Text}
    {rest : List Command}
    (sound : session.IsSound)
    (quiet : session.events = [])
    (unused : ∀ command ∈ rest,
      ¬ '$' :: Expression.identifier content.tail <:+: command.text)
    (onward : session.obeyAll rest = (last, .ok ()))
    (line : Nat) :
    ∃ (final : Session) (own : List Event) (extra : Nat),
      session.obeyAll (⟨line, .definition, content⟩ :: rest.map (Command.shift 1)) =
        (final, .ok ()) ∧
      final.boards = last.boards ∧
      final.events = own ++ last.events.map (Event.shift 1) ∧
      final.definitionCount = last.definitionCount + extra ∧
      (own = [] ∧ extra = 1 ∨ ∃ failure, own = [.refused line failure] ∧ extra = 0) := by
  obtain ⟨middle, own, extra, obeyed, agree, events, outcome⟩ :=
    exists_obeyAll_definition sound line content (rest.map (Command.shift 1))
  rw [quiet, List.nil_append] at events
  rw [quiet] at agree
  have moved := obeyAll_of_events middle.text 1 middle rest
  obtain ⟨differ, same⟩ := obeyAll_of_agreeBut agree unused
  rw [onward] at differ same
  rw [← same] at moved
  generalize (Session.obeyAll { middle with events := [] } rest).1 = other at differ moved
  refine ⟨other.relocate middle.text middle.events 1, own, extra, obeyed.trans moved,
    differ.boards.symm, ?_, differ.definitionCount, outcome⟩
  rw [relocate, events, ← differ.events]

/-- The design of a text with a definition, and the one of the text without it. Behind the
definition nothing stands that uses its variable. Both have the same boards. The problems
of the part behind the definition are reported one line further down, and the definition
counts, or it is refused and this is one problem more. -/
theorem unused_definition_is_irrelevant
    {before after expression : Text}
    {design : Design}
    (name : Expression.Identifier)
    (oneLine : '\n' ∉ expression)
    (anew : ∀ line ∈ (Command.lines after).head?, Command.StartsAnew line)
    (unnamed : ¬ '$' :: name.text <:+: after)
    (found : (readDesign (before ++ '\n' :: after)).2 = .ok design) :
    ∃ first reported own extended, (readDesign before).2 = .ok first ∧
      (readDesign (before ++ '\n' ::
        (Definition.line name.text expression ++ '\n' :: after))).2 = .ok extended ∧
      extended.boards = design.boards ∧
      design.problems = first.problems ++ reported ∧
      extended.problems = first.problems ++ own ++ reported.map (Event.shift 1) ∧
      (own = [] ∧ extended.definitionCount = design.definitionCount + 1 ∨
        ∃ failure, own = [.refused ((Command.lines before).length + 1) failure] ∧
          extended.definitionCount = design.definitionCount) := by
  have noSilence : ∀ line ∈ ([] : List Text), Command.IsSilentLine line := by
    intro line member
    cases member
  obtain ⟨first, read, last, onward, rfl⟩ :=
    (readDesign_below_eq_ok_iff anew noSilence design).mp found
  obtain ⟨content, below, named⟩ := Definition.exists_commands_below name oneLine anew
  have sound : Session.IsSound { (readDesign before).1 with events := [] } :=
    isSound_run before [.read]
  have unused : ∀ command ∈ (commands after).map (Command.shift (Command.lines before).length),
      ¬ '$' :: Expression.identifier content.tail <:+: command.text := by
    rw [named, List.forall_mem_map]
    intro command member inside
    exact Command.unnamed_of_mem_commands unnamed member inside
  obtain ⟨final, own, extra, obeyed, boards, events, count, outcome⟩ :=
    exists_obeyAll_below sound rfl unused onward ((Command.lines before).length + 1)
  have cut : (commands (Definition.line name.text expression ++ '\n' :: after)).map
      (Command.shift (Command.lines before).length) =
        ⟨(Command.lines before).length + 1, .definition, content⟩ ::
          ((commands after).map (Command.shift (Command.lines before).length)).map
            (Command.shift 1) := by
    rw [below, List.map_cons, Command.map_shift_shift, Command.map_shift_shift, Command.shift,
      Nat.add_comm 1]
  have reported : own.filter Event.isProblem = own := by
    rcases outcome with ⟨rfl, -⟩ | ⟨failure, rfl, -⟩
    · rfl
    · rfl
  refine ⟨first, last.events.filter Event.isProblem, own, _, read,
    (readDesign_below_eq_ok_iff (Definition.startsAnew_line name oneLine after) noSilence _).mpr
      ⟨first, read, final, by rw [cut]; exact obeyed, rfl⟩, boards, ?_, ?_, ?_⟩
  · rw [Design.problems, List.filter_append, List.length_nil, Event.map_shift_zero]
    rfl
  · rw [Design.problems, List.length_nil, Event.map_shift_zero, List.filter_append, events,
      List.filter_append, Event.filter_isProblem_shift, reported, ← List.append_assoc]
    rfl
  · rcases outcome with ⟨none, rfl⟩ | ⟨failure, refused, rfl⟩
    · exact Or.inl ⟨none, count⟩
    · exact Or.inr ⟨failure, refused, count⟩

/-- A further definition of a variable that only the board above it uses. -/
theorem exists_unused_definition :
    ∃ design extended,
      (readDesign "$w = 2\nboard $w x 1 x 1 \"a\"\nshelf".toList).2 = .ok design ∧
      (readDesign ("$w = 2\nboard $w x 1 x 1 \"a\"".toList ++
        '\n' :: (Definition.line "w".toList "3".toList ++ '\n' :: "shelf".toList))).2 =
          .ok extended ∧
      extended.boards = design.boards := by
  have anew : ∀ line ∈ (Command.lines "shelf".toList).head?, Command.StartsAnew line := by
    intro line member
    cases member
    exact Or.inr (by decide)
  have isRead : (readDesign ("$w = 2\nboard $w x 1 x 1 \"a\"".toList ++
      '\n' :: "shelf".toList)).2.toOption.isSome = true := by
    decide +kernel
  cases found : (readDesign ("$w = 2\nboard $w x 1 x 1 \"a\"".toList ++
      '\n' :: "shelf".toList)).2 with
  | error failure =>
      rw [found] at isRead
      cases isRead
  | ok design =>
      have oneLine : '\n' ∉ "3".toList := by decide
      obtain ⟨_, _, _, extended, -, read, boards, -⟩ := unused_definition_is_irrelevant
        ⟨"w".toList, by decide, by decide⟩ oneLine anew (by decide) found
      exact ⟨design, extended, found, read, boards⟩

end Session
end Joinery
