import Joinery.Proofs.Assembly.Respaced
import Joinery.Proofs.Command.Break
import Joinery.Proofs.Session.Account
import Joinery.Proofs.Session.Comment

/-!
# Designs with broken commands

A board command that is accepted may be broken at white space behind the name of its board,
and goes on in the next line. The board stays the same, and so do all reports, which are one
line further down below the break.
-/

namespace Joinery

namespace Event

/-- The event some lines further down, if it belongs to a line below another one. -/
def shiftBelow (row count : Nat) (event : Event) : Event :=
  if (row : Int) < event.line then event.shift count else event

theorem isProblem_shiftBelow (row count : Nat) (event : Event) :
    (event.shiftBelow row count).isProblem = event.isProblem := by
  unfold shiftBelow
  split
  · exact isProblem_shift count event
  · rfl

theorem map_shiftBelow_of_le
    {row : Nat}
    {events : List Event}
    (within : ∀ event ∈ events, event.line ≤ row)
    (count : Nat) :
    events.map (shiftBelow row count) = events := by
  conv_rhs => rw [← List.map_id events]
  exact List.map_congr_left fun event member => if_neg (Int.not_lt.mpr (within event member))

theorem map_shiftBelow_of_lt
    {row : Nat}
    {events : List Event}
    (behind : ∀ event ∈ events, (row : Int) < event.line)
    (count : Nat) :
    events.map (shiftBelow row count) = events.map (shift count) :=
  List.map_congr_left fun event member => if_pos (behind event member)

end Event

namespace Design

/-- The design with some lines more in its text, behind one of the lines. -/
def shiftBelow (row count : Nat) (design : Design) : Design :=
  { design with events := design.events.map (Event.shiftBelow row count) }

theorem problems_shiftBelow (row count : Nat) (design : Design) :
    (design.shiftBelow row count).problems =
      design.problems.map (Event.shiftBelow row count) := by
  have same : Event.isProblem ∘ Event.shiftBelow row count = Event.isProblem :=
    funext (Event.isProblem_shiftBelow row count)
  rw [problems, shiftBelow, List.filter_map, same, problems]

end Design

namespace Session

open Text

/-! ## Commands that are broken -/

/-- A board that is placed is placed with other white space in its options. -/
theorem place_of_respaced
    {session after : Session}
    {line : Int}
    {id options : Text}
    {heading : Heading}
    (respaced : Respaced (Options.withoutComment heading.options) (Options.withoutComment options))
    (placed : session.place line id heading = (after, .ok ())) :
    session.place line id { heading with options := options } = (after, .ok ()) := by
  unfold place at placed ⊢
  split at placed
  · cases placed
  next draft drafted =>
    obtain ⟨left, otherDrafted, rests⟩ := Draft.exists_ofHeading_of_respaced respaced drafted
    rw [otherDrafted]
    dsimp only at placed ⊢
    rw [Draft.notice?_eq]
    split at placed
    · cases placed
    next notice noticed =>
      split at placed
      · cases placed
      next board built =>
        rw [Draft.board_of_respaced rests built]
        exact placed

theorem draw_of_respaced
    {session after : Session}
    {line : Int}
    {text other options : Text}
    {heading : Heading}
    (found : Heading.ofLine? text = some heading)
    (otherFound : Heading.ofLine? other = some { heading with options := options })
    (respaced : Respaced (Options.withoutComment heading.options) (Options.withoutComment options))
    (drawn : session.draw line text = (after, .ok ())) :
    session.draw line other = (after, .ok ()) := by
  have sameId : session.idFor { heading with options := options } = session.idFor heading := rfl
  simp only [draw, found] at drawn
  simp only [draw, otherFound, sameId]
  split at drawn
  · cases drawn
  next fresh =>
    obtain ⟨left, outcome⟩ := Prod.mk.inj drawn
    have placed : session.place line (session.idFor heading) heading = (after, .ok ()) :=
      Prod.ext left (mapError_eq_ok.mp outcome)
    rw [if_neg fresh, place_of_respaced respaced placed]
    rfl

/-- A board command that is accepted is accepted when it is broken behind the name of the
board, and adds the same board. -/
theorem draw_of_break
    {session after : Session}
    {line : Int}
    {opening left right : Text}
    (leftSpaced : startsWith isBlank left = true)
    (single : '\n' ∉ opening ++ left)
    (otherSingle : '\n' ∉ opening ++ right)
    (quotes : 2 ≤ opening.count '"')
    (respaced : Respaced left right)
    (drawn : session.draw line (opening ++ left) = (after, .ok ())) :
    session.draw line (opening ++ right) = (after, .ok ()) := by
  obtain ⟨heading, -, found, isSolid, foreign, -⟩ := exists_of_draw_eq_ok drawn
  have unquoted := foreign '"' ⟨by decide, by decide, by decide⟩ (by decide)
  obtain ⟨options, otherFound, others⟩ := Heading.exists_ofLine?_of_respaced leftSpaced single
    otherSingle quotes ⟨found, isSolid⟩ unquoted respaced
  exact draw_of_respaced found otherFound (Options.respaced_withoutComment others) drawn

/-- A board command that ends with a comment does what it does without. -/
theorem draw_of_comment
    {session after : Session}
    {line : Int}
    {opening gap comment : Text}
    {blank : Char}
    (isGap : IsGap gap)
    (isBlank : Text.isBlank blank = true)
    (single : '\n' ∉ opening ++ (gap ++ '#' :: blank :: comment))
    (quotes : 2 ≤ opening.count '"')
    (noSign : opening.getLast? ≠ some '#')
    (drawn : session.draw line (opening ++ (gap ++ '#' :: blank :: comment)) = (after, .ok ())) :
    session.draw line opening = (after, .ok ()) := by
  obtain ⟨heading, -, found, isSolid, foreign, -⟩ := exists_of_draw_eq_ok drawn
  have unquoted := foreign '"' ⟨by decide, by decide, by decide⟩ (by decide)
  have spaced := isGap.startsWith_isBlank ('#' :: blank :: comment)
  obtain ⟨shorter, headed, shorterSolid⟩ :=
    Heading.exists_ofLine?_of_quotes spaced single quotes ⟨found, isSolid⟩ unquoted
  obtain ⟨rest, ⟨front, whole⟩, options, longer⟩ :=
    Heading.exists_ofLine?_append spaced single headed shorterSolid
  cases longer.symm.trans found
  refine draw_of_respaced found headed ?_ drawn
  have noSignAtEnd : rest.getLast? ≠ some '#' := by
    intro sign
    rw [← whole, List.getLast?_append, sign] at noSign
    exact noSign rfl
  have commented : Respaced (rest ++ (gap ++ '#' :: ([blank] ++ comment)))
      (rest ++ (gap ++ '#' :: ([' '] ++ comment))) :=
    (Respaced.refl rest).append ((Respaced.refl gap).append (.solid '#' (by decide)
      (.gap (.of_isBlank isBlank) (.of_isBlank (by decide)) (.refl comment))))
  have uncommented := Options.respaced_withoutComment commented
  rw [List.singleton_append, List.singleton_append,
    Options.withoutComment_append noSignAtEnd isGap.nonempty isGap.blank] at uncommented
  rwa [options, Options.withoutComment_stripStart, Options.withoutComment_stripStart]

/-! ## Commands below -/

theorem problems_relocate
    (text : Text)
    (before : Session)
    (count : Nat)
    (session : Session) :
    (session.relocate text before.events count).problems =
      before.problems ++ session.problems.map (Event.shift count) := by
  rw [problems, relocate, List.filter_append, Event.filter_isProblem_shift]
  rfl

/-- Commands report what happens on their lines. -/
theorem exists_line_of_mem_problems
    {session after : Session}
    {commands : List Command}
    (read : session.obeyAll commands = (after, .ok ()))
    (fresh : session.events = [])
    {event : Event}
    (member : event ∈ after.problems) :
    ∃ command ∈ commands, event.line = command.line := by
  obtain ⟨each, problems, -⟩ := obeyAll_of_isOk (congrArg Prod.snd read)
  have none : session.problems = [] := by
    rw [Session.problems, fresh]
    rfl
  rw [read, none, List.nil_append] at problems
  rw [problems, List.mem_flatMap] at member
  obtain ⟨step, known, reported⟩ := member
  refine ⟨step.command, ?_, Step.line_of_mem_problems reported⟩
  rw [← each]
  exact List.mem_map_of_mem known

/-- A command among others that is not refused is accepted where it is read. -/
theorem exists_obey_of_accepted
    {session final : Session}
    {earlier later : List Command}
    {command : Command}
    (read : session.obeyAll (earlier ++ command :: later) = (final, .ok ()))
    (accepted : ∀ failure, .refused command.line failure ∉ final.problems) :
    ∃ middle after, session.obeyAll earlier = (middle, .ok ()) ∧
      middle.obey command = (after, .ok ()) ∧ after.obeyAll later = (final, .ok ()) := by
  rw [obeyAll_append] at read
  split at read
  next middle _ first =>
    refine ⟨middle, (middle.obey command).1, first, ?_⟩
    rw [obeyAll] at read
    split at read
    next after _ obeyed => exact ⟨by rw [obeyed], by rw [obeyed]; exact read⟩
    next after failure obeyed =>
      split at read
      · cases read
      · -- The refusal would be noted.
        obtain ⟨-, all, -⟩ := obeyAll_of_isOk (congrArg Prod.snd read)
        rw [read] at all
        refine absurd ?_ (accepted failure)
        rw [all]
        simp [Session.problems, note, Event.isProblem]
  next => cases read

/-- A command that is accepted may be replaced by one that does the same and takes a line
more. -/
theorem exists_obeyAll_of_replaced
    {session final : Session}
    {earlier later : List Command}
    {command other : Command}
    (read : session.obeyAll (earlier ++ command :: later) = (final, .ok ()))
    (fresh : session.events = [])
    (accepted : ∀ failure, .refused command.line failure ∉ final.problems)
    (before : ∀ first ∈ earlier, first.line ≤ command.line)
    (behind : ∀ last ∈ later, command.line < last.line)
    (same : ∀ {middle after : Session}, middle.obey command = (after, .ok ()) →
      middle.obey other = (after, .ok ())) :
    ∃ moved, session.obeyAll (earlier ++ other :: later.map (Command.shift 1)) = (moved, .ok ()) ∧
      moved.boards = final.boards ∧ moved.definitionCount = final.definitionCount ∧
      moved.problems = final.problems.map (Event.shiftBelow command.line 1) := by
  obtain ⟨middle, after, first, obeyed, last⟩ := exists_obey_of_accepted read accepted
  have alone (commands : List Command) : session.obeyAll (earlier ++ command :: commands) =
      after.obeyAll commands := by
    rw [obeyAll_append, first]
    dsimp only
    rw [obeyAll, obeyed]
  have otherwise : session.obeyAll (earlier ++ other :: later.map (Command.shift 1)) =
      after.obeyAll (later.map (Command.shift 1)) := by
    rw [obeyAll_append, first]
    dsimp only
    rw [obeyAll, same obeyed]
  have unmoved := obeyAll_of_events after.text 0 after later
  have moved := obeyAll_of_events after.text 1 after later
  rw [Command.map_shift_zero] at unmoved
  generalize ending : ({ after with events := [] } : Session).obeyAll later = reading
    at unmoved moved
  obtain ⟨onward, outcome⟩ := reading
  obtain ⟨rfl, rfl⟩ := Prod.mk.inj (last.symm.trans unmoved)
  refine ⟨_, otherwise.trans moved, rfl, rfl, ?_⟩
  have within : ∀ event ∈ after.problems, event.line ≤ command.line := by
    intro event member
    obtain ⟨reporter, known, same⟩ := exists_line_of_mem_problems (alone []) fresh member
    rw [same]
    rcases List.mem_append.mp known with first | last
    · exact Int.ofNat_le.mpr (before reporter first)
    · rw [List.mem_singleton.mp last]
  have below : ∀ event ∈ onward.problems, (command.line : Int) < event.line := by
    intro event member
    obtain ⟨reporter, known, same⟩ := exists_line_of_mem_problems ending rfl member
    rw [same]
    exact Int.ofNat_lt.mpr (behind reporter known)
  rw [problems_relocate, problems_relocate, Event.map_shift_zero, List.map_append,
    Event.map_shiftBelow_of_le within, Event.map_shiftBelow_of_lt below]

/-! ## Designs -/

theorem snd_readDesign_congr {text other : Text} (same : commands text = commands other) :
    (readDesign text).2 = (readDesign other).2 := by
  rw [readDesign_eq, readDesign_eq, ← opened, ← opened, same, obeyAll_opened text other]
  rfl

/-- A board command on one line that is accepted does the same when it is broken. -/
theorem obey_of_mayBreak
    {session final : Session}
    {row : Nat}
    {opening after : Text}
    {blank : Char}
    (mayBreak : Command.MayBreak opening after)
    (isBlank : Text.isBlank blank = true)
    (single : '\n' ∉ opening ++ blank :: after)
    (quotes : 2 ≤ (strip opening).count '"')
    (obeyed : session.obey ⟨row, .board, strip (opening ++ blank :: after)⟩ = (final, .ok ())) :
    session.obey ⟨row, .board, strip opening ++
      if Command.isSilent (strip after) then [] else ' ' :: strip after⟩ = (final, .ok ()) := by
  have nonempty : strip opening ≠ [] := by
    intro empty
    simp [empty] at quotes
  obtain ⟨empty, same⟩ | ⟨written, gap, isGap, same⟩ :=
    Command.strip_break isBlank nonempty after
  · rw [same] at obeyed
    rw [empty]
    simpa [Command.isSilent] using obeyed
  · have unbroken : '\n' ∉ strip opening ++ (gap ++ strip after) := by
      rw [← same]
      exact fun broken => single ((strip_isInfix _).subset broken)
    have drawn : session.draw row (strip opening ++ (gap ++ strip after)) = (final, .ok ()) := by
      rw [← same]
      exact obeyed
    cases mayBreak with
    | spoken spoken =>
        rw [if_neg (by simp [spoken])]
        have otherUnbroken : '\n' ∉ strip opening ++ ' ' :: strip after := by
          simp only [List.mem_append, List.mem_cons, not_or] at unbroken ⊢
          exact ⟨unbroken.1, by decide, unbroken.2.2⟩
        exact draw_of_break (isGap.startsWith_isBlank _) unbroken otherUnbroken quotes
          (.gap isGap (.of_isBlank (by decide)) (.refl _)) drawn
    | blank empty => exact absurd empty written
    | comment isBlank noSign commented =>
        have silent : Command.isSilent (strip after) = true := by
          rw [commented]
          rfl
        rw [if_pos silent, List.append_nil]
        rw [commented] at drawn unbroken
        exact draw_of_comment isGap isBlank unbroken quotes noSign drawn

/-- A board command on one line that is not refused may be broken at any white space behind
the name of its board. It goes on in the next line, behind two spaces: the boards, the number
of definitions and the problems stay, and those below the command are one line further down.
But if what is moved to the next line reads as a comment there, then the command ends at the
break. -/
theorem breaks_keep_design
    {text opening after : Text}
    {blank : Char}
    {above below : List Text}
    {design : Design}
    (rows : Command.lines text = above ++ (opening ++ blank :: after) :: below)
    (isCommand : ⟨above.length + 1, .board, strip (opening ++ blank :: after)⟩ ∈ commands text)
    (isBlank : Text.isBlank blank = true)
    (behindName : 2 ≤ opening.count '"')
    (found : (readDesign text).2 = .ok design)
    (accepted : ∀ failure, .refused (above.length + 1) failure ∉ design.problems) :
    (Command.MayBreak opening after →
      ReadsAs (Command.unlines (Command.breakRows above opening after below))
        (design.shiftBelow (above.length + 1) 1)) ∧
    (Command.isSilent (strip after) = true →
      (readDesign (Command.unlines (Command.breakRows above opening after below))).2 =
        (readDesign (Command.unlines (Command.breakRows above opening [] below))).2) := by
  refine ⟨fun mayBreak => ?_, fun silent =>
    snd_readDesign_congr (Command.commands_breakRows_of_isSilent rows silent)⟩
  have quotes : 2 ≤ (strip opening).count '"' := by
    rwa [count_strip (by decide)]
  have nonempty : strip opening ≠ [] := by
    intro empty
    simp [empty] at quotes
  obtain ⟨earlier, later, whole, broken, before, behind⟩ :=
    Command.exists_commands_of_break rows isBlank nonempty isCommand
  obtain ⟨final, read, rfl⟩ := readDesign_eq_ok_iff.mp found
  rw [whole] at read
  obtain ⟨moved, readBroken, boards, count, problems⟩ :=
    exists_obeyAll_of_replaced read rfl accepted before behind
      (obey_of_mayBreak mayBreak isBlank (Command.not_mem_of_lines rows) quotes)
  rw [readsAs_iff text, broken]
  refine ⟨moved, readBroken, boards, ?_, count⟩
  rw [problems, Design.problems_shiftBelow]
  rfl

/-- A break in front of a keyword, above a command that is not known. -/
theorem exists_readsAs_breakRows :
    ∃ design,
      (readDesign "board 1 x 1 x 1 \"a\" at 1,2,3 view f\nleg".toList).2 = .ok design ∧
      ReadsAs "board 1 x 1 x 1 \"a\" at 1,2,3\n  view f\nleg".toList (design.shiftBelow 1 1) := by
  have isRead : (readDesign "board 1 x 1 x 1 \"a\" at 1,2,3 view f\nleg".toList).2.toOption.map
      (·.problems.map Event.line) = some [2] := by
    decide +kernel
  obtain ⟨design, found, lines⟩ := exists_of_map_toOption isRead
  have accepted (failure : Failure) : .refused 1 failure ∉ design.problems := by
    intro refused
    have isLine : (1 : Int) ∈ design.problems.map Event.line := List.mem_map_of_mem refused
    rw [lines] at isLine
    exact absurd isLine (by decide)
  have broken := @breaks_keep_design _ "board 1 x 1 x 1 \"a\" at 1,2,3".toList "view f".toList ' '
    [] ["leg".toList] _ (by decide) (by decide) (by decide) (by decide) found accepted
  exact ⟨design, found, broken.1 (.spoken (by decide))⟩

/-- A break in front of a colour: the rest reads as a comment, and the board loses the
colour. -/
theorem exists_break_that_changes_board :
    ¬ ∀ (text opening after : Text) (blank : Char) (above below : List Text) (design : Design),
        Command.lines text = above ++ (opening ++ blank :: after) :: below →
        ⟨above.length + 1, .board, strip (opening ++ blank :: after)⟩ ∈ commands text →
        Text.isBlank blank = true →
        2 ≤ opening.count '"' →
        (readDesign text).2 = .ok design →
        (∀ failure, .refused (above.length + 1) failure ∉ design.problems) →
        ∃ other,
          (readDesign (Command.unlines (Command.breakRows above opening after below))).2 =
            .ok other ∧
          other.boards = design.boards ∧ other.problems = design.problems := by
  intro always
  have isRead : (readDesign "board 1 x 1 x 1 \"a\" color #fff".toList).2.toOption.map
      (fun design => (design.problems, design.boards.map (·.color))) =
        some ([], ["#fff".toList]) := by
    decide +kernel
  have isReadToo : (readDesign "board 1 x 1 x 1 \"a\" color\n  #fff".toList).2.toOption.map
      (fun design => design.boards.map (·.color)) = some ["#c9a05a".toList] := by
    decide +kernel
  obtain ⟨design, found, known⟩ := exists_of_map_toOption isRead
  obtain ⟨clean, colored⟩ := Prod.mk.inj known
  obtain ⟨broken, brokenFound, uncolored⟩ := exists_of_map_toOption isReadToo
  obtain ⟨other, read, boards, -⟩ := always _ "board 1 x 1 x 1 \"a\" color".toList "#fff".toList
    ' ' [] [] design (by decide) (by decide) (by decide) (by decide) found (by simp [clean])
  have same : broken = other := Except.ok.inj (brokenFound.symm.trans read)
  rw [same, boards, colored] at uncolored
  exact absurd uncolored (by decide)

end Session
end Joinery
