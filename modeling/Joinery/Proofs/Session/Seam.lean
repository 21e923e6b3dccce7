import Joinery.Proofs.Command.Seam
import Joinery.Proofs.Session.Success

/-!
# Readings across a seam

A session carries nothing from one command to the next but its definitions and boards.
Line numbers go into events only, and no event is read again. So the commands of the
second part of a text do what they do behind any session with the same definitions and
boards, wherever they stand: `obeyAll_relocate`.
-/

namespace Joinery

/-- The event some lines further down. -/
def Event.shift (count : Nat) : Event → Event
  | .refused line failure => .refused (line + count) failure
  | .resized line name notice => .resized (line + count) name notice
  | .placed line id name => .placed (line + count) id name

theorem Event.isProblem_shift (count : Nat) (event : Event) :
    (event.shift count).isProblem = event.isProblem := by
  cases event <;> rfl

/-- Events further down are reported as before. -/
theorem Event.filter_isProblem_shift (count : Nat) (events : List Event) :
    (events.map (shift count)).filter isProblem = (events.filter isProblem).map (shift count) := by
  rw [List.filter_map]
  congr 2
  funext event
  exact isProblem_shift count event

theorem Event.map_shift_zero (events : List Event) : events.map (shift 0) = events := by
  have same : shift 0 = id := by
    funext event
    cases event <;> simp [shift]
  rw [same, List.map_id]

theorem Command.map_shift_shift (first second : Nat) (commands : List Command) :
    (commands.map (shift first)).map (shift second) = commands.map (shift (first + second)) := by
  rw [List.map_map]
  congr 1
  funext command
  simp [shift, Nat.add_assoc]

theorem Command.map_shift_zero (commands : List Command) :
    commands.map (shift 0) = commands :=
  List.map_id commands

namespace Session

/-- The session in another text: there are earlier events, and its own ones are further
down. -/
def relocate (text : Text) (earlier : List Event) (count : Nat) (session : Session) : Session :=
  { session with text := text, events := earlier ++ session.events.map (Event.shift count) }

section Relocate

variable (text : Text) (earlier : List Event) (count : Nat)

theorem relocate_note (session : Session) (event : Event) :
    (session.note event).relocate text earlier count =
      (session.relocate text earlier count).note (event.shift count) := by
  simp [relocate, note]

theorem relocate_notify
    (session : Session)
    (line : Int)
    (name : Text)
    (notice : Option WidthNotice) :
    (session.notify line name notice).relocate text earlier count =
      (session.relocate text earlier count).notify (line + count) name notice := by
  cases notice with
  | none => rfl
  | some notice => exact relocate_note text earlier count session _

theorem relocate_add
    (session : Session)
    (line : Int)
    (id : Text)
    (board : Board Binary64) :
    (session.add line id board).relocate text earlier count =
      (session.relocate text earlier count).add (line + count) id board := by
  simp [relocate, add, note, Event.shift]

theorem place_relocate (session : Session) (line : Int) (id : Text) (heading : Heading) :
    (session.relocate text earlier count).place (line + count) id heading =
      ((session.place line id heading).1.relocate text earlier count,
        (session.place line id heading).2) := by
  have sameScope : (session.relocate text earlier count).scope = session.scope := rfl
  have sameBoards : (session.relocate text earlier count).boards = session.boards := rfl
  unfold place
  rw [sameScope]
  cases Draft.ofHeading session.scope heading with
  | error cause => rfl
  | ok draft =>
      dsimp only
      cases draft.notice? with
      | error cause => rfl
      | ok notice =>
          dsimp only
          rw [sameBoards]
          cases draft.board session.scope id heading.name session.boards.length with
          | error cause => exact congrArg (·, _) (relocate_notify ..).symm
          | ok board =>
              dsimp only
              rw [relocate_add, relocate_notify]

theorem draw_relocate (session : Session) (line : Int) (command : Text) :
    (session.relocate text earlier count).draw (line + count) command =
      ((session.draw line command).1.relocate text earlier count,
        (session.draw line command).2) := by
  unfold draw
  cases Heading.ofLine? command with
  | none => rfl
  | some heading =>
      have sameId : (session.relocate text earlier count).idFor heading =
          session.idFor heading := rfl
      have sameBoard (id : Text) :
          (session.relocate text earlier count).board? id = session.board? id := rfl
      simp only [sameId, sameBoard, place_relocate]
      split
      · rfl
      · rfl

theorem define_relocate (session : Session) (line : Text) :
    (session.relocate text earlier count).define line =
      (session.define line).map (relocate text earlier count) := by
  have sameScope : (session.relocate text earlier count).scope = session.scope := rfl
  unfold define
  cases Definition.ofLine? line with
  | none => rfl
  | some definition =>
      dsimp only
      rw [sameScope]
      cases Joinery.evaluate session.scope definition.expression with
      | error cause => rfl
      | ok value => rfl

/-- A command does the same in another text. -/
theorem obey_relocate (session : Session) (command : Command) :
    (session.relocate text earlier count).obey (command.shift count) =
      ((session.obey command).1.relocate text earlier count, (session.obey command).2) := by
  obtain ⟨line, kind, content⟩ := command
  cases kind with
  | definition =>
      simp only [obey, Command.shift, define_relocate]
      cases session.define content with
      | error failure => rfl
      | ok after => rfl
  | board => exact draw_relocate text earlier count session line content
  | unknown => rfl

/-- Commands do the same in another text. -/
theorem obeyAll_relocate (session : Session) (commands : List Command) :
    (session.relocate text earlier count).obeyAll (commands.map (Command.shift count)) =
      ((session.obeyAll commands).1.relocate text earlier count,
        (session.obeyAll commands).2) := by
  induction commands generalizing session with
  | nil => rfl
  | cons command rest inductionHypothesis =>
      rw [List.map_cons, obeyAll, obey_relocate, obeyAll]
      obtain ⟨after, outcome⟩ := session.obey command
      cases outcome with
      | ok done => exact inductionHypothesis after
      | error failure =>
          dsimp only
          split
          · rfl
          · rw [← inductionHypothesis, relocate_note]
            rfl

/-- Commands do in a session what they do in the one without its events, and the events
that they add stand behind those. -/
theorem obeyAll_of_events (session : Session) (commands : List Command) :
    ({ session with text := text }).obeyAll (commands.map (Command.shift count)) =
      (({ session with events := [] }.obeyAll commands).1.relocate text session.events count,
        ({ session with events := [] }.obeyAll commands).2) := by
  rw [← obeyAll_relocate]
  simp [relocate]

end Relocate

/-- The second of two rows of commands starts in the session that the first one leaves,
if there is one. -/
theorem obeyAll_append (session : Session) (first second : List Command) :
    session.obeyAll (first ++ second) =
      match session.obeyAll first with
      | (after, .ok _) => after.obeyAll second
      | (after, .error failure) => (after, .error failure) := by
  induction first generalizing session with
  | nil => rfl
  | cons command rest inductionHypothesis =>
      rw [List.cons_append, obeyAll, obeyAll]
      obtain ⟨after, outcome⟩ := session.obey command
      cases outcome with
      | ok done => exact inductionHypothesis after
      | error failure =>
          dsimp only
          split
          · rfl
          · exact inductionHypothesis _

/-! ## Readings -/

/-- The session of a text when its reading starts. -/
def opened (text : Text) : Session := { new text with isSpent := true }

/-- The session that a reading leaves. -/
theorem fst_readDesign (text : Text) :
    (readDesign text).1 = ((opened text).obeyAll (commands text)).1 := rfl

theorem readDesign_eq_ok_iff {text : Text} {design : Design} :
    (readDesign text).2 = .ok design ↔
      ∃ after, (opened text).obeyAll (commands text) = (after, .ok ()) ∧
        after.design = design := by
  rw [readDesign_eq, ← opened]
  generalize (opened text).obeyAll (commands text) = reading
  obtain ⟨after, outcome⟩ := reading
  cases outcome with
  | error failure => simp [Except.map]
  | ok done => simp [Except.map]

/-- The first part of a text is read in the same way as it is alone. -/
theorem obeyAll_opened (whole before : Text) :
    (opened whole).obeyAll (commands before) =
      ({ ((opened before).obeyAll (commands before)).1 with text := whole },
        ((opened before).obeyAll (commands before)).2) := by
  have moved := obeyAll_relocate whole [] 0 (opened before) (commands before)
  simp only [Command.map_shift_zero, relocate, Event.map_shift_zero, List.nil_append] at moved
  exact moved

/-- A reading of two texts, with silent lines between them, if the second one starts anew:
the first one is read as it is alone, and then the second one behind it. -/
theorem readDesign_below_eq_ok_iff
    {before after : Text}
    (anew : ∀ line ∈ (Command.lines after).head?, Command.StartsAnew line)
    {silent : List Text}
    (areSilent : ∀ line ∈ silent, Command.IsSilentLine line)
    (design : Design) :
    (readDesign (before ++ '\n' :: Command.below silent after)).2 = .ok design ↔
      ∃ first, (readDesign before).2 = .ok first ∧
        ∃ last, { (readDesign before).1 with events := [] }.obeyAll
            ((commands after).map (Command.shift (Command.lines before).length)) =
              (last, .ok ()) ∧
          design = ⟨last.boards, first.events ++ last.events.map (Event.shift silent.length),
            last.definitionCount⟩ := by
  have onward := obeyAll_of_events (before ++ '\n' :: Command.below silent after) silent.length
    (readDesign before).1
    ((commands after).map (Command.shift (Command.lines before).length))
  have alone := @readDesign_eq_ok_iff before
  rw [readDesign_eq_ok_iff, Command.commands_append anew before areSilent,
    ← Command.map_shift_shift, obeyAll_append, obeyAll_opened, ← fst_readDesign]
  rw [fst_readDesign] at onward ⊢
  generalize (opened before).obeyAll (commands before) = reading at alone onward ⊢
  obtain ⟨middle, outcome⟩ := reading
  constructor
  · rintro ⟨final, read, rfl⟩
    cases outcome with
    | error failure => cases read
    | ok done =>
        obtain ⟨rfl, ok⟩ := Prod.mk.inj (onward.symm.trans read)
        exact ⟨middle.design, alone.mpr ⟨middle, rfl, rfl⟩, _, Prod.ext rfl ok, rfl⟩
  · rintro ⟨first, found, last, read, rfl⟩
    obtain ⟨_, same, rfl⟩ := alone.mp found
    cases same
    dsimp only at onward read
    rw [read] at onward
    exact ⟨_, onward, rfl⟩

/-- A text is read in a single pass. If it has two parts of which the second one starts
anew, then the first part is read as it is alone, its boards and problems come first, and
what follows is what the commands of the second part do in the session that the first one
leaves. Silent lines between the parts change nothing but the line numbers of what the
second part reports. -/
theorem readDesign_append
    {before after : Text}
    {design : Design}
    (anew : ∀ line ∈ (Command.lines after).head?, Command.StartsAnew line)
    (found : (readDesign (before ++ '\n' :: after)).2 = .ok design) :
    ∃ first, (readDesign before).2 = .ok first ∧
      first.boards <+: design.boards ∧
      (∃ last, (readDesign before).1.obeyAll
          ((commands after).map (Command.shift (Command.lines before).length)) =
            (last, .ok ()) ∧ last.design = design) ∧
      ∃ reported, design.problems = first.problems ++ reported ∧
        ∀ silent, (∀ line ∈ silent, Command.IsSilentLine line) →
          ∃ moved, (readDesign (before ++ '\n' :: Command.below silent after)).2 = .ok moved ∧
            moved.boards = design.boards ∧
            moved.definitionCount = design.definitionCount ∧
            moved.problems = first.problems ++ reported.map (Event.shift silent.length) := by
  have noSilence : ∀ line ∈ ([] : List Text), Command.IsSilentLine line := by
    intro line member
    cases member
  obtain ⟨first, read, last, onward, rfl⟩ :=
    (readDesign_below_eq_ok_iff anew noSilence design).mp found
  obtain ⟨middle, reading, rfl⟩ := readDesign_eq_ok_iff.mp read
  have left : (readDesign before).1 = middle := congrArg Prod.fst reading
  rw [left] at onward ⊢
  refine ⟨middle.design, read, ?_, ?_, last.events.filter Event.isProblem, ?_, ?_⟩
  · have grown := extends_obeyAll { middle with events := [] }
      ((commands after).map (Command.shift (Command.lines before).length))
    rw [onward] at grown
    exact ⟨_, grown.boards.symm⟩
  · have behind := obeyAll_of_events middle.text 0 middle
      ((commands after).map (Command.shift (Command.lines before).length))
    rw [Command.map_shift_zero, onward] at behind
    exact ⟨_, behind, rfl⟩
  · rw [Design.problems, List.filter_append, List.length_nil, Event.map_shift_zero]
    rfl
  · intro silent areSilent
    refine ⟨_, (readDesign_below_eq_ok_iff anew areSilent _).mpr
      ⟨middle.design, read, last, ?_, rfl⟩, rfl, rfl, ?_⟩
    · rw [left]
      exact onward
    · rw [Design.problems, List.filter_append, Event.filter_isProblem_shift]
      rfl

/-- A definition, and behind it a board that uses it and a command that is unknown. -/
theorem exists_readDesign_append :
    ∃ design first, (readDesign "$w = 2\nboard $w x 1 x 1 \"a\"\nshelf".toList).2 = .ok design ∧
      (readDesign "$w = 2".toList).2 = .ok first ∧ first.boards <+: design.boards := by
  have anew : ∀ line ∈ (Command.lines "board $w x 1 x 1 \"a\"\nshelf".toList).head?,
      Command.StartsAnew line := by
    intro line member
    cases member
    exact Or.inr (by decide)
  have isRead : (readDesign ("$w = 2".toList ++
      '\n' :: "board $w x 1 x 1 \"a\"\nshelf".toList)).2.toOption.isSome = true := by
    decide +kernel
  cases found : (readDesign ("$w = 2".toList ++
      '\n' :: "board $w x 1 x 1 \"a\"\nshelf".toList)).2 with
  | error failure =>
      rw [found] at isRead
      cases isRead
  | ok design =>
      obtain ⟨first, read, isPrefix, -⟩ := readDesign_append anew found
      exact ⟨design, first, found, read, isPrefix⟩

end Session
end Joinery
