import Joinery.Proofs.Assembly.Foreign
import Joinery.Proofs.Command.Comment
import Joinery.Proofs.Session.Seam

/-!
# Designs with comments

A comment behind a line hides the continuations below it. So it leaves a design without
problems exactly if those continuations change nothing, which is so where there are none.
-/

namespace Joinery

theorem Heading.isSolid_of_ofHeading
    {scope : Scope}
    {heading : Heading}
    {draft : Draft}
    (drafted : Draft.ofHeading scope heading = .ok draft) :
    heading.IsSolid := by
  intro empty
  simp only [Draft.ofHeading, empty] at drafted
  cases drafted

namespace Session

/-! ## Commands that do the same -/

/-- A board command is read only through its heading, and options only without a comment. -/
theorem draw_congr
    {text other options : Text}
    {heading : Heading}
    (found : Heading.ofLine? text = some heading)
    (otherFound : Heading.ofLine? other = some { heading with options := options })
    (same : Options.withoutComment options = Options.withoutComment heading.options)
    (session : Session)
    (line : Int) :
    session.draw line other = session.draw line text := by
  have sameDraft : Draft.ofHeading session.scope { heading with options := options } =
      Draft.ofHeading session.scope heading := by
    simp only [Draft.ofHeading, same]
  have samePlace (id : Text) : session.place line id { heading with options := options } =
      session.place line id heading := by
    simp only [place, sameDraft]
  have sameId : session.idFor { heading with options := options } = session.idFor heading := rfl
  simp only [draw, found, otherFound, sameId, samePlace]

/-- A board command that is accepted adds a board with the name in its heading, and the
dimensions there have no foreign character. -/
theorem exists_of_draw_eq_ok
    {session after : Session}
    {line : Int}
    {text : Text}
    (drawn : session.draw line text = (after, .ok ())) :
    ∃ heading board, Heading.ofLine? text = some heading ∧ heading.IsSolid ∧
      (∀ character, IsForeign character → Dimension.isSeparator character = false →
        character ∉ heading.dimensions) ∧
      board.name = heading.name ∧ after.boards = session.boards ++ [board] := by
  rcases draw_cases session line text with
    ⟨failure, refused⟩ | ⟨heading, draft, board, drafted, built, added⟩
  · rw [refused] at drawn
    cases drawn
  · rw [added] at drawn
    cases drawn
    obtain ⟨found, -, known⟩ := draft?_eq_some_iff.mp drafted
    obtain ⟨_, _, _, _, _, _, -, -, -, rfl⟩ := Draft.board_eq_ok built
    exact ⟨heading, _, found, Heading.isSolid_of_ofHeading known,
      fun _ foreign letter => foreign.not_mem_of_ofHeading letter known, rfl, rfl⟩

/-! ## What commands leave -/

/-- Commands that are all read, and leave the boards, problems and number of definitions of a
design. -/
def Yields (session : Session) (commands : List Command) (design : Design) : Prop :=
  ∃ after, session.obeyAll commands = (after, .ok ()) ∧ after.boards = design.boards ∧
    after.problems = design.problems ∧ after.definitionCount = design.definitionCount

section Yields

variable {session : Session} {command : Command} {commands : List Command} {design : Design}

/-- Commands that leave no problem are accepted one by one. -/
theorem yields_cons_iff (clean : design.problems = []) :
    session.Yields (command :: commands) design ↔
      ∃ after, session.obey command = (after, .ok ()) ∧ after.Yields commands design := by
  unfold Yields
  rw [obeyAll]
  constructor
  · rintro ⟨last, read, boards, problems, count⟩
    split at read
    next after _ obeyed => exact ⟨after, obeyed, last, read, boards, problems, count⟩
    next after failure obeyed =>
      split at read
      · cases read
      · -- The refusal would be noted.
        obtain ⟨-, all, -⟩ := obeyAll_of_isOk (congrArg Prod.snd read)
        rw [read, problems, clean] at all
        simp [Session.problems, note, Event.isProblem] at all
  · rintro ⟨after, obeyed, yields⟩
    rw [obeyed]
    exact yields

/-- Commands leave the same behind commands that are accepted. -/
theorem yields_append_iff
    {earlier : List Command}
    {middle : Session}
    (read : session.obeyAll earlier = (middle, .ok ())) :
    session.Yields (earlier ++ commands) design ↔ middle.Yields commands design := by
  rw [Yields, obeyAll_append, read]
  rfl

/-- What a session has already is left at the front. -/
theorem Yields.isPrefix (yields : session.Yields commands design) :
    session.boards <+: design.boards := by
  obtain ⟨after, read, same, -⟩ := yields
  have grown := (extends_obeyAll session commands).boards
  rw [read, same] at grown
  exact ⟨_, grown.symm⟩

/-- The first ones of some commands that leave no problem are all read. -/
theorem Yields.exists_obeyAll
    {earlier : List Command}
    (yields : session.Yields (earlier ++ commands) design) :
    ∃ middle, session.obeyAll earlier = (middle, .ok ()) := by
  obtain ⟨after, read, -⟩ := yields
  rw [obeyAll_append] at read
  split at read
  next middle _ known => exact ⟨middle, known⟩
  next => cases read

end Yields

/-! ## Comments in commands -/

section Site

variable {site : Command.Site} {note : Command.Note} {session : Session} {design : Design}
  (single : '\n' ∉ site.part ++ (note.text ++ site.tail))
include single

/-- A comment behind a whole definition changes nothing. -/
theorem define_note
    {after : Session}
    (kind : site.kind = .definition)
    (defined : session.define (site.part ++ site.tail) = .ok after) :
    session.define (site.part ++ (note.text ++ site.tail)) = session.define site.part := by
  obtain ⟨plain, whole⟩ := site.undivided (by simp [kind])
  rw [whole, List.append_nil] at defined single ⊢
  rw [List.mem_append, not_or] at single
  cases found : Definition.ofLine? site.part with
  | none =>
      rw [define, found] at defined
      cases defined
  | some definition =>
      have longer := Definition.ofLine?_append found site.ending plain single.1 note.startsWith_text
        (Command.Note.endsBefore_text single.2)
      rw [define, define, longer, found]

/-- A comment behind a part of a board command that is not a whole command itself changes the
name of the board, or the command is refused. -/
theorem boards_of_note
    {first second : Session}
    {line : Int}
    {boards : List (Board Binary64)}
    (incomplete : ∀ heading, Heading.ofLine? site.part = some heading → ¬ heading.IsSolid)
    (plain : session.draw line (site.part ++ site.tail) = (first, .ok ()))
    (noted : session.draw line (site.part ++ (note.text ++ site.tail)) = (second, .ok ()))
    (isFirst : first.boards <+: boards) :
    ¬ second.boards <+: boards := by
  intro isSecond
  obtain ⟨heading, board, found, isSolid, -, name, added⟩ := exists_of_draw_eq_ok plain
  obtain ⟨other, otherBoard, otherFound, otherSolid, foreign, otherName, otherAdded⟩ :=
    exists_of_draw_eq_ok noted
  have unsigned := foreign '#' ⟨by decide, by decide, by decide⟩ (by decide)
  rw [added] at isFirst
  rw [otherAdded] at isSecond
  have same := (List.prefix_of_prefix_length_le isFirst isSecond (by simp)).eq_of_length (by simp)
  rw [List.append_cancel_left_eq, List.singleton_inj] at same
  rcases site.continued with whole | ⟨solid, more, whole, solidStarts, notSign⟩
  · rw [whole, List.append_nil] at found
    exact incomplete heading found isSolid
  · rw [whole] at single found otherFound
    refine Heading.name_ne_of_ofLine? solidStarts notSign single incomplete ⟨found, isSolid⟩
      ⟨otherFound, otherSolid⟩ unsigned ?_
    rw [← name, ← otherName, same]

/-- What a comment does to a command that is accepted. Either the command does what its part
in front of the comment does alone. Or that part is refused, and then the command with the
comment is refused as well or adds another board. -/
theorem obey_note
    {after : Session}
    (accepted : session.obey ⟨site.number, site.kind, site.part ++ site.tail⟩ =
      (after, .ok ())) :
    session.obey ⟨site.number, site.kind, site.part ++ (note.text ++ site.tail)⟩ =
        session.obey ⟨site.number, site.kind, site.part⟩ ∨
      (∀ other, session.obey ⟨site.number, site.kind, site.part⟩ ≠ (other, .ok ())) ∧
        ∀ other boards,
          session.obey ⟨site.number, site.kind, site.part ++ (note.text ++ site.tail)⟩ =
            (other, .ok ()) →
          after.boards <+: boards → ¬ other.boards <+: boards := by
  unfold obey at accepted ⊢
  cases kind : site.kind with
  | definition =>
      simp only [kind] at accepted ⊢
      split at accepted
      next defined => exact Or.inl (by rw [define_note single kind defined])
      next => cases accepted
  | board =>
      simp only [kind] at accepted ⊢
      by_cases complete : ∃ heading, Heading.ofLine? site.part = some heading ∧ heading.IsSolid
      · obtain ⟨heading, found, isSolid⟩ := complete
        obtain ⟨options, longer, same⟩ :=
          Heading.exists_ofLine?_note single site.noSign found isSolid
        exact Or.inl (draw_congr found longer same session site.number)
      · refine Or.inr ⟨fun other drawn => ?_, fun other boards drawn isPrefix => ?_⟩
        · obtain ⟨heading, -, found, isSolid, -⟩ := exists_of_draw_eq_ok drawn
          exact complete ⟨heading, found, isSolid⟩
        · refine boards_of_note single (fun heading found isSolid => ?_) accepted drawn isPrefix
          exact complete ⟨heading, found, isSolid⟩
  | unknown =>
      simp only [kind] at accepted
      cases accepted

/-- The commands yield a design without problems with a comment exactly if they do so with
nothing but the part of the command in front of the comment. -/
theorem yields_note_iff
    (clean : design.problems = [])
    (plain : session.Yields (site.commandsWith (site.part ++ site.tail)) design) :
    session.Yields (site.commandsWith (site.part ++ (note.text ++ site.tail))) design ↔
      session.Yields (site.commandsWith site.part) design := by
  unfold Command.Site.commandsWith at plain ⊢
  obtain ⟨middle, read⟩ := plain.exists_obeyAll
  rw [yields_append_iff read, yields_cons_iff clean] at plain
  rw [yields_append_iff read, yields_append_iff read, yields_cons_iff clean, yields_cons_iff clean]
  obtain ⟨after, accepted, yields⟩ := plain
  rcases obey_note single accepted with same | ⟨refused, apart⟩
  · rw [same]
  · constructor
    · rintro ⟨other, noted, otherYields⟩
      exact absurd otherYields.isPrefix (apart other _ noted yields.isPrefix)
    · rintro ⟨other, drawn, -⟩
      exact absurd drawn (refused other)

end Site

/-! ## Readings -/

/-- A text that gives the boards, the problems and the number of definitions of a design. -/
def ReadsAs (text : Text) (design : Design) : Prop :=
  ∃ other, (readDesign text).2 = .ok other ∧ other.boards = design.boards ∧
    other.problems = design.problems ∧ other.definitionCount = design.definitionCount

/-- The commands of a text yield its design in the session of any text. -/
theorem readsAs_iff {text : Text} {design : Design} (whole : Text) :
    ReadsAs text design ↔ (opened whole).Yields (commands text) design := by
  have moved := obeyAll_opened whole text
  unfold ReadsAs Yields
  simp only [readDesign_eq_ok_iff]
  rw [moved]
  constructor
  · rintro ⟨_, ⟨after, read, rfl⟩, boards, problems, count⟩
    rw [read]
    exact ⟨_, rfl, boards, problems, count⟩
  · rintro ⟨_, read, boards, problems, count⟩
    generalize (opened text).obeyAll (commands text) = reading at read ⊢
    obtain ⟨after, outcome⟩ := reading
    cases read
    exact ⟨_, ⟨after, rfl, rfl⟩, boards, problems, count⟩

/-- A comment behind a line of a command without a number sign, in a text without problems,
hides what continues the command below the line: the boards, the problems and the number of
definitions stay exactly if they stay when those continuations are made blank. So they
always stay if the line is the last one of its command. -/
theorem comments_hide_continuations
    {text line comment : Text}
    {above below : List Text}
    {design : Design}
    (rows : Command.lines text = above ++ line :: below)
    (spoken : Command.isSilent (Text.strip line) = false)
    (plain : '#' ∉ line)
    (single : '\n' ∉ comment)
    (written : Text.strip comment ≠ [])
    (found : (readDesign text).2 = .ok design)
    (clean : design.problems = []) :
    (ReadsAs (Command.unlines (above ++ Command.withNote line comment :: below)) design ↔
      ReadsAs (Command.unlines (above ++ line ::
        Command.withoutContinuations (Command.isOpenAfter false (above ++ [line])) below))
        design) ∧
    (Command.withoutContinuations (Command.isOpenAfter false (above ++ [line])) below = below →
      ReadsAs (Command.unlines (above ++ Command.withNote line comment :: below)) design) := by
  obtain ⟨site, note, whole, noted, shortened⟩ :=
    Command.exists_site_of_line rows spoken plain single written
  have inside : ⟨site.number, site.kind, site.part ++ (note.text ++ site.tail)⟩ ∈
      commands (Command.unlines (above ++ Command.withNote line comment :: below)) := by
    rw [noted]
    exact List.mem_append_right _ List.mem_cons_self
  have unbroken := Command.not_mem_of_mem_commands inside
  have yields : (opened text).Yields (commands text) design :=
    (readsAs_iff text).mp ⟨design, found, rfl, rfl, rfl⟩
  have comments :
      ReadsAs (Command.unlines (above ++ Command.withNote line comment :: below)) design ↔
      ReadsAs (Command.unlines (above ++ line ::
        Command.withoutContinuations (Command.isOpenAfter false (above ++ [line])) below))
        design := by
    rw [whole] at yields
    rw [readsAs_iff text, readsAs_iff text, noted, shortened]
    exact yields_note_iff unbroken clean yields
  refine ⟨comments, fun alone => comments.mpr ?_⟩
  rw [alone, ← rows, readsAs_iff text, Command.commands_unlines (Command.lines_ne_nil text)
    fun _ => Command.not_mem_of_mem_lines]
  exact yields

/-- What is known of a reading that succeeds is known of its design. -/
theorem exists_of_map_toOption
    {α : Type}
    {text : Text}
    {view : Design → α}
    {value : α}
    (known : (readDesign text).2.toOption.map view = some value) :
    ∃ design, (readDesign text).2 = .ok design ∧ view design = value := by
  cases found : (readDesign text).2 with
  | error failure =>
      rw [found] at known
      cases known
  | ok design =>
      rw [found] at known
      exact ⟨design, rfl, Option.some.inj known⟩

/-- A comment behind the last line of a command. -/
theorem exists_readsAs_withNote :
    ∃ design, (readDesign "board 1 x 1 x 1 \"a\"\n  at 1,2,3".toList).2 = .ok design ∧
      ReadsAs "board 1 x 1 x 1 \"a\"\n  at 1,2,3 # oak".toList design := by
  have isRead : (readDesign "board 1 x 1 x 1 \"a\"\n  at 1,2,3".toList).2.toOption.map
      (·.problems) = some [] := by
    decide +kernel
  obtain ⟨design, found, clean⟩ := exists_of_map_toOption isRead
  have comments := @comments_hide_continuations _ "  at 1,2,3".toList "oak".toList
    ["board 1 x 1 x 1 \"a\"".toList] [] _ (by decide) (by decide) (by decide) (by decide)
    (by decide) found clean
  exact ⟨design, found, comments.2 rfl⟩

/-- A comment in front of a continuation: the board loses its position. -/
theorem exists_comment_that_changes_board :
    ¬ ∀ (text line comment : Text) (above below : List Text) (design : Design),
        Command.lines text = above ++ line :: below →
        Command.isSilent (Text.strip line) = false →
        '#' ∉ line →
        '\n' ∉ comment →
        Text.strip comment ≠ [] →
        (readDesign text).2 = .ok design →
        design.problems = [] →
        ReadsAs (Command.unlines (above ++ Command.withNote line comment :: below)) design := by
  intro always
  have isRead : (readDesign "board 1 x 1 x 1 \"a\"\n  at 1,2,3".toList).2.toOption.map
      (fun design => (design.problems, design.boards.map (·.hasPosition))) =
        some ([], [true]) := by
    decide +kernel
  have isReadToo : (readDesign "board 1 x 1 x 1 \"a\" # oak\n  at 1,2,3".toList).2.toOption.map
      (fun design => design.boards.map (·.hasPosition)) = some [false] := by
    decide +kernel
  obtain ⟨design, found, known⟩ := exists_of_map_toOption isRead
  obtain ⟨clean, placed⟩ := Prod.mk.inj known
  obtain ⟨commented, commentedFound, unplaced⟩ := exists_of_map_toOption isReadToo
  obtain ⟨other, read, boards, -⟩ := always _ "board 1 x 1 x 1 \"a\"".toList "oak".toList []
    ["  at 1,2,3".toList] design (by decide) (by decide) (by decide) (by decide) (by decide)
    found clean
  have same : commented = other := Except.ok.inj (commentedFound.symm.trans read)
  rw [same, boards, placed] at unplaced
  cases unplaced

end Session
end Joinery
