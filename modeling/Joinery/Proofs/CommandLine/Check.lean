import Joinery.CommandLine.Run
import Joinery.Proofs.Assembly.Lengths
import Joinery.Proofs.Session.Success

/-!
# Checks

A check of a design that is read ends well exactly if nothing was refused or resized and
all boards have positive lengths, whatever libraries it runs with, as long as the tests for
outlines are exact. The boards of a design have lengths that were rounded to thousandths, so
the rounding of their areas does not matter, and the tests of the program will do as well.
-/

namespace Joinery

open Binary64

/-- The lengths of the boards of a design were rounded to thousandths. -/
theorem Session.everyLength_of_readDesign
    {text : Text}
    {design : Design}
    {board : Board Binary64}
    (found : (readDesign text).2 = .ok design)
    (member : board ∈ design.boards) :
    board.EveryLength IsRounded := by
  obtain ⟨-, boards, -⟩ := design_of_readDesign found
  rw [boards] at member
  obtain ⟨step, -, added⟩ := List.mem_filterMap.mp member
  obtain ⟨creation, -, placed⟩ := Option.bind_eq_some_iff.mp added
  obtain ⟨heading, draft, drafted, built⟩ := Creation.board?_eq_some_iff.mp placed
  obtain ⟨-, -, known⟩ := draft?_eq_some_iff.mp drafted
  exact Draft.everyLength_board known built

/-- A board whose lengths were rounded has no issue exactly if they are positive. -/
theorem Board.issues_eq_nil_iff
    {board : Board Binary64}
    (rounded : board.EveryLength IsRounded) :
    board.issues = [] ↔ board.EveryLength (0 < ·) :=
  issuesBy_eq_nil_iff (rounded.imp fun _ isRounded => isRounded.within.isFinite)
    Outline.isExactLineTest_isSimple? (Outline.hasNoArea_outline rounded)

/-- With an exact test for areas, the lengths need only be finite. -/
theorem Board.issuesBy_eq_nil_iff_of_isExact
    {tests : Outline.Tests}
    {board : Board Binary64}
    (exact : tests.IsExact)
    (finite : board.EveryLength (·.isFinite = true)) :
    board.issuesBy tests = [] ↔ board.EveryLength (0 < ·) :=
  issuesBy_eq_nil_iff finite exact.lines (exact.hasNoArea_outline finite)

theorem Design.isSound_iff (tests : Outline.Tests) (design : Design) :
    design.isSound tests = true ↔
      design.problems = [] ∧ ∀ board ∈ design.boards, board.issuesBy tests = [] := by
  simp [isSound, issueLines, Board.issueLines, List.flatMap_eq_nil_iff]

namespace CommandLine

/-- A command line that asks for a check of a document. -/
def AsksForCheck (folder : Folder) (arguments : List Text) (document : Document) : Prop :=
  ∃ invocation journal, Invocation.ofArguments arguments = .ok invocation ∧
    Journal.new.setUpIn folder (journalLevel invocation.isVerbose)
      (invocation.logFile.map Path.normal) = .ok journal ∧
    Request.ofArguments (journal.inFolder folder) invocation.verb invocation.arguments =
      .ok (.check document)

/-- The status of a check is zero exactly if the design has neither problems nor issues. -/
theorem status_eq_zero_iff_isSound
    {libraries : Libraries}
    {folder : Folder}
    {arguments : List Text}
    {document : Document}
    {design : Design}
    (asked : AsksForCheck folder arguments document)
    (found : (readDesign (Text.unifyBreaks document.content)).2 = .ok design) :
    (runBy libraries folder arguments).status = 0 ↔
      design.isSound libraries.outlines = true := by
  obtain ⟨invocation, journal, invoked, prepared, requested⟩ := asked
  have outcome : (runBy libraries folder arguments).status =
      if design.isSound libraries.outlines then 0 else 1 := by
    simp only [runBy, invoked, runInvocation, prepared, requested, runRequest]
    rw [show (readDesign (Text.unifyBreaks (Request.check document).design.content)).2 =
      .ok design from found]
    rfl
  rw [outcome]
  split
  next sound => simp [sound]
  next unsound => simp [unsound]

/-- Boards with finite lengths have an issue exactly if one of their lengths is not
positive, when the tests for outlines are exact. An outline with positive lengths is simple
and has an area, so that neither is reported without such a length. A check of a design that
is read ends well exactly if there are no problems and all boards have positive lengths,
with these tests and with those of the program. -/
theorem check_accepts_positive_lengths
    {tests : Outline.Tests}
    (isExact : tests.IsExact) :
    (∀ board : Board Binary64, board.EveryLength (·.isFinite = true) →
      (board.issuesBy tests = [] ↔ board.EveryLength (0 < ·)) ∧
      (board.EveryLength (0 < ·) →
        (∃ points, board.outline.mapM Outline.exactPoint? = some points ∧
          Ring.IsSimple (Ring.edges (Ring.close points))) ∧
        Outline.crossesItselfBy? tests board.outline = some false ∧
        Outline.crossesItself? board.outline = some false ∧
        ∃ area, Outline.exactArea? board.outline = some area ∧ 0 < area) ∧
      ∀ issue ∈ board.issuesBy tests, issue = .crossing ∨ issue = .noArea →
        ∃ name length, .notPositive name length ∈ board.issuesBy tests) ∧
    ∀ libraries folder arguments document design, libraries.outlines = tests →
      AsksForCheck folder arguments document →
      (readDesign (Text.unifyBreaks document.content)).2 = .ok design →
        ((runBy libraries folder arguments).status = 0 ↔
          design.problems = [] ∧ ∀ board ∈ design.boards, board.EveryLength (0 < ·)) ∧
        ((run folder arguments).status = 0 ↔
          design.problems = [] ∧ ∀ board ∈ design.boards, board.EveryLength (0 < ·)) := by
  constructor
  · intro board finite
    refine ⟨Board.issuesBy_eq_nil_iff_of_isExact isExact finite, fun positive => ?_,
      fun issue member _ => Board.exists_notPositive_of_mem_issuesBy finite isExact.lines
        (isExact.hasNoArea_outline finite) member⟩
    obtain ⟨simple, area⟩ := Board.outline_isSimple finite positive
    exact ⟨simple, Board.crossesItselfBy?_outline isExact.lines finite positive,
      Board.crossesItselfBy?_outline Outline.isExactLineTest_isSimple? finite positive, area⟩
  · rintro libraries folder arguments document design rfl asked found
    have rounded (board : Board Binary64) (member : board ∈ design.boards) :=
      Session.everyLength_of_readDesign found member
    constructor
    · rw [status_eq_zero_iff_isSound asked found, Design.isSound_iff]
      refine and_congr_right fun _ => forall₂_congr fun board member => ?_
      exact Board.issuesBy_eq_nil_iff_of_isExact isExact
        ((rounded board member).imp fun _ isRounded => isRounded.within.isFinite)
    · rw [run, status_eq_zero_iff_isSound asked found, Design.isSound_iff]
      refine and_congr_right fun _ => forall₂_congr fun board member => ?_
      exact Board.issues_eq_nil_iff (rounded board member)

/-- A check of a board with two cuts that ends well, and what exact tests say of the outline
of the board: the test for lines that the program runs with, and the area without rounding. -/
theorem exists_check_of_positive_lengths :
    ∃ design, (readDesign (Text.unifyBreaks
        "board 500 x 400 x 18 \"a\" cut left 300 top 200".toList)).2 = .ok design ∧
      ∀ board ∈ design.boards, board.EveryLength (0 < ·) ∧
        board.issuesBy ⟨Outline.isSimple?,
          fun outline => (Outline.exactArea? outline).any (· ≤ 0)⟩ = [] := by
  let document : Document :=
    ⟨"a".toList, "board 500 x 400 x 18 \"a\" cut left 300 top 200".toList⟩
  let folder : Folder := ⟨[(document.path, document.content)], []⟩
  let tests : Outline.Tests :=
    ⟨Outline.isSimple?, fun outline => (Outline.exactArea? outline).any (· ≤ 0)⟩
  have isExact : tests.IsExact := by
    refine ⟨Outline.isExactLineTest_isSimple?, fun outline area measured => ?_⟩
    simp [tests, measured]
  have asked : AsksForCheck folder ["check".toList, "--inp".toList, "a".toList] document :=
    ⟨_, _, rfl, rfl, rfl⟩
  have status : (run folder ["check".toList, "--inp".toList, "a".toList]).status = 0 := by
    decide +kernel
  have isRead : (readDesign (Text.unifyBreaks document.content)).2.toOption.isSome = true := by
    decide +kernel
  cases found : (readDesign (Text.unifyBreaks document.content)).2 with
  | error failure =>
      rw [found] at isRead
      cases isRead
  | ok design =>
      obtain ⟨ofBoards, ofDesigns⟩ := check_accepts_positive_lengths isExact
      obtain ⟨-, ofProgram⟩ := ofDesigns ⟨Yaml.library, tests, Drawing.library⟩ folder _ document
        design rfl asked found
      obtain ⟨-, positive⟩ := ofProgram.mp status
      refine ⟨design, rfl, fun board member => ⟨positive board member, ?_⟩⟩
      have rounded := Session.everyLength_of_readDesign found member
      have finite := rounded.imp fun _ isRounded => isRounded.within.isFinite
      exact (ofBoards board finite).1.mpr (positive board member)

end CommandLine
end Joinery
